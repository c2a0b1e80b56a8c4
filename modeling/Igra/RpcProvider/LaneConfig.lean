import Igra.Kaswallet.Args

/-!
# The configured lane

The provider reads the namespace of its lane from the configuration.  The
wallet daemon reads the same text from its command line, and both have to find
the same lane in it.
-/

open Kaspa Rust

namespace RpcProvider

/-- `NAMESPACE_LEN`. -/
abbrev namespaceLen : Nat := 4

/-- `NAMESPACE_HEX_LEN`. -/
def namespaceHexLen : Nat := namespaceLen * 2

/-- `parse_namespace`. -/
def parseNamespace (crate : SubnetworkCrate) (text : String) :
    Except String SubnetworkId :=
  if startsWith text "0x" || startsWith text "0X" then
    .error "IGRA_LANE_ID must not have a 0x prefix"
  else if text.utf8ByteSize ≠ namespaceHexLen then
    .error ("IGRA_LANE_ID must be the 4-byte lane namespace as " ++
      toString namespaceHexLen ++
      " lowercase hex chars (e.g. 97b10000), got " ++
      toString text.utf8ByteSize ++ " chars")
  else if text.toList.any isAsciiUppercase then
    .error ("IGRA_LANE_ID must be lowercase hex (e.g. 97b10000), got " ++
      crate.debug text)
  else
    -- The digits go into the first bytes of an id of zeros.
    match Hex.decodeToSlice namespaceLen text with
    | .error error =>
        .error ("IGRA_LANE_ID namespace must be valid lowercase hex: " ++
          error.describe)
    | .ok front =>
        let parsed := zeroPadded front
        if parsed.isNative then
          .error ("IGRA_LANE_ID: explicit NATIVE namespace 00000000 " ++
            "selects no lane; use LANE_ENFORCEMENT_DISABLED=true to opt " ++
            "out of enforcement")
        else if crate.isBuiltin parsed then
          .error ("IGRA_LANE_ID: reserved built-in subnetwork " ++
            crate.display parsed ++ " is not allowed")
        else if ((parsed.bytes.take namespaceLen).drop 1).all (· == 0) then
          .error ("IGRA_LANE_ID: namespace 0x" ++
            firstByteText parsed.bytes ++
            "000000 collides with the reserved system shape " ++
            "[x, 0×19] per KIP-21")
        else .ok parsed

section Agreement

variable {crate : SubnetworkCrate} {text : String}
  {subnetworkId : SubnetworkId}

theorem take_zeroPadded (front : FixedBytes 4) :
    (zeroPadded front).bytes.take namespaceLen = front.bytes := by
  have size := front.size
  exact List.take_left' size

theorem parseNamespace_eq_ok :
    parseNamespace crate text = .ok subnetworkId ↔
      ∃ front, SpellsNamespace text front ∧
        subnetworkId = zeroPadded front ∧
        ¬crate.isBuiltin subnetworkId = true ∧
        ¬subnetworkId.isNative = true ∧ ¬ReservedShape front := by
  unfold parseNamespace
  constructor
  · intro parsed
    split at parsed
    · cases parsed
    rename_i noMarker
    split at parsed
    · cases parsed
    rename_i size
    split at parsed
    · cases parsed
    rename_i lowercase
    split at parsed
    · cases parsed
    rename_i front decoded
    simp only at parsed
    split at parsed
    · cases parsed
    rename_i notNative
    split at parsed
    · cases parsed
    rename_i allowed
    split at parsed
    · cases parsed
    rename_i notReserved
    cases parsed
    rw [take_zeroPadded] at notReserved
    exact ⟨front, ⟨noMarker, not_not.mp size, lowercase, decoded⟩, rfl,
      allowed, notNative, notReserved⟩
  · rintro ⟨front, spelled, rfl, allowed, notNative, notReserved⟩
    have size : ¬text.utf8ByteSize ≠ namespaceHexLen :=
      not_not.mpr spelled.size
    rw [if_neg spelled.noMarker, if_neg size, if_neg spelled.lowercase,
      show Hex.decodeToSlice namespaceLen text = .ok front from
        spelled.decoded]
    simp only [take_zeroPadded]
    unfold ReservedShape at notReserved
    rw [if_neg notNative, if_neg allowed, if_neg notReserved]

/-- The provider accepts what the daemon accepts, short of the native
subnetwork. -/
theorem parseNamespace_eq_ok_iff (zeroTail : crate.ZeroTail) :
    parseNamespace crate text = .ok subnetworkId ↔
      Kaswallet.parseSubnetworkIdArg crate text = .ok subnetworkId ∧
        ¬subnetworkId.isNative = true := by
  rw [parseNamespace_eq_ok, Kaswallet.parseSubnetworkIdArg_eq_ok]
  constructor
  · rintro ⟨front, spelled, rfl, allowed, notNative, notReserved⟩
    exact ⟨⟨front, spelled, (zeroTail front).symm, allowed,
      .inr notReserved⟩, notNative⟩
  · rintro ⟨⟨front, spelled, rfl, allowed, lane⟩, notNative⟩
    exact ⟨front, spelled, zeroTail front, allowed, notNative,
      lane.resolve_left notNative⟩

theorem text_eq_of_native (zeroTail : crate.ZeroTail)
    (parsed : Kaswallet.parseSubnetworkIdArg crate text = .ok subnetworkId)
    (native : subnetworkId.isNative = true) : text = "00000000" := by
  obtain ⟨front, spelled, rfl, -, -⟩ :=
    Kaswallet.parseSubnetworkIdArg_eq_ok.mp parsed
  have bytes := congrArg FixedBytes.bytes (beq_iff_eq.mp native)
  rw [zeroTail front] at bytes
  have fronts := congrArg (List.take 4) bytes
  have zeros : front.bytes = List.replicate 4 0 := by
    rwa [take_zeroPadded] at fronts
  have zeroFront : front = ⟨List.replicate 4 0, List.length_replicate⟩ :=
    FixedBytes.ext zeros
  exact Hex.text_eq_of_decodeToSlice (zeroFront ▸ spelled.decoded) (by decide)

/-- Both programs find the same lane in a text, or neither finds one, except
that the daemon takes eight zeros for the native subnetwork. -/
theorem laneParsers_agree (zeroTail : crate.ZeroTail) (text : String) :
    (∃ lane, parseNamespace crate text = .ok lane ∧
        Kaswallet.parseSubnetworkIdArg crate text = .ok lane) ∨
      (∃ reason daemonReason, parseNamespace crate text = .error reason ∧
        Kaswallet.parseSubnetworkIdArg crate text = .error daemonReason) ∨
      (text = "00000000" ∧
        Kaswallet.parseSubnetworkIdArg crate text = .ok SubnetworkId.native ∧
        ∃ reason, parseNamespace crate text = .error reason) := by
  cases provider : parseNamespace crate text with
  | ok lane =>
      have daemon := (parseNamespace_eq_ok_iff zeroTail).mp provider
      exact .inl ⟨lane, rfl, daemon.1⟩
  | error reason =>
      refine .inr ?_
      cases daemon : Kaswallet.parseSubnetworkIdArg crate text with
      | error daemonReason => exact .inl ⟨reason, daemonReason, rfl, rfl⟩
      | ok lane =>
          by_cases native : lane.isNative = true
          · have text_eq := text_eq_of_native zeroTail daemon native
            obtain rfl : lane = SubnetworkId.native := beq_iff_eq.mp native
            exact .inr ⟨text_eq, rfl, reason, rfl⟩
          · have accepted :=
              (parseNamespace_eq_ok_iff zeroTail).mpr ⟨daemon, native⟩
            rw [provider] at accepted
            cases accepted

end Agreement

section Samples

/-- The built-in subnetworks are those of the coinbase and of the registry. -/
def sampleSubnetworks : SubnetworkCrate where
  fromNamespace := zeroPadded
  isBuiltin subnetworkId :=
    subnetworkId.bytes == 1 :: List.replicate 19 0 ||
      subnetworkId.bytes == 2 :: List.replicate 19 0
  display subnetworkId := Hex.encode subnetworkId.bytes
  debug text := text.quote

theorem laneParsers_agree_sample :
    (∃ lane, parseNamespace sampleSubnetworks "97b10000" = .ok lane ∧
        Kaswallet.parseSubnetworkIdArg sampleSubnetworks "97b10000" =
          .ok lane) ∨
      (∃ reason daemonReason,
        parseNamespace sampleSubnetworks "97b10000" = .error reason ∧
        Kaswallet.parseSubnetworkIdArg sampleSubnetworks "97b10000" =
          .error daemonReason) ∨
      ("97b10000" = "00000000" ∧
        Kaswallet.parseSubnetworkIdArg sampleSubnetworks "97b10000" =
          .ok SubnetworkId.native ∧
        ∃ reason,
          parseNamespace sampleSubnetworks "97b10000" = .error reason) :=
  laneParsers_agree (fun _ => rfl) "97b10000"

end Samples

end RpcProvider

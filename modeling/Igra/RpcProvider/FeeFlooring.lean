import Igra.JsonPaths
import Igra.RpcProvider.GasPrice
import Mathlib.Data.Nat.Digits.Defs
import Mathlib.Tactic.IntervalCases

/-!
# Fee flooring

The provider raises the fees in the answers of the execution layer to its
configured floor, in place.  Flooring is felt at the fee quantities only, and
once is as good as twice.
-/

open Rust

namespace RpcProvider

/-- The text forms of `U256`: `U256::from_str_radix` for hexadecimal digits,
and the format `:x`. -/
structure U256Text where
  fromStrRadix16 : String → Option U256
  lowerHex : U256 → String

namespace U256Text

/-- What the provider relies on in the text forms. -/
structure Lawful (text : U256Text) : Prop where
  parses : ∀ value, text.fromStrRadix16 (text.lowerHex value) = some value
  nonempty : ∀ value, (text.lowerHex value).toList ≠ []
  digits : ∀ value, ∀ character ∈ (text.lowerHex value).toList,
    character ∈ "0123456789abcdef".toList

end U256Text

section Quantities

variable (text : U256Text)

/-- `trim_start_matches` with a pattern of two characters. -/
def trimStartMatches (first second : Char) : List Char → List Char
  | one :: two :: rest =>
      if one = first ∧ two = second then trimStartMatches first second rest
      else one :: two :: rest
  | short => short

/-- The digits of a quantity. -/
def trimmedQuantity (quantity : String) : List Char :=
  trimStartMatches '0' 'X' (trimStartMatches '0' 'x' quantity.toList)

/-- `floor_hex_quantity_in_place`: the new value, and whether it was raised. -/
def floorHexQuantityInPlace (value : Json) (minFloorWei : U256) :
    Json × Bool :=
  match value with
  | .string currentHex =>
      let trimmed := trimmedQuantity currentHex
      if trimmed = [] then (value, false)
      else
        match text.fromStrRadix16 (String.ofList trimmed) with
        | none => (value, false)
        | some priceWei =>
            if priceWei < minFloorWei then
              (.string ("0x" ++ text.lowerHex minFloorWei), true)
            else (value, false)
  | _ => (value, false)

/-- Without a floor the answer stays as it is. -/
def withFloor (minFloorWei : BaseFeeResult) (response : Json)
    (rewrite : U256 → Json) : Json :=
  match minFloorWei with
  | .ok minFloorWei => rewrite minFloorWei
  | _ => response

/-- `floor_gas_price_value`. -/
def floorGasPriceValue (config : GasConfig) (response : Json) : Json :=
  withFloor config.minFloorWei response fun minFloorWei =>
    response.modifyField "result" fun result =>
      (floorHexQuantityInPlace text result minFloorWei).1

/-- `floor_fee_history_value`. -/
def floorFeeHistoryValue (config : GasConfig) (response : Json) : Json :=
  withFloor config.minFloorWei response fun minFloorWei =>
    response.modifyField "result" fun result =>
      result.modifyField "reward" fun rewards =>
        rewards.modifyItems fun perBlock =>
          perBlock.modifyItems fun entry =>
            (floorHexQuantityInPlace text entry minFloorWei).1

/-- The amount that a value stands for, if it is a parseable quantity. -/
def hexQuantity? (value : Json) : Option U256 :=
  match value with
  | .string quantity =>
      if trimmedQuantity quantity = [] then none
      else text.fromStrRadix16 (String.ofList (trimmedQuantity quantity))
  | _ => none

def quantityAt (path : Json.Path) (response : Json) : Option U256 :=
  (response.at? path).bind (hexQuantity? text)

end Quantities

/-- A rewriting that raises the quantities at the given places to the floor,
and does nothing else. -/
structure FloorsOnlyAt (text : U256Text) (floor : Nat)
    (places : Json.Path → Prop) (rewrite : Json → Json) : Prop where
  idempotent : ∀ response, rewrite (rewrite response) = rewrite response
  raised : ∀ path response, places path →
    ∀ price, quantityAt text path response = some price →
      ∃ floored, quantityAt text path (rewrite response) = some floored ∧
        floored.toNat = max price.toNat floor
  unparsable : ∀ path response, places path →
    quantityAt text path response = none →
      (rewrite response).at? path = response.at? path
  others : ∀ path response, ¬places path →
    Json.nodeAt path (rewrite response) = Json.nodeAt path response

section Flooring

variable {text : U256Text} {config : GasConfig} {minFloorWei : U256}

private theorem trimStartMatches_of_not_mem (first : Char) {second : Char}
    {characters : List Char} (absent : second ∉ characters) :
    trimStartMatches first second characters = characters := by
  match characters with
  | [] => rfl
  | [_] => rfl
  | one :: two :: rest =>
      have different : ¬(one = first ∧ two = second) := by
        rintro ⟨-, rfl⟩
        exact absent (by simp)
      rw [trimStartMatches, if_neg different]

theorem trimmedQuantity_lowerHex (lawful : text.Lawful) (value : U256) :
    trimmedQuantity ("0x" ++ text.lowerHex value) =
      (text.lowerHex value).toList := by
  have noLower : 'x' ∉ (text.lowerHex value).toList := fun member =>
    absurd (lawful.digits value _ member) (by decide)
  have noUpper : 'X' ∉ (text.lowerHex value).toList := fun member =>
    absurd (lawful.digits value _ member) (by decide)
  have characters : ("0x" ++ text.lowerHex value).toList =
      '0' :: 'x' :: (text.lowerHex value).toList := by
    simp [String.toList_append]
  rw [trimmedQuantity, characters, trimStartMatches, if_pos ⟨rfl, rfl⟩,
    trimStartMatches_of_not_mem '0' noLower,
    trimStartMatches_of_not_mem '0' noUpper]

theorem hexQuantity?_lowerHex (lawful : text.Lawful) (value : U256) :
    hexQuantity? text (.string ("0x" ++ text.lowerHex value)) =
      some value := by
  rw [hexQuantity?, trimmedQuantity_lowerHex lawful,
    if_neg (lawful.nonempty value), String.ofList_toList, lawful.parses]

theorem floorHexQuantityInPlace_of_unparsable {value : Json}
    (unparsable : hexQuantity? text value = none) :
    floorHexQuantityInPlace text value minFloorWei = (value, false) := by
  cases value with
  | string quantity =>
      by_cases blank : trimmedQuantity quantity = []
      · simp [floorHexQuantityInPlace, blank]
      · rw [hexQuantity?, if_neg blank] at unparsable
        simp [floorHexQuantityInPlace, blank, unparsable]
  | null | bool | number | array | object => rfl

theorem floorHexQuantityInPlace_of_parsable {value : Json} {price : U256}
    (parsable : hexQuantity? text value = some price) :
    floorHexQuantityInPlace text value minFloorWei =
      if price < minFloorWei then
        (.string ("0x" ++ text.lowerHex minFloorWei), true)
      else (value, false) := by
  cases value with
  | string quantity =>
      by_cases blank : trimmedQuantity quantity = []
      · simp [hexQuantity?, blank] at parsable
      · rw [hexQuantity?, if_neg blank] at parsable
        simp [floorHexQuantityInPlace, blank, parsable]
  | null | bool | number | array | object => cases parsable

theorem hexQuantity?_floorHexQuantityInPlace (lawful : text.Lawful)
    {value : Json} {price : U256}
    (parsable : hexQuantity? text value = some price) :
    ∃ floored,
      hexQuantity? text (floorHexQuantityInPlace text value minFloorWei).1 =
        some floored ∧
      floored.toNat = max price.toNat minFloorWei.toNat := by
  rw [floorHexQuantityInPlace_of_parsable parsable]
  by_cases below : price < minFloorWei
  · refine ⟨minFloorWei, ?_, ?_⟩
    · rw [if_pos below, hexQuantity?_lowerHex lawful]
    · have below := BitVec.lt_def.mp below
      omega
  · refine ⟨price, ?_, ?_⟩
    · rw [if_neg below, parsable]
    · have above := BitVec.le_def.mp (BitVec.not_lt.mp below)
      omega

theorem floorHexQuantityInPlace_idempotent (lawful : text.Lawful)
    (value : Json) :
    (floorHexQuantityInPlace text
        (floorHexQuantityInPlace text value minFloorWei).1 minFloorWei).1 =
      (floorHexQuantityInPlace text value minFloorWei).1 := by
  cases parsed : hexQuantity? text value with
  | none => simp only [floorHexQuantityInPlace_of_unparsable parsed]
  | some price =>
      by_cases below : price < minFloorWei
      · rw [floorHexQuantityInPlace_of_parsable parsed, if_pos below,
          floorHexQuantityInPlace_of_parsable
            (hexQuantity?_lowerHex lawful minFloorWei),
          if_neg (BitVec.lt_irrefl minFloorWei)]
      · have kept : floorHexQuantityInPlace text value minFloorWei =
            (value, false) := by
          rw [floorHexQuantityInPlace_of_parsable parsed, if_neg below]
        rw [kept, kept]

theorem nodeAt_floorHexQuantityInPlace (step : Json.PathStep)
    (rest : Json.Path) (value : Json) :
    Json.nodeAt (step :: rest)
        (floorHexQuantityInPlace text value minFloorWei).1 =
      Json.nodeAt (step :: rest) value := by
  cases parsed : hexQuantity? text value with
  | none => rw [floorHexQuantityInPlace_of_unparsable parsed]
  | some price =>
      rw [floorHexQuantityInPlace_of_parsable parsed]
      by_cases below : price < minFloorWei
      · rw [if_pos below]
        cases value with
        | string quantity => cases step <;> rfl
        | null | bool | number | array | object => cases parsed
      · rw [if_neg below]

/-- Changes by `floor_hex_quantity_in_place` alone floor the quantities. -/
theorem floorsOnlyAt_of_changesOnlyAt (lawful : text.Lawful)
    {places : Json.Path → Prop} {rewrite : Json → Json}
    (only : Json.ChangesOnlyAt places
      (fun value => (floorHexQuantityInPlace text value minFloorWei).1)
      rewrite)
    (idempotent : ∀ response, rewrite (rewrite response) = rewrite response) :
    FloorsOnlyAt text minFloorWei.toNat places rewrite where
  idempotent := idempotent
  raised := by
    intro path response place price parsed
    unfold quantityAt at parsed ⊢
    rw [only.inside path response place]
    cases found : response.at? path with
    | none => simp [found] at parsed
    | some value =>
        rw [found] at parsed
        exact hexQuantity?_floorHexQuantityInPlace lawful parsed
  unparsable := by
    intro path response place unparsed
    unfold quantityAt at unparsed
    rw [only.inside path response place]
    cases found : response.at? path with
    | none => rfl
    | some value =>
        rw [found] at unparsed
        rw [Option.map_some, floorHexQuantityInPlace_of_unparsable unparsed]
  others := only.outside

theorem floorGasPriceValue_eq
    (computed : config.minFloorWei = .ok minFloorWei) :
    floorGasPriceValue text config = Json.modifyField "result" fun result =>
      (floorHexQuantityInPlace text result minFloorWei).1 := by
  funext response
  rw [floorGasPriceValue, computed, withFloor]

theorem floorFeeHistoryValue_eq
    (computed : config.minFloorWei = .ok minFloorWei) :
    floorFeeHistoryValue text config =
      Json.modifyField "result" (Json.modifyField "reward"
        (Json.modifyItems (Json.modifyItems fun entry =>
          (floorHexQuantityInPlace text entry minFloorWei).1))) := by
  funext response
  rw [floorFeeHistoryValue, computed, withFloor]

/-- Where an answer to `eth_gasPrice` or `eth_maxPriorityFeePerGas` holds a
quantity. -/
def GasPricePlace (path : Json.Path) : Prop := path = [.field "result"]

/-- Where an answer to `eth_feeHistory` holds a reward. -/
def RewardPlace (path : Json.Path) : Prop :=
  ∃ block percentile, path =
    [.field "result", .field "reward", .item block, .item percentile]

/-- Both functions raise what the answer quotes to the configured floor, once
and for all, and leave everything else as it is. -/
theorem answers_floored (lawful : text.Lawful) (config : GasConfig) :
    FloorsOnlyAt text config.floor GasPricePlace
        (floorGasPriceValue text config) ∧
      FloorsOnlyAt text config.floor RewardPlace
        (floorFeeHistoryValue text config) := by
  obtain ⟨minFloorWei, computed, value⟩ := exists_minFloorWei config
  have entries := Json.ChangesOnlyAt.root
    (@nodeAt_floorHexQuantityInPlace text minFloorWei)
  have entriesIdempotent :=
    @floorHexQuantityInPlace_idempotent text minFloorWei lawful
  rw [floorGasPriceValue_eq computed, floorFeeHistoryValue_eq computed,
    ← value]
  constructor
  · apply floorsOnlyAt_of_changesOnlyAt lawful
    · have only := entries.modifyField "result"
      simp only [↓existsAndEq, and_true] at only
      exact only
    · exact Json.modifyField_modifyField entriesIdempotent
  · apply floorsOnlyAt_of_changesOnlyAt lawful
    · have only := ((entries.modifyItems.modifyItems).modifyField
        "reward").modifyField "result"
      simp only [↓existsAndEq, and_self, and_true] at only
      exact only
    · exact Json.modifyField_modifyField (Json.modifyField_modifyField
        (Json.modifyItems_modifyItems (Json.modifyItems_modifyItems
          entriesIdempotent)))

end Flooring

section Samples

def hexDigitValue? (character : Char) : Option Nat :=
  let code := character.toNat
  if 48 ≤ code ∧ code ≤ 57 then some (code - 48)
  else if 65 ≤ code ∧ code ≤ 70 then some (code - 55)
  else if 97 ≤ code ∧ code ≤ 102 then some (code - 87)
  else none

/-- The digits of a number, the first one first. -/
def hexDigits (value : Nat) : List Nat :=
  if value = 0 then [0] else (Nat.digits 16 value).reverse

/-- Digits of either case, between which underscores are skipped. -/
def sampleText : U256Text where
  fromStrRadix16 text :=
    match (text.toList.filter (· ≠ '_')).mapM hexDigitValue? with
    | none => none
    | some digits =>
        if Nat.ofDigits 16 digits.reverse < 2 ^ 256 then
          some (BitVec.ofNat 256 (Nat.ofDigits 16 digits.reverse))
        else none
  lowerHex value := String.ofList ((hexDigits value.toNat).map Json.hexDigit)

private theorem hexDigits_lt
    (value : Nat) : ∀ digit ∈ hexDigits value, digit < 16 := by
  intro digit member
  unfold hexDigits at member
  split at member
  · simp only [List.mem_singleton] at member
    omega
  · exact Nat.digits_lt_base (by omega) (List.mem_reverse.mp member)

private theorem ofDigits_hexDigits (value : Nat) :
    Nat.ofDigits 16 (hexDigits value).reverse = value := by
  unfold hexDigits
  split
  · rename_i zero
    simp [zero]
  · rw [List.reverse_reverse, Nat.ofDigits_digits]

private theorem hexDigit_mem {digit : Nat} (bound : digit < 16) :
    Json.hexDigit digit ∈ "0123456789abcdef".toList := by
  interval_cases digit <;> decide

theorem mapM_hexDigit {digits : List Nat}
    (bound : ∀ digit ∈ digits, digit < 16) :
    ((digits.map Json.hexDigit).filter (· ≠ '_')).mapM hexDigitValue? =
      some digits := by
  induction digits with
  | nil => rfl
  | cons digit rest ih =>
      have known := bound digit (by simp)
      have character : Json.hexDigit digit ≠ '_' ∧
          hexDigitValue? (Json.hexDigit digit) = some digit := by
        interval_cases digit <;> decide
      have others := ih fun other member => bound other (by simp [member])
      rw [List.map_cons, List.filter_cons_of_pos (by simp [character.1]),
        List.mapM_cons, others, character.2]
      rfl

theorem sampleText_lawful : sampleText.Lawful where
  parses := by
    intro value
    simp only [sampleText, String.toList_ofList,
      mapM_hexDigit (hexDigits_lt value.toNat), ofDigits_hexDigits,
      if_pos value.isLt, BitVec.ofNat_toNat, BitVec.setWidth_eq]
  nonempty := by
    intro value
    simp only [sampleText, String.toList_ofList, ne_eq, List.map_eq_nil_iff]
    unfold hexDigits
    split
    · simp
    · rename_i positive
      simp [Nat.digits_eq_nil_iff_eq_zero, positive]
  digits := by
    intro value character member
    simp only [sampleText, String.toList_ofList, List.mem_map] at member
    obtain ⟨digit, inDigits, rfl⟩ := member
    exact hexDigit_mem (hexDigits_lt _ digit inDigits)

theorem answers_floored_hundredGwei :
    FloorsOnlyAt sampleText 100000000000 GasPricePlace
        (floorGasPriceValue sampleText ⟨100⟩) ∧
      FloorsOnlyAt sampleText 100000000000 RewardPlace
        (floorFeeHistoryValue sampleText ⟨100⟩) :=
  answers_floored sampleText_lawful ⟨100⟩

end Samples

end RpcProvider

import Igra.Kaswallet.Signing

/-!
# Signing with the key of every input

Signing looks the key of an input up by the script of the entry it spends.
Where the derivation paths of a transaction yield a key for every entry, every
input is signed, by any key that its script pays to, and the result passes the
verification.
-/

open Kaspa Rust

namespace Kaswallet

/-- The script that pays to an x-only public key. -/
def payToPublicKey (publicKey : FixedBytes 32) : List UInt8 :=
  0x20 :: publicKey.bytes ++ [0xac]

theorem payToPublicKey_injective : Function.Injective payToPublicKey := by
  intro left right same
  ext1
  simpa [payToPublicKey] using same

/-- The signature script that unlocks such a script. -/
def signatureScriptOf (signature : FixedBytes 64) : List UInt8 :=
  65 :: signature.bytes ++ [sigHashAll]

def signatureScriptAt (signable : SignableTransaction)
    (index : Nat) : Option (List UInt8) :=
  signable.tx.inputs[index]?.map TransactionInput.signatureScript

namespace Signatures

variable (signatures : Signatures)

/-- The script of the entry that the input spends pays to the key. -/
def PaysAt (signable : SignableTransaction) (index : Nat)
    (privateKey : PrivateKey) : Prop :=
  ∃ entry publicKey,
    signable.entries[index]? = some (some entry) ∧
      signatures.xOnlyPublicKey privateKey = some publicKey ∧
      entry.scriptPublicKey.script = payToPublicKey publicKey

/-- The input carries the signature of the key over its own hash. -/
def SignedAt (unsigned signed : SignableTransaction) (index : Nat)
    (privateKey : PrivateKey) : Prop :=
  signatureScriptAt signed index =
    some (signatureScriptOf
      (signatures.signSchnorr privateKey unsigned index))

/-- What Schnorr signatures of inputs promise. -/
structure Correct : Prop where
  /-- the hash that is signed covers no signature script -/
  hashIgnoresSignatures : ∀ {before after : SignableTransaction},
    SameUnsigned before after → ∀ privateKey index,
      signatures.signSchnorr privateKey after index =
        signatures.signSchnorr privateKey before index
  /-- a key and its negation, whose public keys have one x coordinate, sign
  alike -/
  signsForPublicKey : ∀ {first second : PrivateKey}
    {publicKey : FixedBytes 32},
    signatures.xOnlyPublicKey first = some publicKey →
    signatures.xOnlyPublicKey second = some publicKey →
      signatures.signSchnorr first = signatures.signSchnorr second
  verifies : ∀ signable : SignableTransaction,
    (∀ index < signable.tx.inputs.length, ∃ privateKey,
      signatures.PaysAt signable index privateKey ∧
        signatures.SignedAt signable signable index privateKey) →
      signatures.verify signable = .ok ()

variable {signatures}

theorem Correct.signSchnorr_eq (correct : signatures.Correct)
    {signable : SignableTransaction} {index : Nat}
    {first second : PrivateKey}
    (paysFirst : signatures.PaysAt signable index first)
    (paysSecond : signatures.PaysAt signable index second) :
    signatures.signSchnorr first = signatures.signSchnorr second := by
  obtain ⟨entry, publicKey, found, ofFirst, script⟩ := paysFirst
  obtain ⟨other, otherKey, otherFound, ofSecond, otherScript⟩ := paysSecond
  obtain rfl : entry = other := by
    simpa [found] using otherFound
  obtain rfl : publicKey = otherKey :=
    payToPublicKey_injective (script.symm.trans otherScript)
  exact correct.signsForPublicKey ofFirst ofSecond

end Signatures

namespace SameUnsigned

variable {before after : SignableTransaction}

theorem entries (same : SameUnsigned before after) :
    after.entries = before.entries := by
  rw [same.rest]

theorem length_inputs (same : SameUnsigned before after) :
    after.tx.inputs.length = before.tx.inputs.length := by
  have lengths := congrArg (fun tx => tx.inputs.length) same.unsigned
  simpa [Transaction.withoutSignatures] using lengths

end SameUnsigned

section Loop

variable {signatures : Signatures} {signable : SignableTransaction}
  {keys : HashMap (List UInt8) (List UInt8 × PrivateKey)}

theorem signatureScriptAt_withSignature (current : SignableTransaction)
    (index other : Nat) (signature : FixedBytes 64) :
    signatureScriptAt (withSignature current index signature) other =
      if index = other ∧ other < current.tx.inputs.length then
        some (signatureScriptOf signature)
      else signatureScriptAt current other := by
  rw [signatureScriptAt, withSignature, List.getElem?_modify]
  by_cases same : index = other
  · by_cases inside : other < current.tx.inputs.length
    · simp [same, inside, signatureScriptOf]
    · simp [same, inside, signatureScriptAt]
  · cases found : current.tx.inputs[other]? <;>
      simp [same, found, signatureScriptAt]

/-- The inputs below `count` carry the signature of any key that they pay
to, and no further signature is missing. -/
structure SigningProgress (signatures : Signatures)
    (signable : SignableTransaction) (count : Nat)
    (current : SignableTransaction × Bool) : Prop where
  same : SameUnsigned signable current.1
  complete : current.2 = false
  signed : ∀ index < count, ∀ privateKey,
    signatures.PaysAt signable index privateKey →
      signatures.SignedAt signable current.1 index privateKey

/-- The map has a key that the input pays to under the script of its
entry. -/
def KeyFor (signatures : Signatures)
    (keys : HashMap (List UInt8) (List UInt8 × PrivateKey))
    (signable : SignableTransaction) (index : Nat) : Prop :=
  ∃ entry script privateKey,
    signable.entries[index]? = some (some entry) ∧
      keys.lookup entry.scriptPublicKey.script = some (script, privateKey) ∧
      signatures.PaysAt signable index privateKey

theorem SigningProgress.step (correct : signatures.Correct)
    {index : Nat} {current : SignableTransaction × Bool}
    (inside : index < signable.tx.inputs.length)
    (keyed : KeyFor signatures keys signable index)
    (progress : SigningProgress signatures signable index current) :
    ∃ next, signInput signatures keys current index = .ok next ∧
      SigningProgress signatures signable (index + 1) next := by
  obtain ⟨entry, script, privateKey, found, looked, pays⟩ := keyed
  have slot : current.1.entries[index]? = some (some entry) := by
    rw [progress.same.entries, found]
  have read : (Outcome.index current.1.entries index :
      WalletResult (Option UtxoEntry)) = .ok (some entry) :=
    Outcome.index_eq_ok.mpr slot
  have stepped : signInput signatures keys current index =
      .ok (withSignature current.1 index
        (signatures.signSchnorr privateKey current.1 index), current.2) := by
    simp [signInput, read, looked]
  refine ⟨_, stepped, progress.same.withSignature _ _, progress.complete, ?_⟩
  intro other below otherKey otherPays
  rw [Signatures.SignedAt, signatureScriptAt_withSignature,
    progress.same.length_inputs]
  by_cases here : index = other
  · subst here
    rw [if_pos ⟨rfl, inside⟩,
      correct.hashIgnoresSignatures progress.same,
      correct.signSchnorr_eq pays otherPays]
  · rw [if_neg (fun both => here both.1)]
    exact progress.signed other (by omega) otherKey otherPays

theorem SigningProgress.run (correct : signatures.Correct) {count : Nat}
    (bound : count ≤ signable.tx.inputs.length)
    (keyed : ∀ index < count, KeyFor signatures keys signable index) :
    ∃ last, (List.range count).foldlM (signInput signatures keys)
        (signable, false) = .ok last ∧
      SigningProgress signatures signable count last := by
  apply Outcome.exists_foldlM_range
  · exact ⟨SameUnsigned.refl signable, rfl, by simp⟩
  · intro index below current progress
    exact progress.step correct (by omega) (keyed index below)

end Loop

section Keys

variable {signatures : Signatures} {signable : SignableTransaction}
  {privateKeys : List PrivateKey}

/-- The map of `sign_with_multiple` holds, under the script of each key, a key
with the same public key. -/
theorem exists_keys
    (usable : ∀ privateKey ∈ privateKeys, ∃ publicKey,
      signatures.xOnlyPublicKey privateKey = some publicKey) :
    ∃ keys, Outcome.collect (schnorrKey signatures) privateKeys = .ok keys ∧
      ∀ privateKey ∈ privateKeys, ∀ publicKey,
        signatures.xOnlyPublicKey privateKey = some publicKey →
          ∃ script other,
            (HashMap.insertAll Prod.fst ∅ keys).lookup
                (payToPublicKey publicKey) = some (script, other) ∧
              signatures.xOnlyPublicKey other = some publicKey := by
  have succeeds : ∀ privateKey ∈ privateKeys, ∃ key,
      schnorrKey signatures privateKey = .ok key := by
    intro privateKey member
    obtain ⟨publicKey, derived⟩ := usable privateKey member
    exact ⟨_, by rw [schnorrKey, derived]⟩
  obtain ⟨keys, collected⟩ := Outcome.exists_collect succeeds
  have made : ∀ key ∈ keys, ∃ publicKey,
      key.1 = payToPublicKey publicKey ∧
        signatures.xOnlyPublicKey key.2 = some publicKey := by
    intro key member
    obtain ⟨privateKey, inKeys, read⟩ :=
      Outcome.exists_of_mem_collect collected member
    obtain ⟨publicKey, derived⟩ := usable privateKey inKeys
    rw [schnorrKey, derived] at read
    cases read
    exact ⟨publicKey, rfl, derived⟩
  refine ⟨keys, collected, ?_⟩
  intro privateKey member publicKey derived
  have listed : payToPublicKey publicKey ∈ keys.map Prod.fst := by
    obtain ⟨key, inKeys, read⟩ := Outcome.exists_mem_collect collected member
    rw [schnorrKey, derived] at read
    cases read
    exact List.mem_map.mpr ⟨_, inKeys, rfl⟩
  have present : payToPublicKey publicKey ∈
      HashMap.insertAll Prod.fst ∅ keys :=
    HashMap.mem_insertAll.mpr (.inl listed)
  obtain ⟨⟨script, other⟩, looked⟩ :=
    Option.isSome_iff_exists.mp (AList.lookup_isSome.mpr present)
  rcases HashMap.lookup_insertAll looked with ⟨inKeys, same⟩ | ⟨absent, -⟩
  · obtain ⟨otherPublic, ofScript, ofOther⟩ := made _ inKeys
    obtain rfl : otherPublic = publicKey :=
      payToPublicKey_injective (ofScript.symm.trans same)
    exact ⟨script, other, looked, ofOther⟩
  · exact absurd listed absent

theorem exists_signWithMultiple (correct : signatures.Correct)
    (usable : ∀ privateKey ∈ privateKeys, ∃ publicKey,
      signatures.xOnlyPublicKey privateKey = some publicKey)
    (covered : ∀ index < signable.tx.inputs.length,
      ∃ privateKey ∈ privateKeys,
        signatures.PaysAt signable index privateKey) :
    ∃ signed,
      signWithMultiple signatures signable privateKeys =
          .ok (.fully signed) ∧
        SameUnsigned signable signed ∧
        ∀ index < signable.tx.inputs.length, ∀ privateKey,
          signatures.PaysAt signable index privateKey →
            signatures.SignedAt signable signed index privateKey := by
  obtain ⟨keys, collected, looked⟩ := exists_keys usable
  have keyed : ∀ index < signable.tx.inputs.length,
      KeyFor signatures (HashMap.insertAll Prod.fst ∅ keys) signable
        index := by
    intro index inside
    obtain ⟨privateKey, member, pays⟩ := covered index inside
    obtain ⟨entry, publicKey, found, derived, script⟩ := pays
    obtain ⟨stored, other, present, ofOther⟩ :=
      looked privateKey member publicKey derived
    refine ⟨entry, stored, other, found, ?_, ?_⟩
    · rw [script, present]
    · exact ⟨entry, publicKey, found, ofOther, script⟩
  obtain ⟨⟨signed, missing⟩, folded, progress⟩ :=
    SigningProgress.run correct le_rfl keyed
  obtain rfl : missing = false := progress.complete
  refine ⟨signed, ?_, progress.same, progress.signed⟩
  simp [signWithMultiple, collected, folded]

end Keys

section Transactions

variable {signatures : Signatures} {master : ExtendedPrivateKey}
  {unsigned : WalletSignableTransaction}

/-- The key that `sign_transaction` derives at a path. -/
def childKey (signatures : Signatures) (master : ExtendedPrivateKey)
    (path : DerivationPath) : WalletResult PrivateKey :=
  signatures.secretBytes <$>
    mapError (fun reason => .crypto (.bip32Derivation reason))
      (signatures.derivePath master path)

/-- Every input is signed by the keys that it pays to, and only signature
scripts changed. -/
structure FullySigned (signatures : Signatures)
    (unsigned signed : WalletSignableTransaction) : Prop where
  complete : ∃ transaction, signed.transaction = .fully transaction
  signedFrom : SignedFrom unsigned signed
  signedAt : ∀ index < unsigned.tx.inputs.length, ∀ privateKey,
    signatures.PaysAt unsigned.transaction.inner index privateKey →
      signatures.SignedAt unsigned.transaction.inner
        signed.transaction.inner index privateKey

private theorem privateKeysFor_singleton
    (derivationPaths : List DerivationPath) :
    privateKeysFor signatures [master] derivationPaths =
      Outcome.collect (childKey signatures master) derivationPaths := by
  simp only [privateKeysFor, List.map_cons, List.map_nil]
  induction derivationPaths with
  | nil => rfl
  | cons path paths ih =>
      rw [List.flatMap_cons, List.singleton_append, Outcome.collect,
        Outcome.collect, ih]
      rfl

theorem Signatures.PaysAt.of_sameUnsigned {before after : SignableTransaction}
    (same : SameUnsigned before after) {index : Nat} {privateKey : PrivateKey}
    (pays : signatures.PaysAt before index privateKey) :
    signatures.PaysAt after index privateKey := by
  rw [Signatures.PaysAt, same.entries]
  exact pays

/-- A transaction is fully signed with one master key if it derives a key at
each path and, among them, one for each input. -/
theorem exists_signTransaction (correct : signatures.Correct)
    (derives : ∀ path ∈ unsigned.derivationPaths, ∃ privateKey publicKey,
      childKey signatures master path = .ok privateKey ∧
        signatures.xOnlyPublicKey privateKey = some publicKey)
    (covered : ∀ index < unsigned.tx.inputs.length,
      ∃ path ∈ unsigned.derivationPaths, ∃ privateKey,
        childKey signatures master path = .ok privateKey ∧
          signatures.PaysAt unsigned.transaction.inner index privateKey) :
    ∃ signed,
      signTransaction signatures [master] unsigned = .ok signed ∧
        FullySigned signatures unsigned signed := by
  have succeeds : ∀ path ∈ unsigned.derivationPaths, ∃ privateKey,
      childKey signatures master path = .ok privateKey := by
    intro path member
    obtain ⟨privateKey, _, derived, -⟩ := derives path member
    exact ⟨privateKey, derived⟩
  obtain ⟨privateKeys, collected⟩ := Outcome.exists_collect succeeds
  have usable : ∀ privateKey ∈ privateKeys, ∃ publicKey,
      signatures.xOnlyPublicKey privateKey = some publicKey := by
    intro privateKey member
    obtain ⟨path, inPaths, derived⟩ :=
      Outcome.exists_of_mem_collect collected member
    obtain ⟨other, publicKey, same, isPublic⟩ := derives path inPaths
    obtain rfl : privateKey = other := by
      simpa [derived] using same
    exact ⟨publicKey, isPublic⟩
  have keyed : ∀ index < unsigned.transaction.inner.tx.inputs.length,
      ∃ privateKey ∈ privateKeys,
        signatures.PaysAt unsigned.transaction.inner index privateKey := by
    intro index inside
    obtain ⟨path, inPaths, privateKey, derived, pays⟩ := covered index inside
    obtain ⟨other, inKeys, same⟩ :=
      Outcome.exists_mem_collect collected inPaths
    obtain rfl : privateKey = other := by
      simpa [derived] using same
    exact ⟨privateKey, inKeys, pays⟩
  obtain ⟨signed, made, same, signedAt⟩ :=
    exists_signWithMultiple correct usable keyed
  have verified : signatures.verify signed = .ok () := by
    apply correct.verifies
    intro index inside
    rw [same.length_inputs] at inside
    obtain ⟨privateKey, -, pays⟩ := keyed index inside
    refine ⟨privateKey, pays.of_sameUnsigned same, ?_⟩
    rw [Signatures.SignedAt, correct.hashIgnoresSignatures same]
    exact signedAt index inside privateKey pays
  refine ⟨{ unsigned with transaction := .fully signed }, ?_, ⟨signed, rfl⟩,
    ⟨same, rfl⟩, signedAt⟩
  simp [signTransaction, privateKeysFor_singleton, collected, made,
    sanityCheckVerify, verified, mapError]

end Transactions

end Kaswallet

import Igra.Kaswallet.Compounding
import Igra.Weights

/-!
# Relay masses

What the wallet relies on in the mass functions of the kaspa crates: they are
affine in the inputs, the outputs and the payload of the transactions that the
generator builds, and the relay mass is the larger of two scaled masses.
-/

open Kaspa Rust

namespace Kaswallet

namespace TransactionGenerator

section Laws

variable (upstream : Upstream) (generator : TransactionGenerator)

omit upstream generator in
private theorem length_mockPayload :
    (List.replicate 33 (0 : UInt8)).length =
      AddressVersion.pubKeyECDSA.publicKeyLen := rfl

/-- The recipient that every estimate assumes. -/
def mockAddress : Address :=
  ⟨generator.addressPrefix, .pubKeyECDSA, List.replicate 33 0,
    length_mockPayload⟩

def scriptLength (address : Address) : Nat :=
  (upstream.payToAddressScript address).script.length

def shapeOf (payments : List WalletPayment) (utxos : List WalletUtxo)
    (payload : List UInt8) : Weights.Shape :=
  ⟨utxos.length,
    payments.map fun payment => scriptLength upstream payment.address,
    payload.length⟩

/-- The compute budget of an input, which the generator adds to the count of
the mass calculator. -/
def budgetMass : Nat :=
  if ComputeCommit.versionExpectsComputeBudgetField generator.txVersion then
    generator.computeBudgetPerInput.toUInt64.toNat *
      gramsPerComputeBudgetUnit.toNat
  else 0

/-- The bytes of the signatures that an input will carry. -/
def signatureBytes : Nat :=
  signatureSize.toNat *
    (max generator.keys.minimumSignatures 1).toUInt64.toNat

omit upstream generator in
/-- Masses up to this one are above that of a full block by far, and below
those at which `u64` or the integers of `f64` end. -/
def massBound : Nat := 2 ^ 50

/-- The mass functions of the crates on the transactions that the generator
builds, as long as no mass exceeds the bound. -/
structure RelayMassLaws where
  compute : Weights.Affine
  size : Weights.Affine
  computeScaling : Weights.Scaling
  transientScaling : Weights.Scaling
  computeFixed :
    5 ≤ computeScaling.cofactor * (1 * compute.base : Nat)
  transientFixed : 5 ≤ transientScaling.cofactor *
    (transientByteToMassFactor.toNat * size.base : Nat)
  unsignedComputeMass_eq : ∀ payments utxos payload,
    compute.weigh (shapeOf upstream payments utxos payload) ≤ massBound →
    (upstream.unsignedComputeMass
      (generator.consensusTransaction upstream payments utxos payload)
      generator.keys.minimumSignatures).toNat =
        compute.weigh (shapeOf upstream payments utxos payload)
  estimatedSerializedSize_eq : ∀ payments utxos payload,
    size.weigh (shapeOf upstream payments utxos payload) ≤ massBound →
    (upstream.estimatedSerializedSize
      (generator.consensusTransaction upstream payments utxos
        payload)).toNat =
        size.weigh (shapeOf upstream payments utxos payload)
  normalizedMax_eq : ∀ masses,
    masses.computeMass.toNat ≤ massBound →
    masses.transientMass.toNat ≤ massBound →
    max (computeScaling.scale masses.computeMass.toNat)
      (transientScaling.scale masses.transientMass.toNat) ≤ massBound →
    (upstream.normalizedMax masses).toNat =
      max (computeScaling.scale masses.computeMass.toNat)
        (transientScaling.scale masses.transientMass.toNat)

/-- No recipient script is longer than the ECDSA one. -/
def EcdsaScriptsLongest : Prop :=
  ∀ address, scriptLength upstream address ≤
    scriptLength upstream generator.mockAddress

variable {upstream generator}

/-- The relay mass as a function of a transaction's shape. -/
def RelayMassLaws.measure (laws : RelayMassLaws upstream generator) :
    Weights.Measure where
  first :=
    ⟨laws.compute, generator.budgetMass, 1, laws.computeScaling,
      laws.computeFixed⟩
  second :=
    ⟨laws.size, generator.signatureBytes, transientByteToMassFactor.toNat,
      laws.transientScaling, laws.transientFixed⟩

/-- With so many inputs, two outputs of the widest kind and so long a payload
a transaction has a mass within the bound. -/
def RelayMassLaws.WithinBound (laws : RelayMassLaws upstream generator)
    (inputs payloadLength : Nat) : Prop :=
  laws.measure.Within massBound
    (.uniform inputs 2 (scriptLength upstream generator.mockAddress)
      payloadLength)

/-- `APPROX_INPUT_BYTES` covers the bytes of an input, with the few grams that
rounding may cost. -/
def RelayMassLaws.ApproximatesInputs
    (laws : RelayMassLaws upstream generator) : Prop :=
  ∀ utxo massPerInput,
    generator.estimateMassPerInput (generator.inputOf utxo) =
        .ok massPerInput →
      laws.measure.first.pricePerInput + 4 ≤ (massPerInput.toNat : ℚ) ∧
        laws.measure.second.pricePerInput + 4 ≤ (massPerInput.toNat : ℚ)

end Laws

section Formula

variable {upstream : Upstream} {generator : TransactionGenerator}
  {payments : List WalletPayment} {utxos : List WalletUtxo}
  {payload : List UInt8} {mass : UInt64}

theorem computeMass_eq (laws : RelayMassLaws upstream generator)
    (within : laws.measure.Within massBound
      (shapeOf upstream payments utxos payload))
    (weighed : computeMassForUnsignedConsensusTransaction upstream
      (generator.consensusTransaction upstream payments utxos payload)
      generator.keys.minimumSignatures = .ok mass) :
    mass.toNat = laws.measure.first.raw
      (shapeOf upstream payments utxos payload) := by
  have raw : laws.measure.first.raw
      (shapeOf upstream payments utxos payload) =
        laws.compute.weigh (shapeOf upstream payments utxos payload) +
          generator.budgetMass * utxos.length := by
    simp [Weights.Component.raw, RelayMassLaws.measure, shapeOf]
  have bounded := within.first
  rw [raw] at bounded
  have counted := laws.unsignedComputeMass_eq payments utxos payload
    ((Nat.le_add_right _ _).trans bounded)
  rw [raw, ← counted]
  unfold computeMassForUnsignedConsensusTransaction at weighed
  unfold budgetMass
  have version : (generator.consensusTransaction upstream payments utxos
      payload).version = generator.txVersion := rfl
  rw [version] at weighed
  by_cases later :
      ComputeCommit.versionExpectsComputeBudgetField generator.txVersion
  · simp only [later, if_true, Outcome.bind_eq_ok, checkedAdd_eq_ok,
      checkedSum_eq_ok] at weighed
    obtain ⟨scriptMasses, collected, total, summed, added⟩ := weighed
    have each : scriptMasses.map UInt64.toNat =
        (utxos.map generator.inputOf).map fun _ =>
          generator.computeBudgetPerInput.toUInt64.toNat *
            gramsPerComputeBudgetUnit.toNat := by
      apply Outcome.map_eq_of_collect collected
      intro input member value computed
      obtain ⟨utxo, -, rfl⟩ := List.mem_map.mp member
      simp only [inputOf, later, if_true, ComputeCommit.computeBudget?,
        Option.getD_some, checkedMul_eq_ok] at computed
      exact computed.symm
    rw [each] at summed
    simp only [List.map_map, Function.comp_def, List.map_const', 
      List.sum_replicate, smul_eq_mul] at summed
    rw [if_pos later, Nat.mul_comm, summed]
    exact added.symm
  · simp only [later, Bool.false_eq_true, if_false,
      Except.ok.injEq] at weighed
    simp [later, weighed]

theorem transientMass_eq (laws : RelayMassLaws upstream generator)
    (within : laws.measure.Within massBound
      (shapeOf upstream payments utxos payload))
    (weighed : estimateTransientMass upstream
      (generator.consensusTransaction upstream payments utxos payload)
      generator.keys.minimumSignatures = .ok mass) :
    mass.toNat = laws.measure.second.raw
      (shapeOf upstream payments utxos payload) := by
  have bounded : transientByteToMassFactor.toNat *
      (laws.size.weigh (shapeOf upstream payments utxos payload) +
        generator.signatureBytes * utxos.length) ≤ massBound :=
    within.second
  rw [show transientByteToMassFactor.toNat = 4 from rfl] at bounded
  have counted := laws.estimatedSerializedSize_eq payments utxos payload
    (by omega)
  simp only [estimateTransientMass, Outcome.bind_eq_ok, checkedMul_eq_ok,
    checkedAdd_eq_ok, checkedLength_eq_ok] at weighed
  obtain ⟨perInput, perInputEq, inputCount, countEq, bytes, bytesEq, signed,
    signedEq, massEq⟩ := weighed
  have length : (generator.consensusTransaction upstream payments utxos
      payload).inputs.length = utxos.length := by
    simp [consensusTransaction, Transaction.new]
  rw [length] at countEq
  rw [← massEq, ← signedEq, ← bytesEq, ← perInputEq, ← countEq, counted,
    Nat.mul_comm]
  rfl

theorem feeMass_eq (laws : RelayMassLaws upstream generator)
    (within : laws.measure.Within massBound
      (shapeOf upstream payments utxos payload))
    (weighed : nonContextualFeeMass upstream
      (generator.consensusTransaction upstream payments utxos payload)
      generator.keys.minimumSignatures = .ok mass) :
    mass.toNat =
      laws.measure.weigh (shapeOf upstream payments utxos payload) := by
  simp only [nonContextualFeeMass, nonContextualMasses, Outcome.bind_eq_ok,
    Outcome.pure_eq_ok] at weighed
  obtain ⟨_, ⟨computed, computing, transient, transientEq, rfl⟩, rfl⟩ :=
    weighed
  have compute := computeMass_eq laws within computing
  have transientMass := transientMass_eq laws within transientEq
  have normalized := laws.normalizedMax_eq ⟨computed, transient⟩
    (compute ▸ within.first) (transientMass ▸ within.second)
    (by
      rw [compute, transientMass]
      exact within.scaled)
  rw [normalized, compute, transientMass]
  rfl

end Formula

section Devnet

private theorem toNat_of_le_massBound {mass : Nat}
    (bounded : mass ≤ massBound) : (UInt64.ofNat mass).toNat = mass :=
  UInt64.toNat_ofNat_of_lt' (bounded.trans_lt (by decide))

def computeWeights : Weights.Affine where
  base := 94
  perInput := 1118
  perOutput length := 18 + length + 10 * (2 + length)
  perByte := 1
  grows := by
    intro shorter longer ordered
    dsimp only
    omega

def sizeWeights : Weights.Affine where
  base := 94
  perInput := 52
  perOutput length := 18 + length
  perByte := 1
  grows := by
    intro shorter longer ordered
    dsimp only
    omega

def unscaled : Weights.Scaling where
  scale := id
  cofactor := 1
  cofactor_nonneg := by norm_num
  grows := monotone_id
  above weight := by simp
  below weight := by simp

def halved : Weights.Scaling where
  scale weight := (weight + 1) / 2
  cofactor := 1 / 2
  cofactor_nonneg := by norm_num
  grows := by
    intro lighter heavier ordered
    exact Nat.div_le_div_right (by omega)
  above weight := by
    have rounded := Nat.div_mul_le_self (weight + 1) 2
    have roundedQ : (((weight + 1) / 2 : Nat) : ℚ) * 2 ≤ weight + 1 := by
      exact_mod_cast rounded
    linarith
  below weight := by
    have rounded : weight ≤ (weight + 1) / 2 * 2 := by omega
    have roundedQ : (weight : ℚ) ≤ ((weight + 1) / 2 : Nat) * 2 := by
      exact_mod_cast rounded
    linarith

variable (payments : List WalletPayment) (utxos : List WalletUtxo)
  (payload : List UInt8)

theorem serializedSize_consensusTransaction :
    Devnet.serializedSize ((sampleGenerator 1).consensusTransaction
      devnet payments utxos payload) =
        94 + 52 * utxos.length +
          sizeWeights.outputsWeight (payments.map fun payment =>
            scriptLength devnet payment.address) +
          payload.length := by
  simp [Devnet.serializedSize, consensusTransaction, Transaction.new, inputOf,
    outputOf, TransactionOutput.new, sizeWeights,
    Weights.Affine.outputsWeight, scriptLength, Function.comp_def]
  omega

theorem computeMass_consensusTransaction :
    Devnet.computeMass ((sampleGenerator 1).consensusTransaction
      devnet payments utxos payload) 1 =
        94 + 1118 * utxos.length +
          computeWeights.outputsWeight (payments.map fun payment =>
            scriptLength devnet payment.address) +
          payload.length := by
  unfold Devnet.computeMass
  rw [serializedSize_consensusTransaction]
  have budgets : (((sampleGenerator 1).consensusTransaction devnet
      payments utxos payload).inputs.map fun input =>
        1000 * (input.computeCommit.sigOpCount?.getD 0).toNat).sum =
          1000 * utxos.length := by
    have each : ∀ utxo, 1000 * (((sampleGenerator 1).inputOf
        utxo).computeCommit.sigOpCount?.getD 0).toNat = 1000 :=
      fun _ => rfl
    simp [consensusTransaction, Transaction.new, Function.comp_def, each,
      Nat.mul_comm]
  have lengths : ((sampleGenerator 1).consensusTransaction devnet
      payments utxos payload).inputs.length = utxos.length := by
    simp [consensusTransaction, Transaction.new]
  have outputs : (((sampleGenerator 1).consensusTransaction devnet
      payments utxos payload).outputs.map fun output =>
        10 * (2 + output.scriptPublicKey.script.length)).sum +
      sizeWeights.outputsWeight (payments.map fun payment =>
        scriptLength devnet payment.address) =
      computeWeights.outputsWeight (payments.map fun payment =>
        scriptLength devnet payment.address) := by
    simp only [consensusTransaction, Transaction.new, outputOf,
      TransactionOutput.new, Weights.Affine.outputsWeight, sizeWeights,
      computeWeights, scriptLength, List.map_map, Function.comp_def]
    rw [← List.sum_map_add]
    simp only [Nat.add_comm]
  have one : (1 : UInt16).toNat = 1 := rfl
  rw [budgets, lengths, one, Nat.max_self, ← outputs]
  omega

def devnetLaws : RelayMassLaws devnet (sampleGenerator 1) where
  compute := computeWeights
  size := sizeWeights
  computeScaling := unscaled
  transientScaling := halved
  computeFixed := by norm_num [unscaled, computeWeights]
  transientFixed := by
    have factor : transientByteToMassFactor.toNat = 4 := rfl
    norm_num [halved, sizeWeights, factor]
  unsignedComputeMass_eq payments utxos payload bounded := by
    have mass : Devnet.computeMass ((sampleGenerator 1).consensusTransaction
        devnet payments utxos payload) 1 =
          computeWeights.weigh (shapeOf devnet payments utxos payload) := by
      rw [computeMass_consensusTransaction]
      simp [Weights.Affine.weigh, computeWeights, shapeOf]
    rw [← mass] at bounded ⊢
    exact toNat_of_le_massBound bounded
  estimatedSerializedSize_eq payments utxos payload bounded := by
    have size : Devnet.serializedSize
        ((sampleGenerator 1).consensusTransaction devnet payments utxos
          payload) =
          sizeWeights.weigh (shapeOf devnet payments utxos payload) := by
      rw [serializedSize_consensusTransaction]
      simp [Weights.Affine.weigh, sizeWeights, shapeOf]
    rw [← size] at bounded ⊢
    exact toNat_of_le_massBound bounded
  normalizedMax_eq masses _ _ bounded := toNat_of_le_massBound bounded

theorem ecdsaScriptsLongest_devnet :
    EcdsaScriptsLongest devnet (sampleGenerator 1) := by
  intro address
  obtain ⟨addressPrefix, version, payload, size⟩ := address
  cases version <;>
    simp [scriptLength, devnet, devnet, Devnet.payToAddressScript,
      size, AddressVersion.publicKeyLen, mockAddress]

theorem approximatesInputs_devnet : devnetLaws.ApproximatesInputs := by
  intro utxo massPerInput priced
  have value : (sampleGenerator 1).estimateMassPerInput
      ((sampleGenerator 1).inputOf utxo) = .ok 1130 :=
    rfl
  obtain rfl : 1130 = massPerInput :=
    Except.ok.inj (value.symm.trans priced)
  have price : (1130 : UInt64).toNat = 1130 := rfl
  rw [price]
  constructor
  · show (1 : ℚ) * ((1 * (1118 + 0) : Nat) : ℚ) + 4 ≤ (1130 : Nat)
    norm_num
  · show (1 / 2 : ℚ) * ((4 * (52 + 66 * 1) : Nat) : ℚ) + 4 ≤ (1130 : Nat)
    norm_num

end Devnet

end TransactionGenerator

end Kaswallet

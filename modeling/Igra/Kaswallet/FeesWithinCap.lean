import Igra.Kaswallet.RoundDraws
import Igra.Kaswallet.SelectionOutcome

/-!
# When the fees stay within the cap

Splits pay one estimate, which is clipped.  A transaction that is not
compounded pays the estimate for its first UTXO once for each UTXO of the
initial segment at which the selection ends.  The merge transaction of the
last round also pays what the UTXOs that it draws bring beyond what is
missing.
-/

open Kaspa Rust

namespace Kaswallet

namespace TransactionGenerator

section Conditions

variable (upstream : Upstream) (generator : TransactionGenerator)
  (replies : NodeReplies) (manager : UtxoManager) (cap : UInt64)

/-- The fee of the first UTXO, paid once for each UTXO of an initial segment
at which the selection may end, is within the cap. -/
def SelectionFits (availableUtxos : List WalletUtxo)
    (selection : SelectionRequest) : Prop :=
  ∃ virtualDaaScore feePerUtxo front,
    replies.virtualDaaScore 0 = .ok virtualDaaScore ∧
      let usable := usableUtxos manager virtualDaaScore
        selection.fromAddresses availableUtxos
      generator.firstFee upstream selection usable = .ok feePerUtxo ∧
      front <+: usable ∧
      (front = usable ∨
        front ≠ [] ∧ Stops upstream generator selection front) ∧
      front.length * feePerUtxo.toNat ≤ cap.toNat

/-- If the round is short, some initial segment of the addable UTXOs covers
what is missing and brings no more beyond it than the fee for the merge leaves
of the cap. -/
def CoverFits (request : CompoundingRequest) (round : Nat)
    (original : WalletSignableTransaction) : Prop :=
  ∀ mergeFee missing,
    ShortBy upstream generator request original mergeFee missing →
    ∃ virtualDaaScore feePerInput front,
      replies.virtualDaaScore (round + 1) = .ok virtualDaaScore ∧
        generator.feePerInput request original.tx = .ok feePerInput ∧
        front <+: candidates manager request virtualDaaScore ∧
        missing ≤ netAmount feePerInput front ∧
        totalAmount front + mergeFee.toNat ≤ missing + cap.toNat

/-- The selection fits the cap, or after compounding the last round does. -/
structure FeesFit (availableUtxos : List WalletUtxo)
    (selection : SelectionRequest) (request : CompoundingRequest)
    (unsigned : WalletSignableTransaction) : Prop where
  selection : ¬Heavy upstream generator unsigned →
    SelectionFits upstream generator replies manager cap availableUtxos
      selection
  lastRound : ∀ state,
    RoundTaken upstream generator request replies manager unsigned state →
    (∀ later,
      RoundTaken upstream generator request replies manager unsigned later →
        later.1 ≤ state.1) →
    CoverFits upstream generator replies manager cap request state.1 state.2

end Conditions

section Selection

variable {upstream : Upstream} {generator : TransactionGenerator}
  {replies : NodeReplies} {manager : UtxoManager} {cap : UInt64}
  {availableUtxos selectedUtxos : List WalletUtxo}
  {selection : SelectionRequest} {amountSentToRecipient changeSompi : UInt64}

/-- The selection ends at the shortest initial segment at which it may. -/
theorem selectionFits_iff {feePerUtxo : UInt64}
    (selected : generator.selectUtxos upstream replies manager availableUtxos
      selection = .ok (selectedUtxos, amountSentToRecipient, changeSompi))
    (first : generator.firstFee upstream selection selectedUtxos =
      .ok feePerUtxo) :
    SelectionFits upstream generator replies manager cap availableUtxos
        selection ↔
      selectedUtxos.length * feePerUtxo.toNat ≤ cap.toNat := by
  simp only [selectUtxos, Outcome.bind_eq_ok, Prod.exists, Outcome.err,
    Outcome.guarded_eq_ok, Outcome.pure_eq_ok, Prod.mk.injEq, transportError,
    mapError_eq_ok] at selected
  obtain ⟨virtualDaaScore, asked, final, looped, _, _, -, -, -, rfl, -, -⟩ :=
    selected
  let usable := usableUtxos manager virtualDaaScore selection.fromAddresses
    availableUtxos
  have ends : final.selectedUtxos <+: usable ∧
      (final.selectedUtxos = usable ∨ final.selectedUtxos ≠ [] ∧
        Stops upstream generator selection final.selectedUtxos) := by
    rcases selectionLoop_ends Selection.accounts_empty looped with
      ⟨all, -⟩ | ⟨front, isPrefix, nonempty, picked, stopped⟩
    · have whole : final.selectedUtxos = usable := all
      exact ⟨whole ▸ List.prefix_rfl, .inl whole⟩
    · have same : final.selectedUtxos = front := picked
      rw [same] at stopped ⊢
      exact ⟨isPrefix, .inr ⟨nonempty, stopped⟩⟩
  have firstUsable : generator.firstFee upstream selection usable =
      .ok feePerUtxo := by
    rcases ends.2 with whole | ⟨nonempty, -⟩
    · rw [← whole]
      exact first
    · rw [← firstFee_of_initial ends.1 nonempty]
      exact first
  have shortest : ∀ front, front <+: usable →
      (front = usable ∨
        front ≠ [] ∧ Stops upstream generator selection front) →
      final.selectedUtxos.length ≤ front.length := by
    rintro front isPrefix (rfl | ⟨nonempty, stops⟩)
    · exact ends.1.length_le
    · exact (selectionLoop_stops Selection.accounts_empty looped isPrefix
        nonempty stops).length_le
  constructor
  · rintro ⟨score, fee, front, askedAgain, estimated, isPrefix, mayEnd, fits⟩
    obtain rfl := Except.ok.inj (asked.symm.trans askedAgain)
    obtain rfl := Except.ok.inj (firstUsable.symm.trans estimated)
    exact (Nat.mul_le_mul_right _ (shortest front isPrefix mayEnd)).trans fits
  · intro fits
    exact ⟨virtualDaaScore, feePerUtxo, final.selectedUtxos, asked,
      firstUsable, ends.1, ends.2, fits⟩

end Selection

section Rounds

variable {upstream : Upstream} {generator : TransactionGenerator}
  {request : CompoundingRequest} {replies : NodeReplies}
  {manager : UtxoManager} {state next : Nat × WalletSignableTransaction}
  {done : CompoundRound} {unsigned : WalletSignableTransaction} {fuel : Nat}
  {compounding : Compounding}

theorem ShortestFunding.totalAmount_le {feePerInput : UInt64} {missing : Nat}
    {available utxos front : List WalletUtxo}
    (funding : ShortestFunding feePerInput missing available utxos)
    (isPrefix : front <+: available)
    (covers : missing ≤ netAmount feePerInput front) :
    totalAmount utxos ≤ totalAmount front := by
  obtain ⟨count, rfl, minimal⟩ := funding.initial
  have initial := List.prefix_iff_eq_take.mp isPrefix
  have atLeast : count ≤ front.length := by
    by_contra fewer
    have short := minimal front.length (Nat.lt_of_not_le fewer)
    rw [← initial] at short
    omega
  rw [initial]
  exact totalAmount_le_of_sublist
    (List.take_sublist_take_left atLeast)

/-- The fee of the merge transaction of a round is within the cap if and only
if the cover fits. -/
theorem coverFits_iff_of_roundStep
    (built : Built upstream generator state.2)
    (taken : RoundStep upstream generator request replies manager state done
      next) :
    CoverFits upstream generator replies manager request.maxFee request
        state.1 state.2 ↔
      inputsValue done.merge ≤
        outputsValue done.merge + request.maxFee.toNat := by
  obtain ⟨-, -, ⟨_, weighed, compounded⟩, -⟩ := taken
  have shortBy := @shortBy_iff_of_compoundRound _ _ _ _ _ _ _ _ _ built
    weighed compounded
  obtain ⟨-, planning, merged, -⟩ := compoundRound_eq_ok.mp compounded
  have planned := planned_of_mergePlan planning
  have fee := inputsValue_merge planned merged
  rcases planned.funding with ⟨nothing, covered⟩ | adds
  · have bound := estimateFee_le_maxFee planned.mergeFee
    rw [nothing, totalAmount_nil] at fee
    rw [UInt64.le_iff_toNat_le] at covered
    constructor
    · intro _
      omega
    · intro _ mergeFee missing short
      exact absurd nothing (additionalUtxos_ne_nil (shortBy.mp short).1)
  · obtain ⟨score, price, asked, priced, funding⟩ := adds.funding
    have short := UInt64.lt_iff_toNat_lt.mp adds.short
    constructor
    · intro fits
      obtain ⟨_, _, front, askedAgain, pricedAgain, isPrefix, covers,
        cheap⟩ := fits _ _ (shortBy.mpr ⟨adds, rfl, rfl⟩)
      obtain rfl := Except.ok.inj (asked.symm.trans askedAgain)
      obtain rfl := Except.ok.inj (priced.symm.trans pricedAgain)
      have cheapest := funding.totalAmount_le isPrefix covers
      omega
    · intro within mergeFee missing missed
      obtain ⟨-, rfl, rfl⟩ := shortBy.mp missed
      obtain ⟨count, initial, -⟩ := funding.initial
      exact ⟨score, price, done.plan.additionalUtxos, asked, priced,
        initial ▸ List.take_prefix _ _, funding.enough, by omega⟩

/-- After compounding the cap is kept if and only if the last round fits. -/
theorem lastRound_iff (built : Built upstream generator unsigned)
    (compounded : generator.compound upstream request replies manager fuel 0
      unsigned = .ok compounding)
    (some : compounding.rounds ≠ []) :
    (∀ state,
      RoundTaken upstream generator request replies manager unsigned state →
      (∀ later, RoundTaken upstream generator request replies manager
        unsigned later → later.1 ≤ state.1) →
      CoverFits upstream generator replies manager request.maxFee request
        state.1 state.2) ↔
      inputsValue compounding.last ≤
        outputsValue compounding.last + request.maxFee.toNat := by
  have positive := List.length_pos_iff.mpr some
  have inside : compounding.rounds.length - 1 < compounding.rounds.length := by
    omega
  have last : compounding.last =
      (compounding.rounds[compounding.rounds.length - 1]).merge := by
    rw [(compounds_of_compound compounded).last.1,
      List.getLast?_eq_getElem?, List.getElem?_eq_getElem inside]
    rfl
  obtain ⟨final, before, position, taken⟩ := roundTaken_of_round compounded
    (List.getElem?_eq_getElem inside)
  rw [last, ← coverFits_iff_of_roundStep (before.built built) taken]
  constructor
  · intro fits
    refine fits final before ?_
    intro later beforeLater
    obtain ⟨_, found, -⟩ := round_of_roundTaken compounded beforeLater
    have bound := (List.getElem?_eq_some_iff.mp found).1
    omega
  · intro fits state beforeHere isLast
    have latest := isLast final before
    obtain ⟨done, found, takenHere⟩ :=
      round_of_roundTaken compounded beforeHere
    obtain ⟨bound, isDone⟩ := List.getElem?_eq_some_iff.mp found
    have same : state.1 = compounding.rounds.length - 1 := by omega
    rw [coverFits_iff_of_roundStep (before.built built) taken] at fits
    rw [coverFits_iff_of_roundStep (beforeHere.built built) takenHere,
      ← isDone]
    simpa only [same] using fits

end Rounds

section Batch

variable {upstream : Upstream} {generator : TransactionGenerator}
  {surroundings : Surroundings} {manager : UtxoManager}
  {addressManager : AddressManager} {description : TransactionDescription}
  {request : CompoundingRequest} {unsigned : WalletSignableTransaction}

/-- Every transaction of a batch pays at most the cap if and only if the fees
fit it. -/
theorem createUnsignedTransactions_fees_le_cap_iff {fuel : Nat}
    {cap : UInt64} {batch : List WalletSignableTransaction}
    {checked : CheckedDescription}
    (capped : feeCap description.feePolicy = some cap)
    (accepted : checkDescription upstream surroundings.replies manager
      addressManager.addresses description = .ok checked)
    (made : (generator.prepare upstream surroundings manager addressManager
      description).1 = .ok (request, unsigned))
    (created : (generator.createUnsignedTransactions upstream surroundings
      manager addressManager description fuel).1 = .ok batch) :
    (∀ transaction ∈ batch,
        inputsValue transaction ≤ outputsValue transaction + cap.toNat) ↔
      FeesFit upstream generator surroundings.replies manager cap
        (availableUtxos surroundings.order manager checked.preselectedUtxos)
        (selectionRequest description checked) request unsigned := by
  obtain ⟨_, _, compounding, madeAgain, compounded, rfl⟩ :=
    exists_compounding created
  obtain ⟨rfl, rfl⟩ := Prod.mk.inj (Except.ok.inj (made.symm.trans madeAgain))
  obtain ⟨prepared⟩ := prepared_of_prepare made
  obtain rfl : checked = prepared.checked :=
    Except.ok.inj (accepted.symm.trans prepared.accepted)
  have built := (ready_of_prepare made).built
  obtain ⟨_, -, -, -, -, limits, -⟩ :=
    checkDescription_eq_ok.mp prepared.accepted
  obtain rfl : request.maxFee = cap := by
    rw [prepared.request_eq]
    exact maxFee_of_calculateFeeLimits capped limits
  have compounds := compounds_of_compound compounded
  have splitsFit : ∀ transaction ∈
      compounding.rounds.flatMap CompoundRound.splits,
      inputsValue transaction ≤
        outputsValue transaction + request.maxFee.toNat := by
    intro transaction member
    obtain ⟨done, inRounds, isSplit⟩ := List.mem_flatMap.mp member
    obtain ⟨round, mass, performed⟩ := compounds.compoundRound done inRounds
    have splits := (compoundRound_eq_ok.mp performed).1
    exact ((partitions_of_splitTransactions splits).2 _ isSplit).fee
  have lastOnly :
      (∀ transaction ∈ compounding.batch,
          inputsValue transaction ≤
            outputsValue transaction + request.maxFee.toNat) ↔
        inputsValue compounding.last ≤
          outputsValue compounding.last + request.maxFee.toNat := by
    simp only [Compounding.batch, List.forall_mem_append,
      List.forall_mem_singleton]
    exact and_iff_right splitsFit
  rw [lastOnly]
  rcases compound_cases (0, unsigned) compounded with
    ⟨light, rfl⟩ | ⟨done, _, rest, taken, -, rfl⟩
  · obtain ⟨feePerUtxo, first, fee⟩ := prepared.inputsValue_unsigned
    have fits : SelectionFits upstream generator surroundings.replies manager
        request.maxFee _ _ ↔ _ := selectionFits_iff prepared.selected first
    rw [fee, Nat.add_le_add_iff_left, ← fits]
    constructor
    · intro selection
      refine ⟨fun _ => selection, ?_⟩
      intro state before _
      obtain ⟨_, found, -⟩ := round_of_roundTaken compounded before
      simp at found
    · intro feesFit
      exact feesFit.selection light
  · rw [← lastRound_iff built compounded (List.cons_ne_nil _ _)]
    constructor
    · intro lastRound
      exact ⟨fun light => absurd taken.2.1 light, lastRound⟩
    · exact FeesFit.lastRound

end Batch

section WithinCap

theorem not_roundTaken_of_light {upstream : Upstream}
    {generator : TransactionGenerator} {request : CompoundingRequest}
    {replies : NodeReplies} {manager : UtxoManager}
    {unsigned : WalletSignableTransaction}
    (light : ¬Heavy upstream generator unsigned)
    (state : Nat × WalletSignableTransaction) :
    ¬RoundTaken upstream generator request replies manager unsigned state := by
  rintro ⟨⟨rounds, run⟩, -, heavy⟩
  rcases first_or_light_of_run run
    (fun _ _ taken => absurd taken.2.1 light) with rfl | lightHere
  · exact light heavy
  · exact lightHere heavy

/-- A fee of at most 7000 sompi for a payment from two UTXOs, each of which
is charged 3270 sompi. -/
def cappedPayment : TransactionDescription :=
  sampleDescription 100000 (some (some (.maxFee 7000)))

def twoUtxos : UtxoManager :=
  sampleStore [sampleUtxo 1 50000, sampleUtxo 2 60000]

private theorem withinCap_run :
    (checkDescription devnet (sampleReplies 2.0) twoUtxos
        (sampleBook 1).addresses cappedPayment).Returns fun checked =>
    ((sampleGenerator 1).prepare devnet (sampleSurroundings 2.0) twoUtxos
        (sampleBook 1) cappedPayment).1.Returns fun (_, unsigned) =>
    ((sampleGenerator 1).createUnsignedTransactions devnet
        (sampleSurroundings 2.0) twoUtxos (sampleBook 1) cappedPayment
        1).1.Returns fun _ =>
      let selection := selectionRequest cappedPayment checked
      let usable := usableUtxos twoUtxos 1000 selection.fromAddresses
        (availableUtxos (.stored _ _) twoUtxos checked.preselectedUtxos)
      massOf devnet (sampleGenerator 1) unsigned.tx < 100000 ∧
        usable.length = 2 ∧
        (sampleGenerator 1).firstFee devnet selection usable = .ok 3270 := by
  decide +kernel

theorem withinCap_fees_le_cap :
    ∃ batch,
      ((sampleGenerator 1).createUnsignedTransactions devnet
        (sampleSurroundings 2.0) twoUtxos (sampleBook 1) cappedPayment 1).1 =
          .ok batch ∧
      ∀ transaction ∈ batch,
        inputsValue transaction ≤ outputsValue transaction + 7000 := by
  obtain ⟨checked, accepted, ⟨request, unsigned⟩, made, batch, created, facts⟩ :=
    withinCap_run
  dsimp only at facts
  obtain ⟨light, two, first⟩ := facts
  have isLight : ¬Heavy devnet (sampleGenerator 1) unsigned :=
    Nat.not_le.mpr light
  have selectionFits : SelectionFits devnet (sampleGenerator 1)
      (sampleReplies 2.0) twoUtxos 7000
      (availableUtxos (.stored _ _) twoUtxos checked.preselectedUtxos)
      (selectionRequest cappedPayment checked) := by
    refine ⟨1000, 3270, _, rfl, first, List.prefix_rfl, .inl rfl, ?_⟩
    rw [two]
    decide
  have exactly := createUnsignedTransactions_fees_le_cap_iff rfl accepted made
    created
  refine ⟨batch, created, exactly.mpr ⟨fun _ => selectionFits, ?_⟩⟩
  intro state before
  exact absurd before (not_roundTaken_of_light isLight state)

end WithinCap

end TransactionGenerator

end Kaswallet

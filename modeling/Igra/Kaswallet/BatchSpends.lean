import Igra.Kaswallet.RoundDraws
import Igra.Kaswallet.UtxoStore

/-!
# What a batch spends

Every input of a batch spends a UTXO of the wallet or the first output of an
earlier split.  The merge transaction of each round adds UTXOs that the
original transaction did not select, but a later round may add the same ones
again.
-/

open Kaspa Rust

namespace Kaswallet

namespace TransactionGenerator

section Provenance

variable (upstream : Upstream)

/-- The first output of a transaction. -/
def firstOutpoint (transaction : WalletSignableTransaction) :
    WalletOutpoint :=
  ⟨upstream.transactionId transaction.tx, 0⟩

/-- Every input of the transactions spends a known outpoint or the first
output of an earlier transaction. -/
def Sourced (known : WalletOutpoint → Prop) :
    List WalletSignableTransaction → List WalletSignableTransaction → Prop
  | _, [] => True
  | earlier, transaction :: rest =>
      (∀ outpoint ∈ spentOutpoints transaction,
        known outpoint ∨
          ∃ split ∈ earlier, outpoint = firstOutpoint upstream split) ∧
      Sourced known (earlier ++ [transaction]) rest

/-- A UTXO of the wallet that the node's DAA score lets it spend, at one of
the addresses it is asked to spend from. -/
def SpendableOutpoint (replies : NodeReplies) (manager : UtxoManager)
    (fromAddresses : List WalletAddress) (outpoint : WalletOutpoint) : Prop :=
  ∃ utxo ∈ manager.utxosSortedByAmount, utxo.outpoint = outpoint ∧
    ∃ query virtualDaaScore,
      replies.virtualDaaScore query = .ok virtualDaaScore ∧
        Usable manager virtualDaaScore fromAddresses utxo

variable {upstream} {known : WalletOutpoint → Prop}

theorem sourced_append {earlier front back :
      List WalletSignableTransaction} :
    Sourced upstream known earlier (front ++ back) ↔
      Sourced upstream known earlier front ∧
        Sourced upstream known (earlier ++ front) back := by
  induction front generalizing earlier with
  | nil => simp [Sourced]
  | cons transaction front ih =>
      simp only [List.cons_append, Sourced, ih, and_assoc, List.append_assoc,
        List.nil_append]

/-- Transactions that all draw on the same earlier ones are sourced. -/
theorem sourced_of_earlier {earlier transactions :
      List WalletSignableTransaction}
    (drawn : ∀ transaction ∈ transactions,
      ∀ outpoint ∈ spentOutpoints transaction,
        known outpoint ∨
          ∃ split ∈ earlier, outpoint = firstOutpoint upstream split) :
    Sourced upstream known earlier transactions := by
  induction transactions generalizing earlier with
  | nil => exact True.intro
  | cons transaction rest ih =>
      refine ⟨drawn transaction List.mem_cons_self, ih ?_⟩
      intro other member outpoint spent
      rcases drawn other (List.mem_cons_of_mem _ member) outpoint spent with
        isKnown | ⟨split, inEarlier, isFirst⟩
      · exact .inl isKnown
      · exact .inr ⟨split, List.mem_append_left _ inEarlier, isFirst⟩

end Provenance

section Rounds

variable {upstream : Upstream} {generator : TransactionGenerator}
  {request : CompoundingRequest} {replies : NodeReplies}
  {manager : UtxoManager} {round : Nat}
  {original : WalletSignableTransaction} {transactionMass : UInt64}
  {done : CompoundRound}

/-- Every split of the rounds. -/
def allSplits (rounds : List CompoundRound) :
    List WalletSignableTransaction :=
  rounds.flatMap CompoundRound.splits

/-- Every UTXO that a merge transaction of the rounds adds. -/
def allAdded (rounds : List CompoundRound) : List WalletUtxo :=
  rounds.flatMap fun done => done.plan.additionalUtxos

theorem spentOutpoints_merge
    (compounded : generator.compoundRound upstream request replies manager
      round original transactionMass = .ok done) :
    spentOutpoints done.merge =
      done.splits.map (firstOutpoint upstream) ++
        done.plan.additionalUtxos.map WalletUtxo.outpoint := by
  obtain ⟨-, planning, merged, -⟩ := compoundRound_eq_ok.mp compounded
  have collected := (planned_of_mergePlan planning).splitUtxos
  rw [spentOutpoints_of_generateUnsignedTransaction merged, List.map_append,
    Outcome.map_eq_of_collect collected]
  intro split _ utxo made
  simp only [splitUtxo, Outcome.bind_eq_ok, Outcome.pure_eq_ok] at made
  obtain ⟨_, -, rfl⟩ := made
  rfl

/-- The UTXOs that a round adds are UTXOs of the store, in its order, that the
original transaction did not select. -/
theorem additionalUtxos_spec
    (compounded : generator.compoundRound upstream request replies manager
      round original transactionMass = .ok done) :
    done.plan.additionalUtxos.Sublist manager.utxosSortedByAmount ∧
      ∀ utxo ∈ done.plan.additionalUtxos, ∃ virtualDaaScore,
        replies.virtualDaaScore (round + 1) = .ok virtualDaaScore ∧
          Addable manager request virtualDaaScore utxo := by
  obtain ⟨-, planning, -, -⟩ := compoundRound_eq_ok.mp compounded
  rcases (planned_of_mergePlan planning).funding with ⟨nothing, -⟩ | adds
  · simp [nothing]
  · obtain ⟨virtualDaaScore, _, asked, -, funding⟩ := adds.funding
    obtain ⟨count, initial, -⟩ := funding.initial
    rw [initial]
    refine ⟨(List.take_sublist _ _).trans List.filter_sublist, ?_⟩
    intro utxo member
    have candidate := List.mem_of_mem_take member
    exact ⟨virtualDaaScore, asked,
      by simpa using (List.mem_filter.mp candidate).2⟩

/-- A batch spends what its first transaction spends and what the merge
transactions spend. -/
theorem Compounds.flatMap_spentOutpoints {compounding : Compounding}
    (compounds : Compounds upstream generator request replies manager round
      original compounding) :
    compounding.batch.flatMap spentOutpoints =
      spentOutpoints original ++
        compounding.rounds.flatMap fun done => spentOutpoints done.merge := by
  induction compounds with
  | light => simp [Compounding.batch]
  | @heavy round original transactionMass done rest compounded _ ih =>
      have made := (compoundRound_eq_ok.mp compounded).1
      have split := (partitions_of_splitTransactions made).1.spent
      simp only [Compounding.batch, List.flatMap_cons, List.append_assoc,
        List.flatMap_append] at ih ⊢
      rw [split, ih]

theorem Compounds.sourced {known : WalletOutpoint → Prop}
    {compounding : Compounding} {earlier : List WalletSignableTransaction}
    (compounds : Compounds upstream generator request replies manager round
      original compounding)
    (start : ∀ outpoint ∈ spentOutpoints original,
      known outpoint ∨
        ∃ split ∈ earlier, outpoint = firstOutpoint upstream split)
    (added : ∀ utxo ∈ allAdded compounding.rounds, known utxo.outpoint) :
    Sourced upstream known earlier compounding.batch := by
  induction compounds generalizing earlier with
  | light => exact ⟨start, True.intro⟩
  | @heavy round original transactionMass done rest compounded _ ih =>
      have made := (compoundRound_eq_ok.mp compounded).1
      have partition := (partitions_of_splitTransactions made).1
      rw [allAdded, List.flatMap_cons, List.forall_mem_append] at added
      obtain ⟨addedNow, addedLater⟩ := added
      rw [Compounding.batch, List.flatMap_cons, List.append_assoc,
        sourced_append]
      refine ⟨sourced_of_earlier ?_, ih ?_ addedLater⟩
      · intro split member outpoint spent
        apply start outpoint
        rw [← partition.spent]
        exact List.mem_flatMap.mpr ⟨split, member, spent⟩
      · intro outpoint spent
        rw [spentOutpoints_merge compounded] at spent
        rcases List.mem_append.mp spent with ofSplit | ofAdded
        · obtain ⟨split, member, rfl⟩ := List.mem_map.mp ofSplit
          exact .inr ⟨split, List.mem_append_right _ member, rfl⟩
        · obtain ⟨utxo, member, rfl⟩ := List.mem_map.mp ofAdded
          exact .inl (addedNow utxo member)

end Rounds

section SpendOnce

variable {upstream : Upstream} {generator : TransactionGenerator}
  {request : CompoundingRequest} {replies : NodeReplies}
  {manager : UtxoManager} {round : Nat}
  {original current : WalletSignableTransaction} {transactionMass : UInt64}
  {done : CompoundRound}

/-- Different transactions among the given ones have different ids. -/
def CollisionFree (upstream : Upstream)
    (transactions : List WalletSignableTransaction) : Prop :=
  ∀ first ∈ transactions, ∀ second ∈ transactions,
    upstream.transactionId first.tx = upstream.transactionId second.tx →
      first.tx = second.tx

/-- Transactions that spend different outpoints have different first
outputs. -/
theorem nodup_firstOutpoints {transactions : List WalletSignableTransaction}
    (distinct : (transactions.flatMap spentOutpoints).Nodup)
    (nonempty : ∀ transaction ∈ transactions,
      spentOutpoints transaction ≠ [])
    (collisionFree : CollisionFree upstream transactions) :
    (transactions.map (firstOutpoint upstream)).Nodup := by
  have apart := (List.nodup_flatMap.mp distinct).2
  rw [List.Nodup, List.pairwise_map]
  refine apart.imp_of_mem ?_
  intro first second inFirst inSecond disjoint same
  have sameTx : first.tx = second.tx :=
    collisionFree first inFirst second inSecond
      (congrArg WalletOutpoint.transactionId same)
  have sameSpent : spentOutpoints first = spentOutpoints second := by
    unfold spentOutpoints
    rw [sameTx]
  obtain ⟨outpoint, spent⟩ :=
    List.exists_mem_of_ne_nil _ (nonempty first inFirst)
  exact disjoint spent (sameSpent ▸ spent)

/-- The state of a compounding between two rounds: `earlier` are the splits so
far, `added` the UTXOs that merge transactions have added, and `current` is
the last merge transaction. -/
structure Progress (upstream : Upstream) (selected : List WalletUtxo)
    (earlier : List WalletSignableTransaction) (added : List WalletUtxo)
    (current : WalletSignableTransaction) : Prop where
  distinct :
    (earlier.flatMap spentOutpoints ++ spentOutpoints current).Nodup
  origin : ∀ outpoint ∈
      earlier.flatMap spentOutpoints ++ spentOutpoints current,
    outpoint ∈ (selected ++ added).map WalletUtxo.outpoint ∨
      outpoint ∈ earlier.map (firstOutpoint upstream)
  nonempty : ∀ split ∈ earlier, spentOutpoints split ≠ []

/-- No UTXO that is spent from the wallet is the first output of a split. -/
def OutputsNew (upstream : Upstream)
    (splits : List WalletSignableTransaction)
    (utxos : List WalletUtxo) : Prop :=
  ∀ split ∈ splits, firstOutpoint upstream split ∉
    utxos.map WalletUtxo.outpoint

/-- One round keeps the inputs distinct if it adds no UTXO again. -/
theorem Progress.step {earlier : List WalletSignableTransaction}
    {added : List WalletUtxo}
    (progress : Progress upstream request.selectedUtxos earlier added current)
    (compounded : generator.compoundRound upstream request replies manager
      round current transactionMass = .ok done)
    (storeDistinct :
      (manager.utxosSortedByAmount.map WalletUtxo.outpoint).Nodup)
    (stored : ∀ utxo ∈ request.selectedUtxos ++ added,
      utxo ∈ manager.utxosSortedByAmount)
    (collisionFree : CollisionFree upstream (earlier ++ done.splits))
    (outputsNew : OutputsNew upstream (earlier ++ done.splits)
      (request.selectedUtxos ++ added ++ done.plan.additionalUtxos))
    (again : ∀ utxo ∈ done.plan.additionalUtxos, utxo ∉ added) :
    Progress upstream request.selectedUtxos (earlier ++ done.splits)
      (added ++ done.plan.additionalUtxos) done.merge := by
  have made := (compoundRound_eq_ok.mp compounded).1
  have partition := (partitions_of_splitTransactions made).1
  obtain ⟨sublist, addable⟩ := additionalUtxos_spec compounded
  have consumed : (earlier ++ done.splits).flatMap spentOutpoints =
      earlier.flatMap spentOutpoints ++ spentOutpoints current := by
    rw [List.flatMap_append, partition.spent]
  have nonempty : ∀ split ∈ earlier ++ done.splits,
      spentOutpoints split ≠ [] := by
    intro split member
    rcases List.mem_append.mp member with before | now
    · exact progress.nonempty split before
    · exact partition.nonempty split now
  have firsts := nodup_firstOutpoints (by rw [consumed]; exact
    progress.distinct) nonempty collisionFree
  rw [List.map_append, List.nodup_append'] at firsts
  obtain ⟨-, firstsNow, firstsApart⟩ := firsts
  have isNew : ∀ split ∈ earlier ++ done.splits, ∀ utxo ∈
      request.selectedUtxos ++ added ++ done.plan.additionalUtxos,
      utxo.outpoint ≠ firstOutpoint upstream split := by
    intro split member utxo spent same
    exact outputsNew split member (List.mem_map.mpr ⟨utxo, spent, same⟩)
  refine ⟨?_, ?_, nonempty⟩
  · rw [consumed, spentOutpoints_merge compounded]
    refine List.nodup_append'.mpr ⟨progress.distinct,
      List.nodup_append'.mpr ⟨firstsNow, ?_, ?_⟩, ?_⟩
    · exact storeDistinct.sublist (sublist.map WalletUtxo.outpoint)
    · intro outpoint ofSplit ofAdded
      obtain ⟨split, member, rfl⟩ := List.mem_map.mp ofSplit
      obtain ⟨utxo, inAdded, same⟩ := List.mem_map.mp ofAdded
      exact isNew split (List.mem_append_right _ member) utxo
        (List.mem_append_right _ inAdded) same
    · intro outpoint old fresh
      rcases List.mem_append.mp fresh with ofSplit | ofAdded
      · obtain ⟨split, member, rfl⟩ := List.mem_map.mp ofSplit
        rcases progress.origin _ old with ofWallet | ofEarlier
        · obtain ⟨utxo, spent, same⟩ := List.mem_map.mp ofWallet
          exact isNew split (List.mem_append_right _ member) utxo
            (List.mem_append_left _ spent) same
        · exact firstsApart ofEarlier ofSplit
      · obtain ⟨utxo, inAdded, rfl⟩ := List.mem_map.mp ofAdded
        rcases progress.origin _ old with ofWallet | ofEarlier
        · obtain ⟨other, spent, same⟩ := List.mem_map.mp ofWallet
          obtain rfl : other = utxo :=
            List.inj_on_of_nodup_map storeDistinct (stored other spent)
              (sublist.subset inAdded) same
          obtain ⟨_, -, unselected, -⟩ := addable other inAdded
          rcases List.mem_append.mp spent with selected | before
          · exact unselected selected
          · exact again other inAdded before
        · obtain ⟨split, member, same⟩ := List.mem_map.mp ofEarlier
          exact isNew split (List.mem_append_left _ member) utxo
            (List.mem_append_right _ inAdded) same.symm
  · intro outpoint spent
    rw [consumed, spentOutpoints_merge compounded] at spent
    simp only [List.map_append, List.mem_append] at spent ⊢
    have known := progress.origin outpoint
    simp only [List.map_append, List.mem_append] at known
    tauto

/-- No UTXO is added in two rounds. -/
def AddsApart (rounds : List CompoundRound) : Prop :=
  rounds.Pairwise fun earlier later =>
    ∀ utxo ∈ earlier.plan.additionalUtxos,
      utxo ∉ later.plan.additionalUtxos

/-- At most one round adds UTXOs. -/
def AddsOnce (rounds : List CompoundRound) : Prop :=
  rounds.Pairwise fun earlier later =>
    earlier.plan.additionalUtxos = [] ∨ later.plan.additionalUtxos = []

/-- The rounds of a compounding keep the inputs distinct if no UTXO is added
again. -/
theorem Progress.run {earlier : List WalletSignableTransaction}
    {added : List WalletUtxo} {compounding : Compounding}
    (progress : Progress upstream request.selectedUtxos earlier added current)
    (compounds : Compounds upstream generator request replies manager round
      current compounding)
    (storeDistinct :
      (manager.utxosSortedByAmount.map WalletUtxo.outpoint).Nodup)
    (stored : ∀ utxo ∈ request.selectedUtxos ++ added,
      utxo ∈ manager.utxosSortedByAmount)
    (collisionFree : CollisionFree upstream
      (earlier ++ allSplits compounding.rounds))
    (outputsNew : OutputsNew upstream
      (earlier ++ allSplits compounding.rounds)
      (request.selectedUtxos ++ added ++ allAdded compounding.rounds))
    (apart : AddsApart compounding.rounds)
    (again : ∀ utxo ∈ allAdded compounding.rounds, utxo ∉ added) :
    Progress upstream request.selectedUtxos
      (earlier ++ allSplits compounding.rounds)
      (added ++ allAdded compounding.rounds) compounding.last := by
  induction compounds generalizing earlier added with
  | light => simpa [allSplits, allAdded] using progress
  | @heavy round original transactionMass done rest compounded _ ih =>
      simp only [allSplits, allAdded, List.flatMap_cons,
        ← List.append_assoc] at collisionFree outputsNew again ⊢
      rw [AddsApart, List.pairwise_cons] at apart
      obtain ⟨apartNow, apartLater⟩ := apart
      rw [List.forall_mem_append] at again
      obtain ⟨againNow, againLater⟩ := again
      have next := progress.step compounded storeDistinct stored
        (fun first inFirst second inSecond =>
          collisionFree first (List.mem_append_left _ inFirst) second
            (List.mem_append_left _ inSecond))
        (by
          intro split member spent
          refine outputsNew split (List.mem_append_left _ member) ?_
          rw [List.map_append]
          exact List.mem_append_left _ spent)
        againNow
      refine ih next ?_ collisionFree ?_ apartLater ?_
      · intro utxo member
        rw [← List.append_assoc] at member
        rcases List.mem_append.mp member with before | now
        · exact stored utxo before
        · exact (additionalUtxos_spec compounded).1.subset now
      · rw [← List.append_assoc]
        exact outputsNew
      · intro utxo member inAdded
        rcases List.mem_append.mp inAdded with before | now
        · exact againLater utxo member before
        · obtain ⟨later, inRest, inLater⟩ := List.mem_flatMap.mp member
          exact apartNow later inRest utxo now inLater

/-- The outpoints that a batch spends: those of its first transaction, the
first outputs of the splits, and the added UTXOs. -/
theorem Compounds.spentOutpoints_perm {compounding : Compounding}
    (compounds : Compounds upstream generator request replies manager round
      original compounding) :
    (compounding.batch.flatMap spentOutpoints).Perm
      (spentOutpoints original ++
        ((allSplits compounding.rounds).map (firstOutpoint upstream) ++
          (allAdded compounding.rounds).map WalletUtxo.outpoint)) := by
  have merges : (compounding.rounds.flatMap fun done =>
      spentOutpoints done.merge) =
      compounding.rounds.flatMap fun done =>
        done.splits.map (firstOutpoint upstream) ++
          done.plan.additionalUtxos.map WalletUtxo.outpoint := by
    rw [List.flatMap_def, List.flatMap_def]
    congr 1
    apply List.map_congr_left
    intro done member
    obtain ⟨round, mass, compounded⟩ := compounds.compoundRound done member
    exact spentOutpoints_merge compounded
  rw [compounds.flatMap_spentOutpoints, merges, allSplits, allAdded,
    List.map_flatMap, List.map_flatMap]
  exact (List.flatMap_append_perm _ _ _).symm.append_left _

/-- The inputs of a batch are distinct if and only if no UTXO is added twice
and no wallet UTXO that is spent is an output of a split. -/
theorem Compounds.distinct_iff {compounding : Compounding}
    (compounds : Compounds upstream generator request replies manager round
      original compounding)
    (storeDistinct :
      (manager.utxosSortedByAmount.map WalletUtxo.outpoint).Nodup)
    (selects : spentOutpoints original =
      request.selectedUtxos.map WalletUtxo.outpoint)
    (selectedDistinct :
      (request.selectedUtxos.map WalletUtxo.outpoint).Nodup)
    (stored : ∀ utxo ∈ request.selectedUtxos,
      utxo ∈ manager.utxosSortedByAmount)
    (collisionFree :
      CollisionFree upstream (allSplits compounding.rounds)) :
    (compounding.batch.flatMap spentOutpoints).Nodup ↔
      AddsApart compounding.rounds ∧
        OutputsNew upstream (allSplits compounding.rounds)
          (request.selectedUtxos ++ allAdded compounding.rounds) := by
  constructor
  · intro distinct
    rw [compounds.spentOutpoints_perm.nodup_iff, selects,
      List.nodup_append', List.nodup_append'] at distinct
    obtain ⟨-, ⟨-, addedDistinct, splitsApart⟩, selectedApart⟩ := distinct
    constructor
    · rw [allAdded, List.map_flatMap, List.nodup_flatMap] at addedDistinct
      refine addedDistinct.2.imp ?_
      intro earlier later disjoint utxo first second
      exact disjoint (List.mem_map_of_mem first) (List.mem_map_of_mem second)
    · intro split member spent
      have isFirst :
          firstOutpoint upstream split ∈
            (allSplits compounding.rounds).map (firstOutpoint upstream) :=
        List.mem_map_of_mem member
      rw [List.map_append] at spent
      rcases List.mem_append.mp spent with selected | added
      · exact selectedApart selected (List.mem_append_left _ isFirst)
      · exact splitsApart isFirst added
  · rintro ⟨apart, outputsNew⟩
    have start : Progress upstream request.selectedUtxos [] [] original := by
      refine ⟨?_, ?_, by simp⟩
      · simpa [selects] using selectedDistinct
      · intro outpoint spent
        left
        simpa [selects] using spent
    have finish := start.run compounds storeDistinct (by simpa using stored)
      (by simpa using collisionFree) (by simpa using outputsNew) apart
      (by simp)
    have distinct := finish.distinct
    rw [List.nil_append] at distinct
    simpa [Compounding.batch, allSplits] using distinct

private theorem addsApart_of_addsOnce {rounds : List CompoundRound}
    (once : AddsOnce rounds) : AddsApart rounds := by
  refine List.Pairwise.imp ?_ once
  rintro earlier later (none | none) utxo first second
  · simp [none] at first
  · simp [none] at second

theorem firstCandidate_mem {virtualDaaScore : UInt64}
    (compounded : generator.compoundRound upstream request replies manager
      round original transactionMass = .ok done)
    (asked : replies.virtualDaaScore (round + 1) = .ok virtualDaaScore)
    (adds : done.plan.additionalUtxos ≠ []) :
    ∃ utxo, (candidates manager request virtualDaaScore).head? = some utxo ∧
      utxo ∈ done.plan.additionalUtxos := by
  obtain ⟨-, planning, -, -⟩ := compoundRound_eq_ok.mp compounded
  rcases (planned_of_mergePlan planning).funding with ⟨nothing, -⟩ | funded
  · exact absurd nothing adds
  · obtain ⟨score, _, reply, -, funding⟩ := funded.funding
    obtain rfl : virtualDaaScore = score := by simpa [asked] using reply
    obtain ⟨count, initial, -⟩ := funding.initial
    rw [initial] at adds ⊢
    cases listed : candidates manager request virtualDaaScore with
    | nil => simp [listed] at adds
    | cons first rest =>
        refine ⟨first, rfl, ?_⟩
        cases count with
        | zero => simp at adds
        | succ count => simp

/-- While the node's DAA score stands still, two rounds that add UTXOs both
add the first candidate. -/
theorem Compounds.addsApart_iff {compounding : Compounding}
    (compounds : Compounds upstream generator request replies manager round
      original compounding)
    (still : ∀ query,
      replies.virtualDaaScore (query + 1) = replies.virtualDaaScore 1) :
    AddsApart compounding.rounds ↔ AddsOnce compounding.rounds := by
  refine ⟨?_, addsApart_of_addsOnce⟩
  intro apart
  refine List.Pairwise.imp_of_mem ?_ apart
  intro earlier later inEarlier inLater disjoint
  by_contra both
  rw [not_or] at both
  obtain ⟨_, _, first⟩ := compounds.compoundRound earlier inEarlier
  obtain ⟨_, _, second⟩ := compounds.compoundRound later inLater
  obtain ⟨utxo, member⟩ := List.exists_mem_of_ne_nil _ both.1
  obtain ⟨score, asked, -⟩ := (additionalUtxos_spec first).2 utxo member
  have askedAgain := asked
  rw [still, ← still] at askedAgain
  obtain ⟨candidate, isFirst, inFirst⟩ :=
    firstCandidate_mem first asked both.1
  obtain ⟨other, isOther, inSecond⟩ :=
    firstCandidate_mem second askedAgain both.2
  obtain rfl : candidate = other := by simpa [isFirst] using isOther
  exact disjoint candidate inFirst inSecond

variable {unsigned : WalletSignableTransaction} {fuel : Nat}
  {compounding : Compounding}

variable (upstream generator request replies manager unsigned) in
/-- The UTXOs that two rounds draw from the store are different ones. -/
def DrawsApart : Prop :=
  ∀ earlier later,
    RoundTaken upstream generator request replies manager unsigned earlier →
    RoundTaken upstream generator request replies manager unsigned later →
    earlier.1 < later.1 →
    ∀ first second,
      Draws upstream generator request replies manager earlier.1 earlier.2
        first →
      Draws upstream generator request replies manager later.1 later.2
        second →
      List.Disjoint first second

variable (upstream generator request replies manager unsigned) in
/-- At most one round is short. -/
def ShortOnce : Prop :=
  ∀ earlier later,
    RoundTaken upstream generator request replies manager unsigned earlier →
    RoundTaken upstream generator request replies manager unsigned later →
    FallsShort upstream generator request earlier.2 →
    FallsShort upstream generator request later.2 →
    earlier.1 = later.1

theorem addsApart_iff_drawsApart
    (built : Built upstream generator unsigned)
    (compounded : generator.compound upstream request replies manager fuel 0
      unsigned = .ok compounding) :
    AddsApart compounding.rounds ↔
      DrawsApart upstream generator request replies manager unsigned := by
  rw [AddsApart, List.pairwise_iff_getElem]
  constructor
  · intro apart earlier later before beforeLater ordered first second draws
      drawsAgain utxo inFirst inSecond
    obtain ⟨done, found, taken⟩ := round_of_roundTaken compounded before
    obtain ⟨again, foundAgain, takenAgain⟩ :=
      round_of_roundTaken compounded beforeLater
    obtain ⟨inside, rfl⟩ := List.getElem?_eq_some_iff.mp found
    obtain ⟨insideAgain, rfl⟩ := List.getElem?_eq_some_iff.mp foundAgain
    obtain ⟨-, rfl⟩ :=
      (draws_iff_of_roundStep (before.built built) taken).mp draws
    obtain ⟨-, rfl⟩ := (draws_iff_of_roundStep (beforeLater.built built)
      takenAgain).mp drawsAgain
    exact apart _ _ inside insideAgain ordered utxo inFirst inSecond
  · intro apart position laterPosition inside insideLater ordered utxo inFirst
      inSecond
    obtain ⟨earlier, before, rfl, taken⟩ := roundTaken_of_round compounded
      (List.getElem?_eq_getElem inside)
    obtain ⟨later, beforeLater, rfl, takenLater⟩ :=
      roundTaken_of_round compounded (List.getElem?_eq_getElem insideLater)
    have draws := (draws_iff_of_roundStep (before.built built) taken).mpr
      ⟨List.ne_nil_of_mem inFirst, rfl⟩
    have drawsLater := (draws_iff_of_roundStep (beforeLater.built built)
      takenLater).mpr ⟨List.ne_nil_of_mem inSecond, rfl⟩
    exact apart earlier later before beforeLater ordered _ _ draws drawsLater
      inFirst inSecond

theorem addsOnce_iff_shortOnce
    (built : Built upstream generator unsigned)
    (compounded : generator.compound upstream request replies manager fuel 0
      unsigned = .ok compounding) :
    AddsOnce compounding.rounds ↔
      ShortOnce upstream generator request replies manager unsigned := by
  rw [AddsOnce, List.pairwise_iff_getElem]
  constructor
  · intro once earlier later before beforeLater short shortLater
    obtain ⟨done, found, taken⟩ := round_of_roundTaken compounded before
    obtain ⟨again, foundAgain, takenAgain⟩ :=
      round_of_roundTaken compounded beforeLater
    obtain ⟨inside, rfl⟩ := List.getElem?_eq_some_iff.mp found
    obtain ⟨insideAgain, rfl⟩ := List.getElem?_eq_some_iff.mp foundAgain
    rw [fallsShort_iff_of_roundStep (before.built built) taken] at short
    rw [fallsShort_iff_of_roundStep (beforeLater.built built) takenAgain]
      at shortLater
    rcases Nat.lt_trichotomy earlier.1 later.1 with first | same | second
    · rcases once _ _ inside insideAgain first with none | none
      · exact absurd none short
      · exact absurd none shortLater
    · exact same
    · rcases once _ _ insideAgain inside second with none | none
      · exact absurd none shortLater
      · exact absurd none short
  · intro once position laterPosition inside insideLater ordered
    by_contra both
    rw [not_or] at both
    obtain ⟨earlier, before, rfl, taken⟩ := roundTaken_of_round compounded
      (List.getElem?_eq_getElem inside)
    obtain ⟨later, beforeLater, rfl, takenLater⟩ :=
      roundTaken_of_round compounded (List.getElem?_eq_getElem insideLater)
    have same := once earlier later before beforeLater
      ((fallsShort_iff_of_roundStep (before.built built) taken).mpr both.1)
      ((fallsShort_iff_of_roundStep (beforeLater.built built)
        takenLater).mpr both.2)
    omega

end SpendOnce

section Batch

variable {upstream : Upstream} {generator : TransactionGenerator}
  {surroundings : Surroundings} {manager : UtxoManager}
  {addressManager : AddressManager} {description : TransactionDescription}

theorem availableUtxos_spec {preselected : List WalletUtxo}
    (consistent : manager.Consistent)
    (order : IterationOrder WalletOutpoint WalletUtxo)
    (found : Outcome.collect (preselectedUtxo upstream manager)
      description.utxos = .ok preselected) :
    let available := availableUtxos order manager
      (HashMap.insertAll WalletUtxo.outpoint ∅ preselected)
    (∀ utxo ∈ available, utxo ∈ manager.utxosSortedByAmount) ∧
      (available.map WalletUtxo.outpoint).Nodup := by
  intro available
  by_cases nothing : (HashMap.insertAll WalletUtxo.outpoint ∅
      preselected).entries.isEmpty
  · have whole : available = manager.utxosSortedByAmount := if_pos nothing
    rw [whole]
    exact ⟨fun _ member => member, consistent.distinct⟩
  · have chosen : available = (order.entries _).map Prod.snd := if_neg nothing
    have visited : available.Perm (HashMap.values
        (HashMap.insertAll WalletUtxo.outpoint ∅ preselected)) := by
      rw [chosen]
      have listed := (order.perm (HashMap.insertAll WalletUtxo.outpoint ∅
        preselected)).map Prod.snd
      simpa [HashMap.values, Function.comp_def] using listed
    have keyed := (HashMap.keyed_empty WalletUtxo.outpoint).insertAll
      preselected
    constructor
    · intro utxo member
      obtain ⟨key, stored⟩ :=
        HashMap.mem_values_iff.mp (visited.mem_iff.mp member)
      rcases HashMap.lookup_insertAll stored with ⟨inList, -⟩ | ⟨-, absurdly⟩
      · obtain ⟨message, -, read⟩ :=
          Outcome.exists_of_mem_collect found inList
        simp only [preselectedUtxo, Outcome.bind_eq_ok,
          Outcome.ofOption_eq_ok] at read
        obtain ⟨outpoint, -, looked⟩ := read
        rw [consistent.agree.mem_iff]
        exact HashMap.mem_values_iff.mpr ⟨outpoint, looked⟩
      · simp at absurdly
    · rw [(visited.map WalletUtxo.outpoint).nodup_iff]
      exact keyed.nodup_values

theorem Prepared.selectedUtxos_mem_store {request : CompoundingRequest}
    {unsigned : WalletSignableTransaction} (consistent : manager.Consistent)
    (prepared : Prepared upstream generator surroundings manager
      addressManager description request unsigned) :
    ∀ utxo ∈ request.selectedUtxos, utxo ∈ manager.utxosSortedByAmount := by
  obtain ⟨preselected, -, -, -, found, -, stored_eq⟩ :=
    checkDescription_eq_ok.mp prepared.accepted
  have available :=
    (availableUtxos_spec consistent surroundings.order found).1
  rw [← stored_eq] at available
  intro utxo member
  exact available utxo
    ((selected_of_selectUtxos prepared.selected).sublist.subset member)

/-- No outpoint is spent twice, and every input is a spendable UTXO of the
wallet or the first output of an earlier split. -/
structure SpendsOnce (upstream : Upstream) (replies : NodeReplies)
    (manager : UtxoManager) (fromAddresses : List WalletAddress)
    (batch : List WalletSignableTransaction) : Prop where
  distinct : (batch.flatMap spentOutpoints).Nodup
  sourced : Sourced upstream
    (SpendableOutpoint replies manager fromAddresses) [] batch

/-- The ids of a batch are new: they tell its transactions apart, and the
store holds no output under any of them. -/
structure IdsNew (upstream : Upstream) (manager : UtxoManager)
    (batch : List WalletSignableTransaction) : Prop where
  distinct : CollisionFree upstream batch
  fresh : ∀ transaction ∈ batch, ∀ utxo ∈ manager.utxosSortedByAmount,
    utxo.outpoint.transactionId ≠ upstream.transactionId transaction.tx

theorem Prepared.sourced {fuel : Nat} {request : CompoundingRequest}
    {unsigned : WalletSignableTransaction} {compounding : Compounding}
    (consistent : manager.Consistent)
    (prepared : Prepared upstream generator surroundings manager
      addressManager description request unsigned)
    (compounded : generator.compound upstream request surroundings.replies
      manager fuel 0 unsigned = .ok compounding) :
    Sourced upstream (SpendableOutpoint surroundings.replies manager
      request.fromAddresses) [] compounding.batch := by
  have selected := selected_of_selectUtxos prepared.selected
  have stored := prepared.selectedUtxos_mem_store consistent
  have compounds := compounds_of_compound compounded
  have fromAddresses : request.fromAddresses =
      prepared.checked.fromAddresses :=
    congrArg CompoundingRequest.fromAddresses prepared.request_eq
  apply compounds.sourced
  · intro outpoint spent
    rw [spentOutpoints_of_generateUnsignedTransaction prepared.generated]
      at spent
    obtain ⟨utxo, member, rfl⟩ := List.mem_map.mp spent
    obtain ⟨score, asked, usable⟩ := selected.usable
    rw [fromAddresses]
    exact .inl ⟨utxo, stored utxo member, rfl, 0, score, asked,
      usable utxo member⟩
  · intro utxo member
    obtain ⟨done, inRounds, isAdded⟩ := List.mem_flatMap.mp member
    obtain ⟨round, _, performed⟩ := compounds.compoundRound done inRounds
    obtain ⟨sublist, addable⟩ := additionalUtxos_spec performed
    obtain ⟨score, asked, -, usable⟩ := addable utxo isAdded
    exact ⟨utxo, sublist.subset isAdded, rfl, round + 1, score, asked,
      usable⟩

theorem IdsNew.outputsNew {compounding : Compounding}
    {utxos : List WalletUtxo}
    (idsNew : IdsNew upstream manager compounding.batch)
    (stored : ∀ utxo ∈ utxos, utxo ∈ manager.utxosSortedByAmount) :
    OutputsNew upstream (allSplits compounding.rounds) utxos := by
  intro split member spent
  obtain ⟨utxo, isSpent, same⟩ := List.mem_map.mp spent
  exact idsNew.fresh split (List.mem_append_left _ member) utxo
    (stored utxo isSpent) (congrArg WalletOutpoint.transactionId same)

/-- A batch spends once if and only if the UTXOs that its rounds draw from the
store are different ones.  While the DAA score stands still this means that at
most one round is short. -/
theorem createUnsignedTransactions_spendsOnce_iff {fuel : Nat}
    {request : CompoundingRequest} {unsigned : WalletSignableTransaction}
    {batch : List WalletSignableTransaction}
    (consistent : manager.Consistent)
    (made : (generator.prepare upstream surroundings manager addressManager
      description).1 = .ok (request, unsigned))
    (created : (generator.createUnsignedTransactions upstream surroundings
      manager addressManager description fuel).1 = .ok batch)
    (idsNew : IdsNew upstream manager batch) :
    (SpendsOnce upstream surroundings.replies manager request.fromAddresses
        batch ↔
      DrawsApart upstream generator request surroundings.replies manager
        unsigned) ∧
    ((∀ query, surroundings.replies.virtualDaaScore (query + 1) =
        surroundings.replies.virtualDaaScore 1) →
      (SpendsOnce upstream surroundings.replies manager
          request.fromAddresses batch ↔
        ShortOnce upstream generator request surroundings.replies manager
          unsigned)) := by
  obtain ⟨_, _, compounding, madeAgain, compounded, rfl⟩ :=
    exists_compounding created
  obtain ⟨rfl, rfl⟩ := Prod.mk.inj (Except.ok.inj (made.symm.trans madeAgain))
  obtain ⟨prepared⟩ := prepared_of_prepare made
  have built := (ready_of_prepare made).built
  have compounds := compounds_of_compound compounded
  obtain ⟨preselected, -, -, -, found, -, stored_eq⟩ :=
    checkDescription_eq_ok.mp prepared.accepted
  have selected := selected_of_selectUtxos prepared.selected
  have availableDistinct :=
    (availableUtxos_spec consistent surroundings.order found).2
  rw [← stored_eq] at availableDistinct
  have stored := prepared.selectedUtxos_mem_store consistent
  have spent : ∀ utxo ∈ request.selectedUtxos ++ allAdded compounding.rounds,
      utxo ∈ manager.utxosSortedByAmount := by
    intro utxo member
    rcases List.mem_append.mp member with isSelected | isAdded
    · exact stored utxo isSelected
    · obtain ⟨done, inRounds, inPlan⟩ := List.mem_flatMap.mp isAdded
      obtain ⟨_, _, performed⟩ := compounds.compoundRound done inRounds
      exact (additionalUtxos_spec performed).1.subset inPlan
  have once : SpendsOnce upstream surroundings.replies manager
      request.fromAddresses compounding.batch ↔
        AddsApart compounding.rounds := by
    have exactly := compounds.distinct_iff consistent.distinct
      (spentOutpoints_of_generateUnsignedTransaction prepared.generated)
      (availableDistinct.sublist (selected.sublist.map _)) stored
      (fun first inFirst second inSecond => idsNew.distinct first
        (List.mem_append_left _ inFirst) second
        (List.mem_append_left _ inSecond))
    rw [and_iff_left (idsNew.outputsNew spent)] at exactly
    rw [← exactly]
    exact ⟨SpendsOnce.distinct, fun distinct =>
      ⟨distinct, prepared.sourced consistent compounded⟩⟩
  rw [once]
  refine ⟨addsApart_iff_drawsApart built compounded, ?_⟩
  intro still
  rw [compounds.addsApart_iff still]
  exact addsOnce_iff_shortOnce built compounded

end Batch

section AddedTwice

instance (upstream : Upstream)
    (transactions : List WalletSignableTransaction) :
    Decidable (CollisionFree upstream transactions) :=
  inferInstanceAs (Decidable (∀ first ∈ transactions,
    ∀ second ∈ transactions,
      upstream.transactionId first.tx = upstream.transactionId second.tx →
        first.tx = second.tx))

instance (upstream : Upstream) (manager : UtxoManager)
    (batch : List WalletSignableTransaction) :
    Decidable (IdsNew upstream manager batch) :=
  decidable_of_iff
    (CollisionFree upstream batch ∧
      ∀ transaction ∈ batch, ∀ utxo ∈ manager.utxosSortedByAmount,
        utxo.outpoint.transactionId ≠ upstream.transactionId transaction.tx)
    ⟨fun new => ⟨new.1, new.2⟩, fun new => ⟨new.distinct, new.fresh⟩⟩

theorem shortOnce_of_light {upstream : Upstream}
    {generator : TransactionGenerator} {request : CompoundingRequest}
    {replies : NodeReplies} {manager : UtxoManager}
    {unsigned : WalletSignableTransaction}
    (light : ∀ done next,
      RoundStep upstream generator request replies manager (0, unsigned) done
        next →
      ¬Heavy upstream generator next.2) :
    ShortOnce upstream generator request replies manager unsigned := by
  have first : ∀ state,
      RoundTaken upstream generator request replies manager unsigned state →
        state = (0, unsigned) := by
    rintro state ⟨⟨rounds, run⟩, -, heavy⟩
    rcases first_or_light_of_run run light with same | lightHere
    · exact same
    · exact absurd heavy lightHere
  intro earlier later before beforeLater _ _
  rw [first earlier before, first later beforeLater]

/-- Seven UTXOs of 22000 sompi and a large one, of a wallet with fifteen
signatures to an input. -/
def sevenSmall : UtxoManager :=
  sampleStore (([10, 11, 12, 13, 14, 15, 16].map
    fun tag => sampleUtxo tag 22000) ++ [sampleUtxo 17 1000000000])

/-- A payment that the seven small UTXOs fund exactly.  Seven inputs are too
heavy, so they are split and merged; the merge adds the large UTXO. -/
def addedOnce : WalletResult (List WalletSignableTransaction) :=
  ((sampleGenerator 15).createUnsignedTransactions devnet
    (sampleSurroundings 1.0) sevenSmall (sampleBook 15)
    (sampleDescription 38087 none) 2).1

private theorem addedOnce_run :
    addedOnce.Returns fun batch =>
      IdsNew devnet sevenSmall batch ∧
      ((sampleGenerator 15).prepare devnet (sampleSurroundings 1.0) sevenSmall
          (sampleBook 15) (sampleDescription 38087 none)).1.Returns
        fun (request, unsigned) =>
          (sampleGenerator 15).checkTransactionFeeRate devnet unsigned =
            .ok () ∧
          computeMassForUnsignedConsensusTransaction devnet unsigned.tx 15 =
            .ok 112800 ∧
          ((sampleGenerator 15).compoundRound devnet request
              (sampleReplies 1.0) sevenSmall 0 unsigned 112800).Returns
            fun done =>
              done.plan.additionalUtxos ≠ [] ∧
                massOf devnet (sampleGenerator 15) done.merge.tx <
                  100000 := by
  decide +kernel

theorem consistent_sampleStore {utxos : List WalletUtxo}
    (distinct : (utxos.map WalletUtxo.outpoint).Nodup) :
    (sampleStore utxos).Consistent :=
  UtxoManager.consistent_rebuild _ distinct

theorem addedOnce_spendsOnce :
    ∃ request unsigned batch,
      ((sampleGenerator 15).prepare devnet (sampleSurroundings 1.0) sevenSmall
        (sampleBook 15) (sampleDescription 38087 none)).1 =
          .ok (request, unsigned) ∧
      addedOnce = .ok batch ∧
      FallsShort devnet (sampleGenerator 15) request unsigned ∧
      SpendsOnce devnet (sampleReplies 1.0) sevenSmall request.fromAddresses
        batch := by
  obtain ⟨batch, created, idsNew, ⟨request, unsigned⟩, made, checked, weighed,
    done, compounded, adds, light⟩ := addedOnce_run
  have built := (ready_of_prepare made).built
  have short := (fallsShort_iff_of_compoundRound built weighed compounded).mpr
    adds
  have once : ShortOnce devnet (sampleGenerator 15) request
      (sampleReplies 1.0) sevenSmall unsigned := by
    apply shortOnce_of_light
    rintro other next ⟨-, -, ⟨mass, weighedAgain, compoundedAgain⟩, rfl⟩
    obtain rfl := Except.ok.inj (weighed.symm.trans weighedAgain)
    obtain rfl := Except.ok.inj (compounded.symm.trans compoundedAgain)
    exact Nat.not_le.mpr light
  have exactly := createUnsignedTransactions_spendsOnce_iff
    (consistent_sampleStore (by decide +kernel)) made created idsNew
  exact ⟨request, unsigned, batch, made, created, short,
    (exactly.2 fun _ => rfl).mpr once⟩

/-- Eleven UTXOs of 22000 sompi and one of 38000. -/
def heavyUtxos : List WalletUtxo :=
  ([10, 11, 12, 13, 14, 15, 16, 17, 18, 19, 20].map
    fun tag => sampleUtxo tag 22000) ++ [sampleUtxo 21 38000]

/-- The same payment from a wallet with more small UTXOs: the merge adds five
of them and is too heavy again. -/
def addedTwice : WalletResult (List WalletSignableTransaction) :=
  ((sampleGenerator 15).createUnsignedTransactions devnet
    (sampleSurroundings 1.0) (sampleStore heavyUtxos) (sampleBook 15)
    (sampleDescription 38087 none) 3).1

private theorem addedTwice_run :
    addedTwice.Returns fun batch =>
      IdsNew devnet (sampleStore heavyUtxos) batch ∧
        (batch.flatMap spentOutpoints).count (sampleUtxo 17 0).outpoint =
          2 := by
  decide +kernel

/-- The second merge transaction adds a UTXO that the first one added, and
that a split of the second round already spends. -/
theorem addedTwice_spends_twice :
    (sampleStore heavyUtxos).Consistent ∧
      ∃ batch, addedTwice = .ok batch ∧
        IdsNew devnet (sampleStore heavyUtxos) batch ∧
        ¬(batch.flatMap spentOutpoints).Nodup := by
  obtain ⟨batch, created, idsNew, twice⟩ := addedTwice_run
  refine ⟨consistent_sampleStore (by decide +kernel), batch, created, idsNew,
    ?_⟩
  intro distinct
  have once :=
    List.nodup_iff_count_le_one.mp distinct (sampleUtxo 17 0).outpoint
  omega

end AddedTwice

end TransactionGenerator

end Kaswallet

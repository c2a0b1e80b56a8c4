import Mathlib.Data.List.Induction
import Mathlib.Data.List.Nodup
import Mathlib.Data.Set.Lattice
import Mathlib.Order.CompletePartialOrder

/-!
# Transactions over a set of coins

A transaction takes the coins it spends out of a set and puts the coins it
pays into it.  Two questions are asked of a list of transactions applied in
order: whether the coins they spend stay out of the set, and which of them can
be paid for when each is applied only if its coins are there.  Both have a
plain answer when no transaction spends what it or a later one pays.
-/

namespace Spending

variable {Coin Tx : Type} (spends pays : Tx → Set Coin)

/-- The coins after one transaction. -/
def apply (coins : Set Coin) (tx : Tx) : Set Coin :=
  (coins \ spends tx) ∪ pays tx

def applyAll (coins : Set Coin) (txs : List Tx) : Set Coin :=
  txs.foldl (apply spends pays) coins

open Classical in
/-- The transactions that are applied when each one is skipped unless all its
coins are there at its turn. -/
noncomputable def retained : Set Coin → List Tx → List Tx
  | _, [] => []
  | coins, tx :: rest =>
      if spends tx ⊆ coins then
        tx :: retained (apply spends pays coins tx) rest
      else retained coins rest

/-- No transaction of the list spends what it or a later one pays. -/
structure Ordered (txs : List Tx) : Prop where
  own : ∀ tx ∈ txs, Disjoint (spends tx) (pays tx)
  later : txs.Pairwise fun earlier later =>
    Disjoint (spends earlier) (pays later)

variable {spends pays} {coins : Set Coin} {txs front back : List Tx}
  {tx : Tx} {coin : Coin}

theorem mem_apply :
    coin ∈ apply spends pays coins tx ↔
      (coin ∈ coins ∧ coin ∉ spends tx) ∨ coin ∈ pays tx :=
  Iff.rfl

theorem applyAll_append :
    applyAll spends pays coins (front ++ back) =
      applyAll spends pays (applyAll spends pays coins front) back :=
  List.foldl_append

section Order

theorem Ordered.sublist (ordered : Ordered spends pays txs)
    (kept : front.Sublist txs) : Ordered spends pays front where
  own := fun tx member => ordered.own tx (kept.subset member)
  later := ordered.later.sublist kept

/-- Paying less keeps the order. -/
theorem Ordered.mono {fewer : Tx → Set Coin}
    (ordered : Ordered spends pays txs)
    (less : ∀ tx, fewer tx ⊆ pays tx) : Ordered spends fewer txs where
  own := fun tx member => (ordered.own tx member).mono_right (less tx)
  later := ordered.later.imp fun apart => apart.mono_right (less _)

theorem Ordered.notMem_spends_of_pays
    (ordered : Ordered spends pays (txs ++ [tx])) (paid : coin ∈ pays tx) :
    ∀ other ∈ txs ++ [tx], coin ∉ spends other := by
  intro other member spent
  rcases List.mem_append.mp member with earlier | last
  · have apart := (List.pairwise_append.mp ordered.later).2.2 other earlier
      tx (List.mem_singleton_self tx)
    exact Set.disjoint_left.mp apart spent paid
  · obtain rfl := List.mem_singleton.mp last
    exact Set.disjoint_left.mp (ordered.own other member) spent paid

/-- In an ordered list, what is left is what was there or was paid, less what
was spent. -/
theorem mem_applyAll (ordered : Ordered spends pays txs) :
    coin ∈ applyAll spends pays coins txs ↔
      (coin ∈ coins ∨ ∃ tx ∈ txs, coin ∈ pays tx) ∧
        ∀ tx ∈ txs, coin ∉ spends tx := by
  induction txs using List.reverseRecOn with
  | nil => simp [applyAll]
  | append_singleton txs tx ih =>
      have earlier := ih (ordered.sublist (List.sublist_append_left txs [tx]))
      rw [applyAll_append]
      show coin ∈ apply spends pays (applyAll spends pays coins txs) tx ↔ _
      rw [mem_apply, earlier]
      constructor
      · rintro (⟨⟨source, kept⟩, unspent⟩ | paid)
        · refine ⟨source.imp_right ?_, ?_⟩
          · rintro ⟨other, member, paid⟩
            exact ⟨other, List.mem_append_left [tx] member, paid⟩
          · intro other member
            rcases List.mem_append.mp member with among | last
            · exact kept other among
            · exact List.mem_singleton.mp last ▸ unspent
        · exact ⟨Or.inr ⟨tx, by simp, paid⟩,
            ordered.notMem_spends_of_pays paid⟩
      · rintro ⟨source, unspent⟩
        have keptEarlier : ∀ other ∈ txs, coin ∉ spends other :=
          fun other member => unspent other (List.mem_append_left [tx] member)
        have keptLast : coin ∉ spends tx := unspent tx (by simp)
        rcases source with there | ⟨other, member, paid⟩
        · exact Or.inl ⟨⟨Or.inl there, keptEarlier⟩, keptLast⟩
        · rcases List.mem_append.mp member with among | last
          · exact Or.inl
              ⟨⟨Or.inr ⟨other, among, paid⟩, keptEarlier⟩, keptLast⟩
          · exact Or.inr (List.mem_singleton.mp last ▸ paid)

end Order

section Retention

theorem retained_sublist :
    (retained spends pays coins txs).Sublist txs := by
  induction txs generalizing coins with
  | nil => exact List.Sublist.refl []
  | cons tx rest ih =>
      unfold retained
      split
      · exact ih.cons_cons tx
      · exact ih.cons tx

theorem retained_append :
    retained spends pays coins (front ++ back) =
      retained spends pays coins front ++
        retained spends pays
          (applyAll spends pays coins (retained spends pays coins front))
          back := by
  induction front generalizing coins with
  | nil => rfl
  | cons tx rest ih =>
      simp only [List.cons_append, retained]
      split
      · rw [ih]
        rfl
      · exact ih

/-- A transaction is retained exactly when its coins are there after the ones
retained before it. -/
theorem mem_retained (distinct : (front ++ tx :: back).Nodup) :
    tx ∈ retained spends pays coins (front ++ tx :: back) ↔
      spends tx ⊆ applyAll spends pays coins
        (retained spends pays coins front) := by
  have notFront : tx ∉ front := by
    intro member
    exact (List.nodup_append'.mp distinct).2.2 member List.mem_cons_self
  have notBack : tx ∉ back :=
    (List.nodup_cons.mp (List.nodup_append'.mp distinct).2.1).1
  rw [retained_append, List.mem_append]
  constructor
  · rintro (early | atTurn)
    · exact absurd (retained_sublist.subset early) notFront
    · unfold retained at atTurn
      split at atTurn
      · rename_i covered
        exact covered
      · exact absurd (retained_sublist.subset atTurn) notBack
  · intro covered
    right
    unfold retained
    rw [if_pos covered]
    exact List.mem_cons_self

/-- The ones retained before a transaction are those of the whole list that
come before it. -/
theorem mem_retained_front (distinct : (front ++ back).Nodup)
    (early : tx ∈ front) :
    tx ∈ retained spends pays coins (front ++ back) ↔
      tx ∈ retained spends pays coins front := by
  rw [retained_append, List.mem_append]
  constructor
  · rintro (member | late)
    · exact member
    · exact absurd (retained_sublist.subset late)
        ((List.nodup_append'.mp distinct).2.2 early)
  · exact Or.inl

end Retention

section Funding

/-- Each transaction finds its coins at its turn. -/
def Funded (spends pays : Tx → Set Coin) : Set Coin → List Tx → Prop
  | _, [] => True
  | coins, tx :: rest =>
      spends tx ⊆ coins ∧ Funded spends pays (apply spends pays coins tx) rest

theorem apply_mono {more : Tx → Set Coin} {coinsAfter : Set Coin}
    (coinsLess : coins ⊆ coinsAfter) (paysLess : pays tx ⊆ more tx) :
    apply spends pays coins tx ⊆ apply spends more coinsAfter tx :=
  Set.union_subset_union (Set.sdiff_subset_sdiff_left coinsLess) paysLess

theorem Funded.mono {more : Tx → Set Coin} {coinsAfter : Set Coin}
    (funded : Funded spends pays coins txs) (coinsLess : coins ⊆ coinsAfter)
    (paysLess : ∀ tx, pays tx ⊆ more tx) :
    Funded spends more coinsAfter txs := by
  induction txs generalizing coins coinsAfter with
  | nil => exact True.intro
  | cons tx rest ih =>
      exact ⟨funded.1.trans coinsLess,
        ih funded.2 (apply_mono coinsLess (paysLess tx))⟩

theorem funded_append :
    Funded spends pays coins (front ++ back) ↔
      Funded spends pays coins front ∧
        Funded spends pays (applyAll spends pays coins front) back := by
  induction front generalizing coins with
  | nil => simp [Funded, applyAll]
  | cons tx rest ih =>
      simp only [List.cons_append, Funded, ih, and_assoc]
      rfl

theorem funded_retained :
    Funded spends pays coins (retained spends pays coins txs) := by
  induction txs generalizing coins with
  | nil => exact True.intro
  | cons tx rest ih =>
      unfold retained
      split
      · rename_i covered
        exact ⟨covered, ih⟩
      · exact ih

/-- Transactions that spend apart are funded when each draws on the coins at
the start and on what earlier ones pay. -/
theorem funded_of_sources
    (sources : ∀ front tx back, txs = front ++ tx :: back →
      ∀ coin ∈ spends tx,
        coin ∈ coins ∨ ∃ earlier ∈ front, coin ∈ pays earlier)
    (apart : txs.Pairwise fun earlier later =>
      Disjoint (spends earlier) (spends later)) :
    Funded spends pays coins txs := by
  induction txs generalizing coins with
  | nil => exact True.intro
  | cons first rest ih =>
      obtain ⟨apartFirst, apartRest⟩ := List.pairwise_cons.mp apart
      constructor
      · intro coin spent
        rcases sources [] first rest rfl coin spent with there | ⟨_, none, _⟩
        · exact there
        · cases none
      · refine ih ?_ apartRest
        rintro front tx back rfl coin spent
        have member : tx ∈ front ++ tx :: back := by simp
        have unspent : coin ∉ spends first := fun spentFirst =>
          Set.disjoint_left.mp (apartFirst tx member) spentFirst spent
        rcases sources (first :: front) tx back rfl coin spent with
          there | ⟨earlier, before, paid⟩
        · exact Or.inl (mem_apply.mpr (Or.inl ⟨there, unspent⟩))
        · rcases List.mem_cons.mp before with rfl | inFront
          · exact Or.inl (mem_apply.mpr (Or.inr paid))
          · exact Or.inr ⟨earlier, inFront, paid⟩

/-- Transactions that spend and pay the same are funded alike. -/
theorem Funded.of_forall₂ {others : List Tx}
    (funded : Funded spends pays coins txs)
    (same : List.Forall₂ (fun tx other =>
      spends other = spends tx ∧ pays other = pays tx) txs others) :
    Funded spends pays coins others := by
  induction same generalizing coins with
  | nil => exact True.intro
  | cons first _ ih =>
      obtain ⟨spendsSame, paysSame⟩ := first
      unfold Funded
      rw [apply, spendsSame, paysSame]
      exact ⟨funded.1, ih funded.2⟩

end Funding

section Building

/-- The transactions, applied in order, lead from one set of coins to another.
Each pays at most what it may, and unless it is loose it finds its coins. -/
inductive Builds (spends pays : Tx → Set Coin) (loose : Tx → Prop)
    (start : Set Coin) : List Tx → Set Coin → Prop where
  | start : Builds spends pays loose start [] start
  | extend {txs : List Tx} {coins paid : Set Coin} {tx : Tx} :
      Builds spends pays loose start txs coins → paid ⊆ pays tx →
      loose tx ∨ spends tx ⊆ coins →
      Builds spends pays loose start (txs ++ [tx])
        ((coins \ spends tx) ∪ paid)

variable {loose : Tx → Prop} {start : Set Coin}

theorem Builds.mono {more : Tx → Set Coin} {looser : Tx → Prop}
    (builds : Builds spends pays loose start txs coins)
    (paysLess : ∀ tx, pays tx ⊆ more tx)
    (looseLess : ∀ tx, loose tx → looser tx) :
    Builds spends more looser start txs coins := by
  induction builds with
  | start => exact .start
  | extend _ paid found ih =>
      exact .extend ih (paid.trans (paysLess _)) (found.imp_left (looseLess _))

/-- Without loose transactions all of them are funded. -/
theorem Builds.funded
    (builds : Builds spends pays loose start txs coins)
    (none : ∀ tx ∈ txs, ¬loose tx) :
    Funded spends pays start txs ∧
      coins ⊆ applyAll spends pays start txs := by
  induction builds with
  | start => exact ⟨True.intro, subset_rfl⟩
  | @extend txs coins paid tx _ paidLess found ih =>
      obtain ⟨funded, less⟩ := ih fun other member =>
        none other (List.mem_append_left _ member)
      have there : spends tx ⊆ coins :=
        found.resolve_left (none tx (by simp))
      constructor
      · exact funded_append.mpr ⟨funded, there.trans less, True.intro⟩
      · rw [applyAll_append]
        exact Set.union_subset_union (Set.sdiff_subset_sdiff_left less) paidLess

theorem builds_of_funded (funded : Funded spends pays start txs) :
    Builds spends pays loose start txs (applyAll spends pays start txs) := by
  induction txs using List.reverseRecOn with
  | nil => exact .start
  | append_singleton txs tx ih =>
      obtain ⟨earlier, there, -⟩ := funded_append.mp funded
      rw [applyAll_append]
      exact .extend (ih earlier) subset_rfl (Or.inr there)

/-- In an ordered list, a transaction that is not loose spends nothing that an
earlier one spends, and what was spent is not there. -/
theorem Builds.apart (builds : Builds spends pays loose start txs coins)
    (ordered : Ordered spends pays txs) :
    (txs.Pairwise fun earlier later =>
        loose later ∨ Disjoint (spends earlier) (spends later)) ∧
      ∀ tx ∈ txs, Disjoint (spends tx) coins := by
  induction builds with
  | start => exact ⟨List.Pairwise.nil, by simp⟩
  | @extend txs coins paid tx _ paidLess found ih =>
      obtain ⟨apart, gone⟩ :=
        ih (ordered.sublist (List.sublist_append_left txs [tx]))
      constructor
      · refine List.pairwise_append.mpr
          ⟨apart, List.pairwise_singleton _ tx, ?_⟩
        intro earlier member later last
        obtain rfl := List.mem_singleton.mp last
        exact found.imp_right (gone earlier member).mono_right
      · intro other member
        rw [Set.disjoint_left]
        rintro coin spent (⟨there, unspent⟩ | isPaid)
        · rcases List.mem_append.mp member with earlier | last
          · exact Set.disjoint_left.mp (gone other earlier) spent there
          · exact unspent (List.mem_singleton.mp last ▸ spent)
        · exact ordered.notMem_spends_of_pays (paidLess isPaid) other member
            spent

end Building

end Spending

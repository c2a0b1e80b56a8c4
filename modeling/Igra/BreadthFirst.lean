import Mathlib.Data.List.Induction
import Mathlib.Data.List.Lex
import Mathlib.Data.List.Nodup
import Mathlib.Data.Option.Basic
import Mathlib.Data.Prod.Lex

/-!
# The order of a breadth-first search

A search takes the nodes that it has found one after the other and appends
those of their children that are new.  A path is the list of the positions of
the children that it follows.  Shorter paths come first, and among paths of one
length the lexicographic order decides: the search finds the nodes in the order
of the least paths to them.
-/

namespace BreadthFirst

section Pairs

variable {α : Type} {list front back : List α} {left right : α}

/-- Of two members one stands before the other. -/
theorem pair_sublist_or (leftMember : left ∈ list) (rightMember : right ∈ list)
    (different : left ≠ right) :
    [left, right].Sublist list ∨ [right, left].Sublist list := by
  obtain ⟨front, back, rfl⟩ := List.append_of_mem rightMember
  cases List.mem_append.mp leftMember with
  | inl before =>
      have parts := (List.singleton_sublist.mpr before).append
        (List.singleton_sublist.mpr (@List.mem_cons_self _ right back))
      exact .inl parts
  | inr after =>
      have later : left ∈ back := by
        cases List.mem_cons.mp after with
        | inl same => exact absurd same different
        | inr later => exact later
      have rest := (List.singleton_sublist.mpr later).cons_cons right
      exact .inr (rest.trans (List.sublist_append_right front _))

/-- What stands before a member. -/
theorem pair_sublist_append_cons_iff
    (distinct : (front ++ right :: back).Nodup) :
    [left, right].Sublist (front ++ right :: back) ↔ left ∈ front := by
  have once : right ∉ back :=
    (List.nodup_cons.mp (List.nodup_append.mp distinct).2.1).1
  constructor
  · intro sublist
    obtain ⟨first, second, splits, firstPart, secondPart⟩ :=
      List.sublist_append_iff.mp sublist
    cases first with
    | nil =>
        rw [List.nil_append] at splits
        subst splits
        cases secondPart with
        | cons _ inside => exact absurd (inside.subset (by simp)) once
        | cons_cons _ inside => exact absurd (inside.subset (by simp)) once
    | cons head tail =>
        have same : left = head := (List.cons.inj splits).1
        exact firstPart.subset (same ▸ List.mem_cons_self)
  · intro before
    exact (List.singleton_sublist.mpr before).append
      (List.singleton_sublist.mpr List.mem_cons_self)

end Pairs

section Paths

/-- Paths by their length, then from their first position on. -/
def rank (path : List Nat) : ℕ ×ₗ List ℕ := toLex (path.length, path)

theorem rank_lt_iff {path other : List Nat} :
    rank path < rank other ↔
      path.length < other.length ∨
        path.length = other.length ∧ path < other :=
  Prod.Lex.toLex_lt_toLex

theorem concat_lt_concat_iff {path other : List Nat} {index another : Nat}
    (sameLength : path.length = other.length) :
    path ++ [index] < other ++ [another] ↔
      path < other ∨ path = other ∧ index < another := by
  induction path generalizing other with
  | nil =>
      obtain rfl := List.length_eq_zero_iff.mp sameLength.symm
      simp [List.cons_lt_cons_iff]
  | cons first rest ih =>
      cases other with
      | nil => cases sameLength
      | cons head tail =>
          have rests := @ih tail (Nat.succ.inj sameLength)
          simp only [List.cons_append, List.cons_lt_cons_iff, List.cons.injEq,
            rests]
          tauto

theorem rank_concat_lt_iff {path other : List Nat} {index another : Nat} :
    rank (path ++ [index]) < rank (other ++ [another]) ↔
      rank path < rank other ∨ path = other ∧ index < another := by
  simp only [rank_lt_iff, List.length_append, List.length_singleton,
    Nat.add_lt_add_iff_right, Nat.add_right_cancel_iff]
  by_cases sameLength : path.length = other.length
  · simp only [sameLength, lt_irrefl, false_or, true_and,
      concat_lt_concat_iff sameLength]
  · have different : path ≠ other := fun same => sameLength (by rw [same])
    simp [sameLength, different]

theorem rank_injective : Function.Injective rank := by
  intro path other same
  exact congrArg (fun pair => (ofLex pair).2) same

theorem rank_concat_le {path other : List Nat}
    (le : rank path ≤ rank other) (index : Nat) :
    rank (path ++ [index]) ≤ rank (other ++ [index]) := by
  cases le.lt_or_eq with
  | inl less => exact (rank_concat_lt_iff.mpr (.inl less)).le
  | inr same => rw [rank_injective same]

end Paths

variable {α : Type} (next : α → List α) (root : α)

/-- The node that a path from the root leads to. -/
def target (path : List Nat) : Option α :=
  path.foldlM (fun node index => (next node)[index]?) root

theorem target_concat (path : List Nat) (index : Nat) :
    target next root (path ++ [index]) =
      (target next root path).bind fun node => (next node)[index]? := by
  unfold target
  rw [List.foldlM_append]
  simp

def Reached (node : α) : Prop := ∃ path, target next root path = some node

/-- Every path to a node has a path to an earlier node before it. -/
def Sooner (earlier later : α) : Prop :=
  ∀ path, target next root path = some later →
    ∃ other, target next root other = some earlier ∧ rank other < rank path

variable {next root} in
/-- What holds of the root and of the children of what it holds of. -/
theorem Reached.preserves {motive : α → Prop} {node : α}
    (reached : Reached next root node) (initially : motive root)
    (preserved : ∀ parent child, motive parent → child ∈ next parent →
      motive child) : motive node := by
  obtain ⟨path, leads⟩ := reached
  induction path using List.reverseRecOn generalizing node with
  | nil =>
      cases leads
      exact initially
  | append_singleton path index ih =>
      rw [target_concat] at leads
      obtain ⟨parent, parentLeads, follows⟩ := Option.bind_eq_some_iff.mp leads
      exact preserved parent node (ih parentLeads)
        (List.mem_of_getElem? follows)

variable {next root} in
theorem Reached.child {parent child : α} (reached : Reached next root parent)
    (member : child ∈ next parent) : Reached next root child := by
  obtain ⟨path, leads⟩ := reached
  obtain ⟨index, inside, rfl⟩ := List.getElem_of_mem member
  refine ⟨path ++ [index], ?_⟩
  rw [target_concat, leads, Option.bind_some, List.getElem?_eq_getElem inside]

theorem sooner_root {node : α} (different : root ≠ node) :
    Sooner next root root node := by
  intro path leads
  refine ⟨[], rfl, ?_⟩
  cases path with
  | nil => exact absurd (Option.some.inj leads) different
  | cons index path => exact rank_lt_iff.mpr (.inl (Nat.succ_pos _))

/-- The nodes found when some children of the node at a position have been
looked at. -/
inductive Searching : List α → Nat → Nat → Prop where
  | start : Searching [root] 0 0
  | known {found : List α} {position index : Nat} {node child : α} :
      Searching found position index → found[position]? = some node →
      (next node)[index]? = some child → child ∈ found →
      Searching found position (index + 1)
  | added {found : List α} {position index : Nat} {node child : α} :
      Searching found position index → found[position]? = some node →
      (next node)[index]? = some child → child ∉ found →
      Searching (found ++ [child]) position (index + 1)
  | done {found : List α} {position index : Nat} {node : α} :
      Searching found position index → found[position]? = some node →
      (next node)[index]? = none → Searching found (position + 1) 0

/-- The paths along which the nodes were found. -/
structure Paths (found : List α) (position index : Nat)
    (paths : List (List Nat)) : Prop where
  targets : paths.map (target next root) = found.map some
  rooted : [] ∈ paths
  sorted : paths.Pairwise fun path other => rank path < rank other
  bounded : ∀ parent, paths[position]? = some parent →
    ∀ path ∈ paths, rank path < rank (parent ++ [index])
  closed : ∀ (place : Nat) parent, paths[place]? = some parent →
    ∀ step, place < position ∨ place = position ∧ step < index →
    ∀ child, target next root (parent ++ [step]) = some child →
      ∃ path ∈ paths, target next root path = some child ∧
        rank path ≤ rank (parent ++ [step])

variable {next root} {found : List α} {position index : Nat} {node child : α}
  {paths : List (List Nat)}

namespace Paths

theorem length_eq (invariant : Paths next root found position index paths) :
    paths.length = found.length := by
  have lengths := congrArg List.length invariant.targets
  simpa using lengths

/-- The node at a place and the path along which it was found. -/
theorem at_place (invariant : Paths next root found position index paths)
    {place : Nat} (stands : found[place]? = some node) :
    ∃ path, paths[place]? = some path ∧
      target next root path = some node := by
  have places := congrArg (fun nodes => nodes[place]?) invariant.targets
  simp only [List.getElem?_map, stands] at places
  cases found : paths[place]? with
  | none =>
      rw [found] at places
      cases places
  | some path =>
      rw [found] at places
      exact ⟨path, rfl, Option.some.inj places⟩

theorem mem_iff (invariant : Paths next root found position index paths) :
    node ∈ found ↔ ∃ path ∈ paths, target next root path = some node := by
  have members : some node ∈ paths.map (target next root) ↔
      some node ∈ found.map some := by
    rw [invariant.targets]
  simpa using members.symm

/-- Each node was found along one path. -/
theorem unique (invariant : Paths next root found position index paths)
    (distinct : found.Nodup) {path other : List Nat} (member : path ∈ paths)
    (otherMember : other ∈ paths)
    (same : target next root path = target next root other) : path = other := by
  have injective : (paths.map (target next root)).Nodup := by
    rw [invariant.targets]
    exact distinct.map (Option.some_injective α)
  exact List.inj_on_of_nodup_map injective member otherMember same

theorem start : Paths next root [root] 0 0 [[]] where
  targets := rfl
  rooted := List.mem_singleton_self []
  sorted := List.pairwise_singleton _ _
  bounded := by
    intro parent stands path member
    obtain rfl := List.mem_singleton.mp member
    exact rank_lt_iff.mpr (.inl (by simp))
  closed := by
    intro place parent stands step earlier
    omega

theorem known (invariant : Paths next root found position index paths)
    (stands : found[position]? = some node)
    (follows : (next node)[index]? = some child) (member : child ∈ found) :
    Paths next root found position (index + 1) paths where
  targets := invariant.targets
  rooted := invariant.rooted
  sorted := invariant.sorted
  bounded := by
    intro parent parentStands path pathMember
    have before := invariant.bounded parent parentStands path pathMember
    exact before.trans (rank_concat_lt_iff.mpr (.inr ⟨rfl, index.lt_succ_self⟩))
  closed := by
    intro place parent parentStands step earlier target targeted
    by_cases old : place < position ∨ place = position ∧ step < index
    · exact invariant.closed place parent parentStands step old target targeted
    · have here : place = position ∧ step = index := by omega
      obtain ⟨rfl, rfl⟩ := here
      obtain ⟨nodePath, nodeStands, nodeTarget⟩ := invariant.at_place stands
      obtain rfl := Option.some.inj (parentStands.symm.trans nodeStands)
      rw [target_concat, nodeTarget, Option.bind_some, follows] at targeted
      cases targeted
      obtain ⟨path, pathMember, pathTarget⟩ := invariant.mem_iff.mp member
      exact ⟨path, pathMember, pathTarget,
        (invariant.bounded _ parentStands path pathMember).le⟩

theorem added (invariant : Paths next root found position index paths)
    (stands : found[position]? = some node)
    (follows : (next node)[index]? = some child) :
    ∃ path, Paths next root (found ++ [child]) position (index + 1)
      (paths ++ [path]) := by
  obtain ⟨nodePath, nodeStands, nodeTarget⟩ := invariant.at_place stands
  have childTarget : target next root (nodePath ++ [index]) = some child := by
    rw [target_concat, nodeTarget, Option.bind_some, follows]
  have before := invariant.bounded nodePath nodeStands
  have inside : position < paths.length :=
    (List.getElem?_eq_some_iff.mp nodeStands).1
  refine ⟨nodePath ++ [index], ?_, List.mem_append_left _ invariant.rooted, ?_,
    ?_, ?_⟩
  · rw [List.map_append, List.map_append, invariant.targets, List.map_singleton,
      List.map_singleton, childTarget]
  · rw [List.pairwise_append]
    refine ⟨invariant.sorted, List.pairwise_singleton _ _, ?_⟩
    intro path member other last
    rw [List.mem_singleton.mp last]
    exact before path member
  · intro parent parentStands path member
    rw [List.getElem?_append_left inside] at parentStands
    obtain rfl := Option.some.inj (parentStands.symm.trans nodeStands)
    have step : rank (parent ++ [index]) < rank (parent ++ [index + 1]) :=
      rank_concat_lt_iff.mpr (.inr ⟨rfl, index.lt_succ_self⟩)
    cases List.mem_append.mp member with
    | inl older => exact (before path older).trans step
    | inr last =>
        rw [List.mem_singleton.mp last]
        exact step
  · intro place parent parentStands step earlier target targeted
    have placed : place < paths.length := by omega
    rw [List.getElem?_append_left placed] at parentStands
    by_cases old : place < position ∨ place = position ∧ step < index
    · obtain ⟨path, member, found, le⟩ :=
        invariant.closed place parent parentStands step old target targeted
      exact ⟨path, List.mem_append_left _ member, found, le⟩
    · have here : place = position ∧ step = index := by omega
      obtain ⟨rfl, rfl⟩ := here
      obtain rfl := Option.some.inj (parentStands.symm.trans nodeStands)
      exact ⟨_, List.mem_append_right _ (List.mem_singleton_self _), targeted,
        le_rfl⟩

theorem done (invariant : Paths next root found position index paths)
    (stands : found[position]? = some node)
    (exhausted : (next node)[index]? = none) :
    Paths next root found (position + 1) 0 paths where
  targets := invariant.targets
  rooted := invariant.rooted
  sorted := invariant.sorted
  bounded := by
    intro parent parentStands path member
    obtain ⟨nodePath, nodeStands, -⟩ := invariant.at_place stands
    obtain ⟨_, nodeAt⟩ := List.getElem?_eq_some_iff.mp nodeStands
    obtain ⟨_, parentAt⟩ := List.getElem?_eq_some_iff.mp parentStands
    have increases : rank nodePath < rank parent := by
      rw [← nodeAt, ← parentAt]
      exact List.pairwise_iff_getElem.mp invariant.sorted _ _ _ _
        position.lt_succ_self
    exact (invariant.bounded nodePath nodeStands path member).trans
      (rank_concat_lt_iff.mpr (.inl increases))
  closed := by
    intro place parent parentStands step earlier target targeted
    by_cases old : place < position ∨ place = position ∧ step < index
    · exact invariant.closed place parent parentStands step old target targeted
    · have here : place = position ∧ index ≤ step := by omega
      obtain ⟨rfl, beyond⟩ := here
      obtain ⟨nodePath, nodeStands, nodeTarget⟩ := invariant.at_place stands
      obtain rfl := Option.some.inj (parentStands.symm.trans nodeStands)
      have none : (next node)[step]? = none := by
        rw [List.getElem?_eq_none_iff] at exhausted ⊢
        omega
      rw [target_concat, nodeTarget, Option.bind_some, none] at targeted
      cases targeted

end Paths

namespace Searching

theorem exists_paths (searching : Searching next root found position index) :
    ∃ paths, Paths next root found position index paths := by
  induction searching with
  | start => exact ⟨_, Paths.start⟩
  | known _ stands follows member ih =>
      obtain ⟨paths, invariant⟩ := ih
      exact ⟨paths, invariant.known stands follows member⟩
  | added _ stands follows _ ih =>
      obtain ⟨paths, invariant⟩ := ih
      obtain ⟨path, extended⟩ := invariant.added stands follows
      exact ⟨_, extended⟩
  | done _ stands exhausted ih =>
      obtain ⟨paths, invariant⟩ := ih
      exact ⟨paths, invariant.done stands exhausted⟩

theorem nodup (searching : Searching next root found position index) :
    found.Nodup := by
  induction searching with
  | start => exact List.nodup_singleton root
  | known _ _ _ _ ih => exact ih
  | added _ _ _ new ih => exact List.nodup_append.mpr ⟨ih, List.nodup_singleton _, by
      rintro other member last single rfl
      exact new (List.mem_singleton.mp single ▸ member)⟩
  | done _ _ _ ih => exact ih

/-- A search that has looked at all that it found has the least paths. -/
theorem least (invariant : Paths next root found found.length 0 paths)
    (path : List Nat) {node : α} (leads : target next root path = some node) :
    ∃ other ∈ paths, target next root other = some node ∧
      rank other ≤ rank path := by
  induction path using List.reverseRecOn generalizing node with
  | nil =>
      exact ⟨[], invariant.rooted, leads, le_rfl⟩
  | append_singleton path index ih =>
      rw [target_concat] at leads
      obtain ⟨parent, parentLeads, follows⟩ := Option.bind_eq_some_iff.mp leads
      obtain ⟨other, member, otherLeads, le⟩ := ih parentLeads
      obtain ⟨place, inside, at_⟩ := List.getElem_of_mem member
      have childLeads : target next root (other ++ [index]) = some node := by
        rw [target_concat, otherLeads, Option.bind_some, follows]
      have early : place < found.length := invariant.length_eq ▸ inside
      obtain ⟨found, foundMember, foundLeads, foundLe⟩ :=
        invariant.closed place other
          (List.getElem?_eq_some_iff.mpr ⟨inside, at_⟩) index (.inl early) node
          childLeads
      exact ⟨found, foundMember, foundLeads,
        foundLe.trans (rank_concat_le le index)⟩

/-- It has found what it can reach. -/
theorem mem_iff (searching : Searching next root found found.length 0) :
    node ∈ found ↔ Reached next root node := by
  obtain ⟨paths, invariant⟩ := searching.exists_paths
  rw [invariant.mem_iff]
  constructor
  · rintro ⟨path, -, leads⟩
    exact ⟨path, leads⟩
  · rintro ⟨path, leads⟩
    obtain ⟨other, member, otherLeads, -⟩ := least invariant path leads
    exact ⟨other, member, otherLeads⟩

/-- It has found the nodes in the order of the least paths to them. -/
theorem pairwise_sooner (searching : Searching next root found found.length 0) :
    found.Pairwise (Sooner next root) := by
  obtain ⟨paths, invariant⟩ := searching.exists_paths
  rw [List.pairwise_iff_getElem]
  intro early late earlyInside lateInside before path leads
  obtain ⟨earlyPath, earlyStands, earlyLeads⟩ :=
    invariant.at_place (List.getElem?_eq_getElem earlyInside)
  obtain ⟨latePath, lateStands, lateLeads⟩ :=
    invariant.at_place (List.getElem?_eq_getElem lateInside)
  obtain ⟨earlyIn, rfl⟩ := List.getElem?_eq_some_iff.mp earlyStands
  obtain ⟨lateIn, rfl⟩ := List.getElem?_eq_some_iff.mp lateStands
  obtain ⟨other, member, otherLeads, le⟩ := least invariant path leads
  obtain rfl := invariant.unique searching.nodup member
    (List.getElem_mem lateIn) (otherLeads.trans lateLeads.symm)
  have increases := List.pairwise_iff_getElem.mp invariant.sorted early late
    earlyIn lateIn before
  exact ⟨_, earlyLeads, increases.trans_le le⟩

theorem asymm (searching : Searching next root found found.length 0)
    {earlier later : α} (reached : Reached next root later)
    (sooner : Sooner next root earlier later) :
    ¬Sooner next root later earlier := by
  intro back
  obtain ⟨paths, invariant⟩ := searching.exists_paths
  obtain ⟨path, member, leads⟩ :=
    invariant.mem_iff.mp (searching.mem_iff.mpr reached)
  obtain ⟨before, beforeLeads, less⟩ := sooner path leads
  obtain ⟨sooner, soonerLeads, lesser⟩ := back before beforeLeads
  obtain ⟨least, leastMember, leastLeads, le⟩ :=
    least invariant sooner soonerLeads
  obtain rfl := invariant.unique searching.nodup leastMember member
    (leastLeads.trans leads.symm)
  exact absurd (le.trans_lt (lesser.trans less)) (lt_irrefl _)

/-- Of the nodes that it found, the one with the least path comes first. -/
theorem pair_sublist_iff (searching : Searching next root found found.length 0)
    {earlier later : α} (earlierFound : earlier ∈ found)
    (laterFound : later ∈ found) (different : earlier ≠ later) :
    [earlier, later].Sublist found ↔ Sooner next root earlier later := by
  have sooner : ∀ {first second : α}, [first, second].Sublist found →
      Sooner next root first second :=
    List.pairwise_iff_forall_sublist.mp searching.pairwise_sooner
  constructor
  · exact sooner
  · intro least
    cases pair_sublist_or earlierFound laterFound different with
    | inl before => exact before
    | inr after =>
        have reached := searching.mem_iff.mp laterFound
        exact absurd (sooner after) (searching.asymm reached least)

theorem position_le (searching : Searching next root found position index) :
    position ≤ found.length := by
  induction searching with
  | start => exact Nat.zero_le _
  | known _ _ _ _ ih => exact ih
  | added _ _ _ _ ih =>
      rw [List.length_append]
      exact ih.trans (Nat.le_add_right _ _)
  | done _ stands _ _ => exact (List.getElem?_eq_some_iff.mp stands).1

end Searching

end BreadthFirst

import Mathlib.Data.List.Forall2

/-!
# Outcomes of Rust functions

A Rust function that returns `Result` either returns a value, returns an
error, or panics.  `Outcome` keeps the three apart, so that a statement about
a returned error never covers a panic by accident.
-/

namespace Rust

/-- What stops a function before it returns a value. -/
inductive Fault (ε : Type) where
  /-- the function returned `Err` -/
  | error (err : ε)
  /-- the thread panicked -/
  | panic
  /-- the recursion budget of an executable model ran out; this is never a
  behaviour of the program, and every budget can be raised -/
  | unfinished
deriving DecidableEq

abbrev Outcome (ε α : Type) := Except (Fault ε) α

namespace Outcome

variable {ε α β : Type}

/-- `Err(err)` in the source. -/
def err (error : ε) : Outcome ε α := .error (.error error)

def panic : Outcome ε α := .error .panic

def unfinished : Outcome ε α := .error .unfinished

@[simp] theorem err_ne_ok (error : ε) (value : α) :
    (err error : Outcome ε α) ≠ .ok value := by
  simp [err]

@[simp] theorem panic_ne_ok (value : α) :
    (panic : Outcome ε α) ≠ .ok value := by
  simp [panic]

@[simp] theorem unfinished_ne_ok (value : α) :
    (unfinished : Outcome ε α) ≠ .ok value := by
  simp [unfinished]

@[simp] theorem pure_eq_ok {value result : α} :
    (pure value : Outcome ε α) = .ok result ↔ value = result := by
  simp [pure, Except.pure]

/-- A sequence succeeds exactly when both parts do. -/
theorem bind_eq_ok {first : Outcome ε α} {next : α → Outcome ε β}
    {result : β} :
    (first >>= next) = .ok result ↔
      ∃ value, first = .ok value ∧ next value = .ok result := by
  cases first with
  | error fault => simp [bind, Except.bind]
  | ok value => simp [bind, Except.bind]

/-- A sequence returns an error exactly when one of its parts does. -/
theorem bind_eq_err {first : Outcome ε α} {next : α → Outcome ε β}
    {error : ε} :
    (first >>= next) = err error ↔
      first = err error ∨
        ∃ value, first = .ok value ∧ next value = err error := by
  cases first with
  | error fault => simp [bind, Except.bind, err]
  | ok value => simp [bind, Except.bind, err]

@[simp] theorem ok_ne_err (value : α) (error : ε) :
    (.ok value : Outcome ε α) ≠ err error := by
  simp [err]

@[simp] theorem pure_ne_err (value : α) (error : ε) :
    (pure value : Outcome ε α) ≠ err error :=
  ok_ne_err value error

@[simp] theorem panic_ne_err (error : ε) :
    (panic : Outcome ε α) ≠ err error := by
  simp [panic, err]

@[simp] theorem err_inj {left right : ε} :
    (err left : Outcome ε α) = err right ↔ left = right := by
  simp [err]

@[simp] theorem ok_bind (value : α) (next : α → Outcome ε β) :
    ((.ok value : Outcome ε α) >>= next) = next value :=
  rfl

@[simp] theorem map_eq_ok {first : Outcome ε α} {function : α → β}
    {result : β} :
    (function <$> first) = .ok result ↔
      ∃ value, first = .ok value ∧ function value = result := by
  cases first with
  | error fault => simp [Functor.map, Except.map]
  | ok value => simp [Functor.map, Except.map]

@[simp] theorem map_eq_err {first : Outcome ε α} {function : α → β}
    {error : ε} : (function <$> first) = err error ↔ first = err error := by
  cases first with
  | error fault => simp [Functor.map, Except.map, err]
  | ok value => simp [Functor.map, Except.map, err]

/-- `if condition { return Err(..) }` followed by the rest of the body. -/
theorem guarded_eq_ok {condition : Prop} [Decidable condition]
    {fault : Fault ε} {rest : Outcome ε α} {result : α} :
    (if condition then .error fault else rest) = .ok result ↔
      ¬condition ∧ rest = .ok result := by
  by_cases holds : condition <;> simp [holds]

/-- The function returns a value with the property. -/
def Returns (outcome : Outcome ε α) (property : α → Prop) : Prop :=
  ∃ value, outcome = .ok value ∧ property value

/-- If the function returns a value, the value has the property. -/
def WhenOk (outcome : Outcome ε α) (property : α → Prop) : Prop :=
  ∀ value, outcome = .ok value → property value

@[simp] theorem whenOk_ok {value : α} {property : α → Prop} :
    WhenOk (.ok value : Outcome ε α) property ↔ property value := by
  simp [WhenOk]

@[simp] theorem whenOk_error {fault : Fault ε} {property : α → Prop} :
    WhenOk (.error fault : Outcome ε α) property := by
  intro value equal
  cases equal

instance (outcome : Outcome ε α) (property : α → Prop)
    [DecidablePred property] : Decidable (Returns outcome property) :=
  match outcome with
  | .ok value => decidable_of_iff (property value) (by simp [Returns])
  | .error _ => isFalse (by simp [Returns])

instance (outcome : Outcome ε α) (property : α → Prop)
    [DecidablePred property] : Decidable (WhenOk outcome property) :=
  match outcome with
  | .ok _ => decidable_of_iff _ whenOk_ok.symm
  | .error _ => isTrue whenOk_error

/-- `Option::ok_or_else(..)?`. -/
def ofOption (error : ε) : Option α → Outcome ε α
  | some value => .ok value
  | none => err error

@[simp] theorem ofOption_eq_ok {error : ε} {option : Option α} {value : α} :
    ofOption error option = .ok value ↔ option = some value := by
  cases option <;> simp [ofOption]

theorem toOption_eq_some {outcome : Outcome ε α} {value : α} :
    outcome.toOption = some value ↔ outcome = .ok value := by
  cases outcome <;> simp [Except.toOption]

/-- `map_err`. -/
def mapErr {δ : Type} (wrap : ε → δ) : Outcome ε α → Outcome δ α
  | .ok value => .ok value
  | .error (.error error) => err (wrap error)
  | .error .panic => panic
  | .error .unfinished => unfinished

@[simp] theorem mapErr_eq_ok {δ : Type} {wrap : ε → δ}
    {outcome : Outcome ε α} {value : α} :
    mapErr wrap outcome = .ok value ↔ outcome = .ok value := by
  unfold mapErr
  split <;> simp

/-- The function returned, a value or an error, and did not panic. -/
def Settled (outcome : Outcome ε α) : Prop :=
  (∃ value, outcome = .ok value) ∨ ∃ error, outcome = err error

theorem settled_ok (value : α) : Settled (.ok value : Outcome ε α) :=
  .inl ⟨value, rfl⟩

theorem settled_err (error : ε) : Settled (err error : Outcome ε α) :=
  .inr ⟨error, rfl⟩

theorem settled_ofOption (error : ε) (option : Option α) :
    Settled (ofOption error option) := by
  cases option with
  | none => exact settled_err error
  | some value => exact settled_ok value

theorem Settled.bind {first : Outcome ε α} {next : α → Outcome ε β}
    (settled : Settled first)
    (continued : ∀ value, first = .ok value → Settled (next value)) :
    Settled (first >>= next) := by
  rcases settled with ⟨value, rfl⟩ | ⟨error, rfl⟩
  · exact continued value rfl
  · exact settled_err error

theorem Settled.of_bind {first : Outcome ε α} {next : α → Outcome ε β}
    (settled : Settled (first >>= next)) : Settled first := by
  rcases settled with ⟨value, returned⟩ | ⟨error, failed⟩
  · obtain ⟨middle, earlier, -⟩ := bind_eq_ok.mp returned
    exact .inl ⟨middle, earlier⟩
  · rcases bind_eq_err.mp failed with earlier | ⟨middle, earlier, -⟩
    · exact .inr ⟨error, earlier⟩
    · exact .inl ⟨middle, earlier⟩

theorem Settled.map {outcome : Outcome ε α} (settled : Settled outcome)
    (function : α → β) : Settled (function <$> outcome) := by
  rcases settled with ⟨value, rfl⟩ | ⟨error, rfl⟩
  · exact settled_ok (function value)
  · exact settled_err error

theorem Settled.mapErr {δ : Type} {wrap : ε → δ} {outcome : Outcome ε α}
    (settled : Settled outcome) : Settled (mapErr wrap outcome) := by
  rcases settled with ⟨value, rfl⟩ | ⟨error, rfl⟩
  · exact settled_ok value
  · exact settled_err (wrap error)

theorem Settled.exists_err {outcome : Outcome ε α}
    (settled : Settled outcome) (failed : ∀ value, outcome ≠ .ok value) :
    ∃ error, outcome = err error := by
  rcases settled with ⟨value, returned⟩ | failure
  · exact absurd returned (failed value)
  · exact failure

/-- Indexing `items[index]`, which panics out of bounds. -/
def index (items : List α) (position : Nat) : Outcome ε α :=
  match items[position]? with
  | some item => .ok item
  | none => panic

@[simp] theorem index_eq_ok {items : List α} {position : Nat} {item : α} :
    (index items position : Outcome ε α) = .ok item ↔
      items[position]? = some item := by
  unfold index
  cases items[position]? <;> simp

/-- What every successful step of a loop preserves holds at its end. -/
theorem foldlM_preserves {step : β → α → Outcome ε β} {invariant : β → Prop}
    (preserved : ∀ state item next, invariant state →
      step state item = .ok next → invariant next)
    {items : List α} {start finish : β} (initially : invariant start)
    (folded : items.foldlM step start = .ok finish) : invariant finish := by
  induction items generalizing start with
  | nil =>
      cases folded
      exact initially
  | cons item items ih =>
      rw [List.foldlM_cons, bind_eq_ok] at folded
      obtain ⟨middle, first, rest⟩ := folded
      exact ih (preserved start item middle initially first) rest

/-- A loop none of whose steps fails reaches its end. -/
theorem exists_foldlM {step : β → α → Outcome ε β} {items : List α}
    (steps : ∀ item ∈ items, ∀ state, ∃ next, step state item = .ok next)
    (start : β) : ∃ finish, items.foldlM step start = .ok finish := by
  induction items generalizing start with
  | nil => exact ⟨start, rfl⟩
  | cons item items ih =>
      obtain ⟨middle, first⟩ := steps item List.mem_cons_self start
      rw [List.foldlM_cons, first, ok_bind]
      exact ih (fun other member =>
        steps other (List.mem_cons_of_mem _ member)) middle

/-- A loop over `0..count` whose steps carry an indexed invariant on. -/
theorem exists_foldlM_range {step : β → Nat → Outcome ε β}
    {invariant : Nat → β → Prop} {count : Nat} {start : β}
    (initially : invariant 0 start)
    (steps : ∀ index < count, ∀ state, invariant index state →
      ∃ next, step state index = .ok next ∧ invariant (index + 1) next) :
    ∃ finish, (List.range count).foldlM step start = .ok finish ∧
      invariant count finish := by
  induction count with
  | zero => exact ⟨start, rfl, initially⟩
  | succ count ih =>
      obtain ⟨middle, folded, reached⟩ := ih fun index below =>
        steps index (Nat.lt_succ_of_lt below)
      obtain ⟨finish, last, finished⟩ :=
        steps count (Nat.lt_succ_self count) middle reached
      refine ⟨finish, ?_, finished⟩
      rw [List.range_succ, List.foldlM_append, folded, ok_bind,
        List.foldlM_cons, last]
      rfl

/-- A loop whose steps return no error returns none. -/
theorem foldlM_ne_err {step : β → α → Outcome ε β}
    (steps : ∀ state item error, step state item ≠ err error)
    (items : List α) (start : β) (error : ε) :
    items.foldlM step start ≠ err error := by
  induction items generalizing start with
  | nil => simp [err, pure, Except.pure]
  | cons item items ih =>
      rw [List.foldlM_cons]
      cases first : step start item with
      | ok middle => exact ih middle
      | error fault =>
          intro failed
          cases failed
          exact steps start item error first

/-- `iter().map(function).collect::<Result<Vec<_>, _>>()`: the first failure
stops the traversal. -/
def collect (function : α → Outcome ε β) : List α → Outcome ε (List β)
  | [] => .ok []
  | item :: items => do
      let value ← function item
      let values ← collect function items
      pure (value :: values)

theorem collect_eq_ok {function : α → Outcome ε β}
    {items : List α} {values : List β} :
    collect function items = .ok values ↔
      List.Forall₂ (fun item value => function item = .ok value)
        items values := by
  induction items generalizing values with
  | nil => cases values <;> simp [collect]
  | cons item items ih =>
      cases values with
      | nil =>
          simp [collect, bind_eq_ok]
      | cons value values =>
          simp [collect, bind_eq_ok, ih, and_comm]

theorem exists_collect {function : α → Outcome ε β} {items : List α}
    (succeeds : ∀ item ∈ items, ∃ value, function item = .ok value) :
    ∃ values, collect function items = .ok values := by
  induction items with
  | nil => exact ⟨[], rfl⟩
  | cons item items ih =>
      obtain ⟨value, first⟩ := succeeds item List.mem_cons_self
      obtain ⟨values, rest⟩ := ih fun other member =>
        succeeds other (List.mem_cons_of_mem _ member)
      exact ⟨value :: values, by simp [collect, first, rest]⟩

theorem exists_of_mem_collect {function : α → Outcome ε β}
    {items : List α} {values : List β} {value : β}
    (collected : collect function items = .ok values)
    (member : value ∈ values) :
    ∃ item ∈ items, function item = .ok value := by
  have aligned := collect_eq_ok.mp collected
  induction aligned with
  | nil => cases member
  | cons first _ ih =>
      rcases List.mem_cons.mp member with rfl | later
      · exact ⟨_, List.mem_cons_self, first⟩
      · obtain ⟨item, inItems, made⟩ :=
          ih (collect_eq_ok.mpr ‹_›) later
        exact ⟨item, List.mem_cons_of_mem _ inItems, made⟩

theorem exists_mem_collect {function : α → Outcome ε β}
    {items : List α} {values : List β} {item : α}
    (collected : collect function items = .ok values)
    (member : item ∈ items) :
    ∃ value ∈ values, function item = .ok value := by
  have aligned := collect_eq_ok.mp collected
  clear collected
  induction aligned with
  | nil => cases member
  | cons first _ ih =>
      rcases List.mem_cons.mp member with rfl | later
      · exact ⟨_, List.mem_cons_self, first⟩
      · obtain ⟨value, inValues, made⟩ := ih later
        exact ⟨value, List.mem_cons_of_mem _ inValues, made⟩

/-- The error of a traversal is that of one of the items. -/
theorem exists_of_collect_eq_err {function : α → Outcome ε β}
    {items : List α} {error : ε}
    (failed : collect function items = err error) :
    ∃ item ∈ items, function item = err error := by
  induction items with
  | nil => cases failed
  | cons item items ih =>
      simp only [collect, bind_eq_err, pure_ne_err, and_false, exists_false,
        or_false] at failed
      rcases failed with first | ⟨value, -, later⟩
      · exact ⟨item, List.mem_cons_self, first⟩
      · obtain ⟨other, member, failure⟩ := ih later
        exact ⟨other, List.mem_cons_of_mem _ member, failure⟩

theorem length_of_collect_eq_ok {function : α → Outcome ε β}
    {items : List α} {values : List β}
    (collected : collect function items = .ok values) :
    values.length = items.length :=
  (collect_eq_ok.mp collected).length_eq.symm

theorem map_eq_of_collect {γ : Type} {function : α → Outcome ε β}
    {items : List α} {values : List β} {read : β → γ} {expected : α → γ}
    (collected : collect function items = .ok values)
    (reads : ∀ item ∈ items, ∀ value, function item = .ok value →
      read value = expected item) :
    values.map read = items.map expected := by
  induction collect_eq_ok.mp collected with
  | nil => rfl
  | cons first rest ih =>
      rw [List.map_cons, List.map_cons, reads _ List.mem_cons_self _ first,
        ih (collect_eq_ok.mpr rest) fun item member =>
          reads item (List.mem_cons_of_mem _ member)]

/-- A traversal settles if its function does, as far as it gets. -/
theorem settled_collect {function : α → Outcome ε β} {items : List α}
    (settled : ∀ item ∈ items, Settled (function item)) :
    Settled (collect function items) := by
  induction items with
  | nil => exact settled_ok []
  | cons item items ih =>
      apply Settled.bind (settled item List.mem_cons_self)
      intro value _
      apply Settled.bind
        (ih fun other member => settled other (List.mem_cons_of_mem _ member))
      intro values _
      exact settled_ok (value :: values)

theorem forall₂_of_collect {function : α → Outcome ε β}
    {related : α → β → Prop} {items : List α} {values : List β}
    (collected : collect function items = .ok values)
    (relates : ∀ item ∈ items, ∀ value, function item = .ok value →
      related item value) :
    List.Forall₂ related items values := by
  rw [collect_eq_ok] at collected
  induction collected with
  | nil => exact .nil
  | cons head _ ih =>
      exact .cons (relates _ List.mem_cons_self _ head)
        (ih fun item member => relates item (List.mem_cons_of_mem _ member))

/-- What two traversals, one after the other, do to each item. -/
theorem forall₂_of_collect_collect {γ : Type} {first : α → Outcome ε β}
    {second : β → Outcome ε γ} {related : α → γ → Prop} {items : List α}
    {middle : List β} {last : List γ}
    (collected : collect first items = .ok middle)
    (collectedAgain : collect second middle = .ok last)
    (relates : ∀ item ∈ items, ∀ value result, first item = .ok value →
      second value = .ok result → related item result) :
    List.Forall₂ related items last := by
  rw [collect_eq_ok] at collected collectedAgain
  induction collected generalizing last with
  | nil =>
      cases collectedAgain
      exact .nil
  | cons head _ ih =>
      cases collectedAgain with
      | cons next rest =>
          exact .cons (relates _ List.mem_cons_self _ _ head next)
            (ih rest fun item member =>
              relates item (List.mem_cons_of_mem _ member))

/-- Decoding item by item undoes encoding item by item. -/
theorem collect_map_eq_ok {encode : β → α} {decode : α → Outcome ε β}
    {items : List β}
    (roundTrip : ∀ item ∈ items, decode (encode item) = .ok item) :
    collect decode (items.map encode) = .ok items := by
  rw [collect_eq_ok, List.forall₂_map_left_iff, List.forall₂_same]
  exact roundTrip

/-- A traversal whose function succeeds everywhere is `List.map`. -/
theorem collect_eq_ok_map {function : α → Outcome ε β} {value : α → β}
    {items : List α}
    (succeeds : ∀ item ∈ items, function item = .ok (value item)) :
    collect function items = .ok (items.map value) := by
  rw [collect_eq_ok, List.forall₂_map_right_iff, List.forall₂_same]
  exact succeeds

end Outcome

end Rust

import Igra.Eip4788.History

/-!
# The modified contract behaves as the original

The two contracts take the same calls side by side.  Their storages agree
below the two regions that the modified contract adds, and whoever is not the
reader gets the same answers.
-/

namespace Eip4788

open Evm Runs

variable {host : Address → Data → Reply} {left right : Storage}

/-- Storages that agree on the slots of the original contract. -/
def Agree (left right : Storage) : Prop :=
  ∀ slot : Word, slot.toNat < 16382 → left slot = right slot

/-- The same success or revert with the same data. -/
inductive SameAnswer : Outcome → Outcome → Prop where
  | success (data : Data) (left right : Storage) :
      SameAnswer (.success data left) (.success data right)
  | revert (data : Data) : SameAnswer (.revert data) (.revert data)
  | failure : SameAnswer .failure .failure

private theorem timestampSlot_lt (word : Word) :
    (timestampSlot word).toNat < 16382 := by
  rw [toNat_timestampSlot]
  unfold historyBufferLength
  omega

private theorem rootSlot_lt (word : Word) : (rootSlot word).toNat < 16382 := by
  rw [toNat_rootSlot]
  unfold historyBufferLength
  omega

private theorem le_randaoSlot (word : Word) : 16382 ≤
    (randaoSlot word).toNat := by
  rw [toNat_randaoSlot]
  unfold historyBufferLength
  omega

private theorem le_numberSlot (word : Word) : 16382 ≤
    (numberSlot word).toNat := by
  rw [toNat_numberSlot]
  unfold historyBufferLength
  omega

theorem agree_modifiedSet (agree : Agree left right) (call : Call) :
    Agree (originalSet left call) (modifiedSet right call) := by
  intro slot low
  have randao : slot ≠ randaoSlot call.block.timestamp := by
    rintro rfl
    exact absurd (le_randaoSlot call.block.timestamp) (by omega)
  have number : slot ≠ numberSlot call.block.timestamp := by
    rintro rfl
    exact absurd (le_numberSlot call.block.timestamp) (by omega)
  unfold modifiedSet
  rw [Function.update_of_ne number, Function.update_of_ne randao]
  unfold originalSet
  simp only [Function.update_apply, agree slot low]

private theorem agree_next (agree : Agree left right) (call : Call) :
    Agree (originalNext left call) (modifiedNext right call) := by
  unfold originalNext modifiedNext
  split
  · exact agree_modifiedSet agree call
  · exact agree

private theorem stored_congr (agree : Agree left right) (call : Call) :
    Stored left call ↔ Stored right call := by
  unfold Stored
  rw [agree _ (timestampSlot_lt call.word)]

private theorem sameAnswer_get (agree : Agree left right) {call : Call}
    (other : call.caller ≠ randaoReader) :
    SameAnswer (originalGet left call) (modifiedGet right call) := by
  unfold originalGet modifiedGet
  by_cases stored : Stored right call
  · rw [if_pos ((stored_congr agree call).mpr stored), if_pos stored,
      if_neg other, agree _ (rootSlot_lt call.word)]
    exact .success _ left right
  · rw [if_neg fun found => stored ((stored_congr agree call).mp found),
      if_neg stored]
    exact .revert Data.empty

/-- Both contracts take a call. -/
def CalledBoth (host : Address → Data → Reply) (storages : Storage × Storage)
    (call : Call) (next : Storage × Storage) : Prop :=
  Called originalContract host storages.1 call next.1 ∧
    Called modifiedContract host storages.2 call next.2

def bothNext (storages : Storage × Storage) (call : Call) :
    Storage × Storage :=
  (originalNext storages.1 call, modifiedNext storages.2 call)

theorem calledBoth_iff {storages next : Storage × Storage} {call : Call} :
    CalledBoth host storages call next ↔ next = bothNext storages call := by
  unfold CalledBoth
  rw [called_original, called_modified, Prod.ext_iff]
  rfl

theorem agree_of_run {calls : List Call} {storages : Storage × Storage}
    (run : Run (CalledBoth host) (emptyStorage, emptyStorage) calls storages) :
    Agree storages.1 storages.2 := by
  apply @Run.preserves _ _ _ _ _ _ (fun both => Agree both.1 both.2) run
  · intro slot _
    rfl
  · intro state call next agree taken
    rw [calledBoth_iff.mp taken]
    exact agree_next agree call

/-- After every history the storages agree below the added regions, and the
next call of an ordinary caller gets the same answer. -/
theorem modified_refines_original (host : Address → Data → Reply)
    (calls : List Call) :
    ∃ original modified,
      (∀ finish,
        Run (CalledBoth host) (emptyStorage, emptyStorage) calls finish ↔
          finish = (original, modified)) ∧
      (∀ slot : Word, slot.toNat < 16382 → original slot = modified slot) ∧
      ∀ call : Call, call.caller ≠ systemAddress →
        call.caller ≠ randaoReader →
        ∃ outcome other,
          Answers originalContract host original call outcome ∧
          Answers modifiedContract host modified call other ∧
          SameAnswer outcome other := by
  have runs := fun finish =>
    @Run.iff_foldl _ _ (CalledBoth host) bothNext (emptyStorage, emptyStorage)
      finish calls fun _ _ _ _ => calledBoth_iff
  have agree := agree_of_run ((runs _).mpr rfl)
  refine ⟨_, _, runs, agree, ?_⟩
  intro call user other
  exact ⟨_, _, original_get user, modified_get user,
    sameAnswer_get agree other⟩

end Eip4788

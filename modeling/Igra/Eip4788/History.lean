import Igra.Eip4788.Paths
import Igra.Runs
import Mathlib.Algebra.Order.Group.Nat

/-!
# Histories of calls

The four words of a system call stand in four regions of storage, at the place
of the timestamp's residue.  After any history each place holds the words of
the last system call with that residue.
-/

namespace Eip4788

open Evm Runs

section Calls

/-- A call of a contract: what it halts with, and the storage behind it. -/
def Called (code : Code) (host : Address → Data → Reply) (storage : Storage)
    (call : Call) (next : Storage) : Prop :=
  ∃ outcome, Answers code host storage call outcome ∧
    next = outcome.storage storage

def emptyStorage : Storage := fun _ => 0

def Call.IsSystem (call : Call) : Prop := call.caller = systemAddress

instance (call : Call) : Decidable call.IsSystem :=
  inferInstanceAs (Decidable (_ = _))

variable {host : Address → Data → Reply} {storage next : Storage} {call : Call}

theorem called_iff {code : Code} {outcome : Outcome}
    (answers : Answers code host storage call outcome) :
    Called code host storage call next ↔ next = outcome.storage storage := by
  constructor
  · rintro ⟨other, answersOther, same⟩
    rw [answersOther.unique answers] at same
    exact same
  · intro same
    exact ⟨outcome, answers, same⟩

private theorem originalGet_storage :
    (originalGet storage call).storage storage = storage := by
  unfold originalGet
  split
  · rfl
  · rfl

theorem modifiedGet_storage :
    (modifiedGet storage call).storage storage = storage := by
  unfold modifiedGet
  split
  · split
    · rfl
    · rfl
  · rfl

/-- The system may store, unless the call is static. -/
def Call.Stores (call : Call) : Prop :=
  call.IsSystem ∧ call.isStatic = false

instance (call : Call) : Decidable call.Stores :=
  inferInstanceAs (Decidable (_ ∧ _))

theorem Call.static_of_not_stores (system : call.IsSystem)
    (stores : ¬call.Stores) : call.isStatic = true := by
  rw [← Bool.not_eq_false]
  exact fun writes => stores ⟨system, writes⟩

/-- The storage behind a call of the modified contract. -/
def modifiedNext (storage : Storage) (call : Call) : Storage :=
  if call.Stores then modifiedSet storage call else storage

def originalNext (storage : Storage) (call : Call) : Storage :=
  if call.Stores then originalSet storage call else storage

theorem called_modified :
    Called modifiedContract host storage call next ↔
      next = modifiedNext storage call := by
  unfold modifiedNext
  split
  · rename_i stores
    exact called_iff (modified_set stores.1 stores.2)
  · rename_i stores
    by_cases system : call.IsSystem
    · have static := Call.static_of_not_stores system stores
      exact called_iff (modified_set_static system static)
    · rw [called_iff (modified_get system), modifiedGet_storage]

theorem called_original :
    Called originalContract host storage call next ↔
      next = originalNext storage call := by
  unfold originalNext
  split
  · rename_i stores
    exact called_iff (original_set stores.1 stores.2)
  · rename_i stores
    by_cases system : call.IsSystem
    · have static := Call.static_of_not_stores system stores
      exact called_iff (original_set_static system static)
    · rw [called_iff (original_get system), originalGet_storage]

end Calls

section Slots

theorem toNat_timestampSlot (word : Word) :
    (timestampSlot word).toNat = word.toNat % historyBufferLength := by
  rw [timestampSlot, BitVec.toNat_umod]
  rfl

theorem toNat_add_length {slot : Word}
    (room : slot.toNat + historyBufferLength < 2 ^ 256) :
    (0x1fff + slot).toNat = historyBufferLength + slot.toNat := by
  have length : (0x1fff : Word).toNat = historyBufferLength := rfl
  rw [BitVec.toNat_add, length, Nat.mod_eq_of_lt]
  omega

theorem toNat_rootSlot (word : Word) :
    (rootSlot word).toNat =
      historyBufferLength + word.toNat % historyBufferLength := by
  have slot := toNat_timestampSlot word
  unfold historyBufferLength at *
  rw [rootSlot, toNat_add_length, slot]
  · rfl
  · unfold historyBufferLength
    omega

theorem toNat_randaoSlot (word : Word) :
    (randaoSlot word).toNat =
      2 * historyBufferLength + word.toNat % historyBufferLength := by
  have slot := toNat_rootSlot word
  unfold historyBufferLength at *
  rw [randaoSlot, toNat_add_length, slot]
  · unfold historyBufferLength
    omega
  · unfold historyBufferLength
    omega

theorem toNat_numberSlot (word : Word) :
    (numberSlot word).toNat =
      3 * historyBufferLength + word.toNat % historyBufferLength := by
  have slot := toNat_randaoSlot word
  unfold historyBufferLength at *
  rw [numberSlot, toNat_add_length, slot]
  · unfold historyBufferLength
    omega
  · unfold historyBufferLength
    omega

theorem timestampSlot_eq_iff {left right : Word} :
    timestampSlot left = timestampSlot right ↔
      left.toNat % historyBufferLength = right.toNat % historyBufferLength := by
  rw [BitVec.toNat_eq, toNat_timestampSlot, toNat_timestampSlot]

/-- The slot of a timestamp in one of the four regions. -/
def regionSlot (region : Fin 4) (word : Word) : Word :=
  match region with
  | 0 => timestampSlot word
  | 1 => rootSlot word
  | 2 => randaoSlot word
  | 3 => numberSlot word

theorem toNat_regionSlot (region : Fin 4) (word : Word) :
    (regionSlot region word).toNat =
      region * historyBufferLength + word.toNat % historyBufferLength := by
  match region with
  | 0 =>
      rw [regionSlot, toNat_timestampSlot]
      simp
  | 1 =>
      rw [regionSlot, toNat_rootSlot]
      simp
  | 2 =>
      rw [regionSlot, toNat_randaoSlot]
      simp
  | 3 =>
      rw [regionSlot, toNat_numberSlot]
      rfl

theorem regionSlot_eq_iff {left right : Fin 4} {word other : Word} :
    regionSlot left word = regionSlot right other ↔
      left = right ∧ timestampSlot word = timestampSlot other := by
  rw [BitVec.toNat_eq, toNat_regionSlot, toNat_regionSlot, timestampSlot_eq_iff,
    Fin.ext_iff]
  unfold historyBufferLength
  omega

end Slots

section Kept

/-- The four words at the place of a timestamp. -/
def entryAt (storage : Storage) (word : Word) (region : Fin 4) : Word :=
  storage (regionSlot region word)

/-- The four words that a system call stores. -/
def Call.entry (call : Call) (region : Fin 4) : Word :=
  match region with
  | 0 => call.block.timestamp
  | 1 => call.word
  | 2 => call.block.prevrandao
  | 3 => call.block.number

private theorem modifiedSet_apply (storage : Storage) (call : Call)
    (slot : Word) :
    modifiedSet storage call slot =
      if slot = regionSlot 3 call.block.timestamp then call.entry 3
      else if slot = regionSlot 2 call.block.timestamp then call.entry 2
      else if slot = regionSlot 1 call.block.timestamp then call.entry 1
      else if slot = regionSlot 0 call.block.timestamp then call.entry 0
      else storage slot := by
  unfold modifiedSet originalSet
  simp only [Function.update_apply]
  rfl

/-- A system call stores its words at the place of its timestamp, and nowhere
else. -/
theorem entryAt_modifiedSet (storage : Storage) (call : Call) (word : Word) :
    entryAt (modifiedSet storage call) word =
      if timestampSlot call.block.timestamp = timestampSlot word then call.entry
      else entryAt storage word := by
  funext region
  unfold entryAt
  rw [modifiedSet_apply]
  simp only [regionSlot_eq_iff]
  by_cases same : timestampSlot word = timestampSlot call.block.timestamp
  · rw [if_pos same.symm]
    match region with
    | 0 => simp [same]
    | 1 => simp [same]
    | 2 => simp [same]
    | 3 => simp [same]
  · rw [if_neg (Ne.symm same)]
    simp [same]

/-- The last system call with a timestamp of the same residue. -/
def latest (calls : List Call) (word : Word) : Option Call :=
  calls.reverse.find? fun call =>
    call.IsSystem ∧ timestampSlot call.block.timestamp = timestampSlot word

theorem latest_append (calls : List Call) (call : Call) (word : Word) :
    latest (calls ++ [call]) word =
      if call.IsSystem ∧
          timestampSlot call.block.timestamp = timestampSlot word then
        some call
      else latest calls word := by
  unfold latest
  rw [List.reverse_append, List.reverse_singleton, List.singleton_append,
    List.find?_cons]
  split
  · rename_i holds
    rw [if_pos (of_decide_eq_true holds)]
  · rename_i fails
    rw [if_neg (of_decide_eq_false fails)]

/-- Each place holds the words of the last system call that it was written by,
and zeros before. -/
def Kept (storage : Storage) (calls : List Call) : Prop :=
  ∀ word, entryAt storage word =
    ((latest calls word).map Call.entry).getD fun _ => 0

theorem kept_next {storage : Storage} {calls : List Call}
    (kept : Kept storage calls) (call : Call)
    (writes : call.IsSystem → call.isStatic = false) :
    Kept (modifiedNext storage call) (calls ++ [call]) := by
  intro word
  rw [latest_append]
  unfold modifiedNext
  by_cases system : call.IsSystem
  · rw [if_pos ⟨system, writes system⟩, entryAt_modifiedSet]
    by_cases same : timestampSlot call.block.timestamp = timestampSlot word
    · rw [if_pos same, if_pos ⟨system, same⟩]
      rfl
    · rw [if_neg same, if_neg fun both => same both.2]
      exact kept word
  · rw [if_neg fun stores => system stores.1, if_neg fun both => system both.1]
    exact kept word

variable {host : Address → Data → Reply} {calls : List Call}
  {storage : Storage}

theorem kept_of_run
    (writes : ∀ call ∈ calls, call.IsSystem → call.isStatic = false)
    (run : Run (Called modifiedContract host) emptyStorage calls storage) :
    Kept storage calls := by
  induction run with
  | start =>
      intro word
      rfl
  | @extend calls state next call earlier taken ih =>
      rw [called_modified.mp taken]
      apply kept_next
      · exact ih fun other member =>
          writes other (List.mem_append_left _ member)
      · exact writes call (by simp)

end Kept

section Recorded

/-- The last system call executed at a timestamp, when no later system call had
another timestamp of the same residue. -/
structure Recorded (calls : List Call) (timestamp : Word) (call : Call) :
    Prop where
  occurs : ∃ earlier later, calls = earlier ++ call :: later ∧
    (∀ other ∈ later, other.IsSystem → other.block.timestamp ≠ timestamp) ∧
    ∀ other ∈ later, other.IsSystem → other.block.timestamp ≠ timestamp →
      other.block.timestamp.toNat % historyBufferLength ≠
        timestamp.toNat % historyBufferLength
  system : call.IsSystem
  at_ : call.block.timestamp = timestamp

theorem latest_eq_some_iff {calls : List Call} {word : Word} {call : Call} :
    latest calls word = some call ↔
      ∃ earlier later, calls = earlier ++ call :: later ∧
        (call.IsSystem ∧
          timestampSlot call.block.timestamp = timestampSlot word) ∧
        ∀ other ∈ later, ¬(other.IsSystem ∧
          timestampSlot other.block.timestamp = timestampSlot word) := by
  unfold latest
  rw [List.find?_eq_some_iff_append]
  constructor
  · rintro ⟨holds, later, earlier, splits, others⟩
    refine ⟨earlier.reverse, later.reverse, ?_, of_decide_eq_true holds, ?_⟩
    · have turned := congrArg List.reverse splits
      simpa using turned
    · intro other member
      have fails := others other (List.mem_reverse.mp member)
      rw [Bool.not_eq_true'] at fails
      exact of_decide_eq_false fails
  · rintro ⟨earlier, later, rfl, holds, others⟩
    refine ⟨decide_eq_true holds, later.reverse, earlier.reverse, ?_, ?_⟩
    · simp
    · intro other member
      have fails := others other (List.mem_reverse.mp member)
      rw [Bool.not_eq_true']
      exact decide_eq_false fails

theorem recorded_iff {calls : List Call} {timestamp : Word} {call : Call} :
    Recorded calls timestamp call ↔
      latest calls timestamp = some call ∧
        call.block.timestamp = timestamp := by
  rw [latest_eq_some_iff]
  constructor
  · rintro ⟨⟨earlier, later, splits, newest, kept⟩, system, rfl⟩
    refine ⟨⟨earlier, later, splits, ⟨system, rfl⟩, ?_⟩, rfl⟩
    rintro other member ⟨otherSystem, shares⟩
    by_cases same : other.block.timestamp = call.block.timestamp
    · exact newest other member otherSystem same
    · exact kept other member otherSystem same
        (timestampSlot_eq_iff.mp shares)
  · rintro ⟨⟨earlier, later, splits, ⟨system, -⟩, others⟩, rfl⟩
    refine ⟨⟨earlier, later, splits, ?_, ?_⟩, system, rfl⟩
    · intro other member otherSystem same
      exact others other member ⟨otherSystem, by rw [same]⟩
    · intro other member otherSystem _ shares
      exact others other member
        ⟨otherSystem, timestampSlot_eq_iff.mpr shares⟩

end Recorded

section Answered

variable {host : Address → Data → Reply} {calls : List Call}
  {storage : Storage} {request call : Call} {timestamp : Word}

/-- The calldata of a request are the bytes of a word. -/
def Call.Encodes (request : Call) (word : Word) : Prop :=
  request.calldata.val = wordBytes word

def Returns (code : Code) (host : Address → Data → Reply) (storage : Storage)
    (request : Call) (bytes : List Byte) : Prop :=
  ∃ data : Data, data.val = bytes ∧
    Answers code host storage request (.success data storage)

def Reverts (code : Code) (host : Address → Data → Reply) (storage : Storage)
    (request : Call) : Prop :=
  ∃ data, Answers code host storage request (.revert data)

/-- The root, the randao and the block number that a system call stores. -/
def Call.recordBytes (call : Call) : List Byte :=
  call.calldata.val ++ wordBytes call.block.prevrandao ++
    wordBytes call.block.number

theorem word_of_whole (whole : call.calldata.val.length = 32) :
    wordBytes call.word = call.calldata.val := by
  have sliced := call.calldata.slice_zero_length
  rw [whole] at sliced
  rw [Call.word, sliced, wordBytes_ofBytes whole]

theorem Call.Encodes.whole (encodes : request.Encodes timestamp) :
    request.calldata.val.length = 32 := by
  rw [encodes, length_wordBytes]

theorem Call.Encodes.word (encodes : request.Encodes timestamp) :
    request.word = timestamp := by
  have read := word_of_whole encodes.whole
  rw [encodes] at read
  have words := congrArg ofBytes read
  rw [ofBytes_wordBytes, ofBytes_wordBytes] at words
  exact words

private theorem stored_of_recorded (kept : Kept storage calls)
    (encodes : request.Encodes timestamp) (nonzero : timestamp ≠ 0)
    (recorded : Recorded calls timestamp call) :
    Stored storage request ∧ entryAt storage timestamp = call.entry := by
  obtain ⟨last, at_⟩ := recorded_iff.mp recorded
  have entry := kept timestamp
  rw [last] at entry
  refine ⟨⟨encodes.whole, ?_, ?_⟩, entry⟩
  · rw [encodes.word]
    exact nonzero
  · rw [encodes.word]
    exact (congrFun entry 0).trans at_

theorem not_stored_of_not_recorded (kept : Kept storage calls)
    (encodes : request.Encodes timestamp)
    (missing : ∀ call, ¬Recorded calls timestamp call) :
    ¬Stored storage request := by
  rintro ⟨-, nonzero, found⟩
  rw [encodes.word] at nonzero found
  have entry := congrFun (kept timestamp) 0
  have stored : entryAt storage timestamp 0 = timestamp := found
  rw [stored] at entry
  cases last : latest calls timestamp with
  | none =>
      rw [last] at entry
      exact nonzero entry
  | some call =>
      rw [last] at entry
      exact missing call (recorded_iff.mpr ⟨last, entry.symm⟩)

theorem modifiedGet_of_recorded (kept : Kept storage calls)
    (encodes : request.Encodes timestamp) (nonzero : timestamp ≠ 0)
    (recorded : Recorded calls timestamp call)
    (whole : call.calldata.val.length = 32) :
    ∃ data : Data, modifiedGet storage request = .success data storage ∧
      data.val = if request.caller = randaoReader then call.recordBytes
        else call.calldata.val := by
  obtain ⟨stored, entry⟩ :=
    stored_of_recorded kept encodes nonzero recorded
  have root : storage (rootSlot timestamp) = call.word := congrFun entry 1
  have randao : storage (randaoSlot timestamp) = call.block.prevrandao :=
    congrFun entry 2
  have number : storage (numberSlot timestamp) = call.block.number :=
    congrFun entry 3
  rw [modifiedGet, if_pos stored, encodes.word, root, randao, number]
  split
  · refine ⟨_, rfl, ?_⟩
    rw [Call.recordBytes, ← word_of_whole whole]
    rfl
  · exact ⟨_, rfl, word_of_whole whole⟩

private theorem modifiedGet_of_not_recorded (kept : Kept storage calls)
    (encodes : request.Encodes timestamp)
    (missing : ∀ call, ¬Recorded calls timestamp call) :
    modifiedGet storage request = .revert Data.empty := by
  rw [modifiedGet, if_neg (not_stored_of_not_recorded kept encodes missing)]

/-- The history contract answers the calls of the reader from this storage. -/
def Deployed (host : Address → Data → Reply) (storage : Storage)
    (block : Block) : Prop :=
  ∀ calldata, ∃ gas inner outcome,
    Answers modifiedContract inner storage
      ⟨randaoReader, calldata, block, true, gas⟩ outcome ∧
    host historyAddress calldata = outcome.reply

theorem reader_not_system (calldata : Data) (block : Block) (isStatic : Bool)
    (gas : Word) :
    ¬Call.IsSystem ⟨randaoReader, calldata, block, isStatic, gas⟩ := by
  intro system
  have same : randaoReader = systemAddress := system
  exact absurd same (by decide)

theorem reply_of_deployed (deployed : Deployed host storage request.block) :
    ∃ gas, host historyAddress request.calldata =
      (modifiedGet storage ⟨randaoReader, request.calldata, request.block, true,
        gas⟩).reply := by
  obtain ⟨gas, inner, outcome, answers, same⟩ := deployed request.calldata
  refine ⟨gas, ?_⟩
  rw [same, answers.unique (modified_get (reader_not_system _ _ _ _))]

/-- The reader contract passes the answer of the history contract on. -/
theorem reader_answers {own : Storage}
    (deployed : Deployed host storage request.block) :
    ∃ inner : Call, inner.caller = randaoReader ∧
      inner.calldata = request.calldata ∧
      Answers readerContract host own request
        (readerGet (modifiedGet storage inner).reply own) := by
  obtain ⟨gas, same⟩ := reply_of_deployed deployed
  refine ⟨⟨randaoReader, request.calldata, request.block, true, gas⟩, rfl, rfl,
    ?_⟩
  rw [← same]
  exact reader_get

private theorem user_of_reader (reader : request.caller = randaoReader) :
    ¬request.IsSystem := by
  intro system
  have same : randaoReader = systemAddress := reader.symm.trans system
  exact absurd same (by decide)

private theorem modifiedGet_of_malformed
    (malformed : request.calldata.val.length ≠ 32 ∨ request.Encodes 0) :
    modifiedGet storage request = .revert Data.empty := by
  apply if_neg
  rintro ⟨whole, nonzero, -⟩
  cases malformed with
  | inl other => exact other whole
  | inr zero => exact nonzero zero.word

end Answered

section Samples

def nobody : Address → Data → Reply := fun _ _ => ⟨false, Data.empty⟩

/-- The history contract as the reader of a block calls it. -/
def deployedHost (storage : Storage) (block : Block) : Address → Data → Reply :=
  fun _ calldata =>
    (modifiedGet storage ⟨randaoReader, calldata, block, true, 0⟩).reply

private theorem deployed_deployedHost (storage : Storage) (block : Block) :
    Deployed (deployedHost storage block) storage block := by
  intro calldata
  exact ⟨0, nobody, _, modified_get (reader_not_system _ _ _ _), rfl⟩

def sampleRoot : Data := ⟨List.replicate 32 7, by decide⟩

def sampleSystemCall : Call :=
  ⟨systemAddress, sampleRoot, ⟨8196, 9, 3⟩, false, 0⟩

def sampleRequest (caller : Address) : Call :=
  ⟨caller, Data.ofWord 8196, ⟨8208, 4, 4⟩, false, 0⟩

/-- An earlier root at a timestamp of the same residue is overwritten. -/
def sampleHistory : List Call :=
  [⟨systemAddress, Data.ofWord 6, ⟨5, 1, 2⟩, false, 0⟩, sampleRequest 1,
    sampleSystemCall, sampleRequest randaoReader]

private theorem encodes_sampleRequest (caller : Address) :
    (sampleRequest caller).Encodes 8196 := rfl

theorem recorded_sampleSystemCall :
    Recorded sampleHistory 8196 sampleSystemCall := by
  rw [recorded_iff]
  constructor
  · decide +kernel
  · rfl

end Samples

section Claimed

variable {host : Address → Data → Reply} {calls : List Call}

/-- After every history the contracts answer from the last system call of a
timestamp, when it has not been overwritten. -/
theorem history_answers
    (systemCalls : ∀ call ∈ calls, call.IsSystem →
      call.calldata.val.length = 32 ∧ call.isStatic = false) :
    ∃ storage,
      (∀ finish, Run (Called modifiedContract host) emptyStorage calls finish ↔
        finish = storage) ∧
      (∀ (request : Call) (timestamp : Word), ¬request.IsSystem →
        request.caller ≠ randaoReader → request.Encodes timestamp →
        timestamp ≠ 0 →
        (∀ call, Recorded calls timestamp call →
          Returns modifiedContract host storage request call.calldata.val) ∧
        ((∀ call, ¬Recorded calls timestamp call) →
          Reverts modifiedContract host storage request)) ∧
      (∀ (request : Call) (timestamp : Word), request.caller = randaoReader →
        request.Encodes timestamp → timestamp ≠ 0 →
        (∀ call, Recorded calls timestamp call →
          Returns modifiedContract host storage request call.recordBytes) ∧
        ((∀ call, ¬Recorded calls timestamp call) →
          Reverts modifiedContract host storage request)) ∧
      (∀ (readerHost : Address → Data → Reply) (own : Storage)
          (request : Call) (timestamp : Word),
        Deployed readerHost storage request.block →
        request.Encodes timestamp → timestamp ≠ 0 →
        (∀ call, Recorded calls timestamp call →
          Returns readerContract readerHost own request call.recordBytes) ∧
        ((∀ call, ¬Recorded calls timestamp call) →
          Reverts readerContract readerHost own request)) ∧
      (∀ request : Call, ¬request.IsSystem →
        request.calldata.val.length ≠ 32 ∨ request.Encodes 0 →
        Reverts modifiedContract host storage request) ∧
      (∀ (readerHost : Address → Data → Reply) (own : Storage)
          (request : Call), Deployed readerHost storage request.block →
        request.calldata.val.length ≠ 32 ∨ request.Encodes 0 →
        Reverts readerContract readerHost own request) ∧
      (∀ (request : Call) (state : Storage) (outcome : Outcome),
        ¬request.IsSystem →
        Answers modifiedContract host state request outcome →
        outcome.storage state = state) := by
  have writes : ∀ call ∈ calls, call.IsSystem → call.isStatic = false :=
    fun call member system => (systemCalls call member system).2
  have runs := fun finish =>
    @Run.iff_foldl _ _ (Called modifiedContract host) modifiedNext emptyStorage
      finish calls fun _ _ _ _ =>
        called_modified
  have kept := kept_of_run writes ((runs _).mpr rfl)
  have whole : ∀ {timestamp call}, Recorded calls timestamp call →
      call.calldata.val.length = 32 := by
    intro timestamp call recorded
    obtain ⟨⟨earlier, later, splits, -⟩, system, -⟩ := recorded
    have member : call ∈ calls := by
      rw [splits]
      simp
    exact (systemCalls call member system).1
  refine ⟨_, runs, ?_, ?_, ?_, ?_, ?_, ?_⟩
  · intro request timestamp user other encodes nonzero
    constructor
    · intro call recorded
      obtain ⟨data, gives, bytes⟩ := modifiedGet_of_recorded kept encodes
        nonzero recorded (whole recorded)
      rw [if_neg other] at bytes
      exact ⟨data, bytes, gives ▸ modified_get user⟩
    · intro missing
      exact ⟨Data.empty,
        modifiedGet_of_not_recorded kept encodes missing ▸ modified_get user⟩
  · intro request timestamp reader encodes nonzero
    have user := user_of_reader reader
    constructor
    · intro call recorded
      obtain ⟨data, gives, bytes⟩ := modifiedGet_of_recorded kept encodes
        nonzero recorded (whole recorded)
      rw [if_pos reader] at bytes
      exact ⟨data, bytes, gives ▸ modified_get user⟩
    · intro missing
      exact ⟨Data.empty,
        modifiedGet_of_not_recorded kept encodes missing ▸ modified_get user⟩
  · intro readerHost own request timestamp deployed encodes nonzero
    obtain ⟨inner, reader, passed, answers⟩ :=
      @reader_answers _ _ _ own deployed
    have innerEncodes : inner.Encodes timestamp := by
      unfold Call.Encodes
      rw [passed]
      exact encodes
    constructor
    · intro call recorded
      obtain ⟨data, gives, bytes⟩ := modifiedGet_of_recorded kept innerEncodes
        nonzero recorded (whole recorded)
      rw [if_pos reader] at bytes
      rw [gives] at answers
      exact ⟨data, bytes, answers⟩
    · intro missing
      rw [modifiedGet_of_not_recorded kept innerEncodes missing] at answers
      exact ⟨Data.empty, answers⟩
  · intro request user malformed
    exact ⟨Data.empty,
      modifiedGet_of_malformed malformed ▸ modified_get user⟩
  · intro readerHost own request deployed malformed
    obtain ⟨inner, _, passed, answers⟩ :=
      @reader_answers _ _ _ own deployed
    have innerMalformed :
        inner.calldata.val.length ≠ 32 ∨ inner.Encodes 0 := by
      unfold Call.Encodes
      rw [passed]
      exact malformed
    rw [modifiedGet_of_malformed innerMalformed] at answers
    exact ⟨Data.empty, answers⟩
  · intro request state outcome user answers
    rw [answers.unique (modified_get user)]
    exact modifiedGet_storage

theorem history_answers_sampleHistory :
    ∃ storage,
      Run (Called modifiedContract nobody) emptyStorage sampleHistory storage ∧
      Returns modifiedContract nobody storage (sampleRequest 1)
        sampleRoot.val ∧
      Returns modifiedContract nobody storage (sampleRequest randaoReader)
        sampleSystemCall.recordBytes ∧
      Returns readerContract (deployedHost storage (sampleRequest 1).block)
        emptyStorage (sampleRequest 1) sampleSystemCall.recordBytes ∧
      Reverts readerContract (deployedHost storage ⟨8208, 4, 4⟩) emptyStorage
        ⟨1, Data.empty, ⟨8208, 4, 4⟩, false, 0⟩ := by
  obtain ⟨storage, runs, users, reader, contract, -, malformed, -⟩ :=
    @history_answers nobody sampleHistory (by decide)
  have recorded := recorded_sampleSystemCall
  refine ⟨storage, (runs storage).mpr rfl, ?_, ?_, ?_, ?_⟩
  · exact (users _ _ (by decide) (by decide) (encodes_sampleRequest 1)
      (by decide)).1 _ recorded
  · exact (reader _ _ rfl (encodes_sampleRequest randaoReader) (by decide)).1 _
      recorded
  · exact (contract _ _ _ _ (deployed_deployedHost _ _)
      (encodes_sampleRequest 1) (by decide)).1 _ recorded
  · exact malformed _ _ _ (deployed_deployedHost _ _) (.inl (by decide))

end Claimed

end Eip4788

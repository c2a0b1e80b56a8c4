import Igra.Calf.DataAvailability

/-!
# Announced batches

A worker announces a batch to its primary before it stores it.  What it has
announced is stored all the same, or is about to be, unless the database failed
to store it.
-/

open Rust Runs

namespace Calf

namespace Worker

/-- The batch is in the database, or one of the tasks is about to put it
there. -/
def Held (crypto : Crypto) (state : State) (digest : Digest) : Prop :=
  Available crypto state.database digest ∨
    (∃ waiting, state.waiter = .inserting waiting ∧
      waiting.digest = digest) ∨
    ∃ batch, state.receiver = .storing batch ∧
      digestOf crypto batch = digest

/-- The database fails to store the batch. -/
def FailsToStore (crypto : Crypto) (digest : Digest) (state : State) :
    Event → Prop
  | .insert false =>
      ∃ waiting, state.waiter = .inserting waiting ∧ waiting.digest = digest
  | .store false =>
      ∃ batch, state.receiver = .storing batch ∧
        digestOf crypto batch = digest
  | _ => False

/-- The database has failed to store the batch on the way. -/
def Lost (config : Config) (initial : State) (events : List Event)
    (digest : Digest) : Prop :=
  ∃ earlier event later before, events = earlier ++ event :: later ∧
    Run (Step config) initial earlier before ∧
    FailsToStore config.crypto digest before event

section Rules

variable {config : Config} {initial state next : State} {event : Event}
  {events : List Event} {digest : Digest}

theorem Lost.extend (lost : Lost config initial events digest)
    (event : Event) : Lost config initial (events ++ [event]) digest := by
  obtain ⟨earlier, failed, later, before, split, run, fails⟩ := lost
  exact ⟨earlier, failed, later ++ [event], before, by simp [split], run,
    fails⟩

theorem available_cons {database : Database} (crypto : Crypto)
    (batch : Batch Transaction) :
    Available crypto ((digestOf crypto batch, batch) :: database)
        (digestOf crypto batch) ∧
      (Available crypto database digest →
        Available crypto ((digestOf crypto batch, batch) :: database)
          digest) := by
  have added : Available crypto ((digestOf crypto batch, batch) :: database)
      (digestOf crypto batch) :=
    ⟨batch, List.lookup_cons_self, rfl⟩
  refine ⟨added, ?_⟩
  rintro ⟨stored, found, named⟩
  by_cases same : digest = digestOf crypto batch
  · rw [same]
    exact added
  · refine ⟨stored, ?_, named⟩
    have other : (digest == digestOf crypto batch) = false :=
      beq_false_of_ne same
    rw [List.lookup_cons, other]
    exact found

theorem acknowledging_of_step {sent : Bool}
    (taken : Step config state (.acknowledge sent) next) :
    ∃ batch sender, state.receiver = .acknowledging batch sender := by
  unfold Step at taken
  simp only [perform] at taken
  split at taken
  · rename_i batch sender acknowledging
    exact ⟨batch, sender, acknowledging⟩
  · cases taken

theorem announcing_of_step {sent : Bool}
    (taken : Step config state (.announce sent) next) :
    ∃ batch, state.receiver = .announcing batch := by
  unfold Step at taken
  simp only [perform] at taken
  split at taken
  · rename_i batch announcing
    exact ⟨batch, announcing⟩
  · cases taken

/-- What is held stays held when a receiver that is not storing moves on. -/
theorem Held.receiver (held : Held config.crypto state digest)
    (idle : ∀ batch, state.receiver ≠ .storing batch) (receiver : Receiver)
    (requests : List NetworkRequest) :
    Held config.crypto { state with receiver, requests } digest := by
  rcases held with stored | inserting | ⟨batch, storing, -⟩
  · exact .inl stored
  · exact .inr (.inl inserting)
  · exact absurd storing (idle batch)

/-- The batches of the quorum waiter are under their digests, and what was
announced is held or lost. -/
structure Attested (config : Config) (initial : State) (events : List Event)
    (state : State) : Prop where
  waiting : ∀ waiting ∈ state.batches,
    waiting.digest = digestOf config.crypto waiting.batch
  inserting : ∀ waiting, state.waiter = .inserting waiting →
    waiting.digest = digestOf config.crypto waiting.batch
  announced : ∀ digest source,
    .sendToPrimary (.digest digest source) ∈ state.requests →
      Held config.crypto state digest ∨ Lost config initial events digest

/-- The digests that were announced before a step stay held or lost when what
was held is. -/
theorem Attested.keep (attested : Attested config initial events state)
    (held : ∀ digest, Held config.crypto state digest →
      Held config.crypto next digest ∨
        Lost config initial (events ++ [event]) digest)
    (announced : ∀ digest source,
      .sendToPrimary (.digest digest source) ∈ next.requests →
        .sendToPrimary (.digest digest source) ∈ state.requests ∨
          Held config.crypto next digest) :
    ∀ digest source,
      .sendToPrimary (.digest digest source) ∈ next.requests →
        Held config.crypto next digest ∨
          Lost config initial (events ++ [event]) digest := by
  intro digest source member
  rcases announced digest source member with old | new
  · rcases attested.announced digest source old with here | lost
    · exact held digest here
    · exact .inr (lost.extend event)
  · exact .inl new

theorem Attested.step (attested : Attested config initial events state)
    (run : Run (Step config) initial events state)
    (taken : Step config state event next) :
    Attested config initial (events ++ [event]) next := by
  have failed : ∀ digest, FailsToStore config.crypto digest state event →
      Lost config initial (events ++ [event]) digest :=
    fun digest fails => ⟨events, event, [], state, by simp, run, fails⟩
  cases taken.performs with
  | @batch batch received now selecting =>
      refine ⟨?_, attested.inserting, attested.keep (fun _ => .inl)
        fun _ _ => .inl⟩
      intro waiting member
      rcases mem_receiveBatch member with old | ⟨rfl, -⟩
      · exact attested.waiting waiting old
      · rfl
  | counted selecting counted =>
      exact ⟨(named_receiveAcknowledgment attested.waiting counted).1,
        attested.inserting, attested.keep (fun _ => .inl) fun _ _ => .inl⟩
  | @reached ack sender batches closed selecting reached =>
      obtain ⟨named, quorum⟩ :=
        named_receiveAcknowledgment attested.waiting reached
      obtain ⟨waiting, member, rfl, -, -⟩ := quorum closed rfl
      refine ⟨named, ?_, attested.keep ?_ ?_⟩
      · rintro _ ⟨⟩
        exact attested.waiting waiting member
      · rintro digest (stored | ⟨other, inserting, -⟩ | storing)
        · exact .inl (.inl stored)
        · rw [selecting] at inserting
          cases inserting
        · exact .inl (.inr (.inr storing))
      · intro digest source sent
        rcases List.mem_append.mp sent with old | new
        · exact .inl old
        · cases List.mem_singleton.mp new
          exact .inr (.inr (.inl ⟨_, rfl, rfl⟩))
  | unsent selecting =>
      refine ⟨attested.waiting, by simp, attested.keep ?_ fun _ _ => .inl⟩
      rintro digest (stored | ⟨other, inserting, -⟩ | storing)
      · exact .inl (.inl stored)
      · rw [selecting] at inserting
        cases inserting
      · exact .inl (.inr (.inr storing))
  | @inserted waiting inserting =>
      have named := attested.inserting waiting inserting
      refine ⟨attested.waiting, by simp, attested.keep ?_ fun _ _ => .inl⟩
      rintro digest (stored | ⟨other, again, rfl⟩ | storing)
      · rw [named]
        exact .inl (.inl ((available_cons config.crypto _).2 stored))
      · rw [inserting] at again
        cases again
        rw [named]
        exact .inl (.inl (@available_cons (digestOf config.crypto
          waiting.batch) _ config.crypto waiting.batch).1)
      · exact .inl (.inr (.inr storing))
  | @notInserted waiting inserting =>
      refine ⟨attested.waiting, by simp, attested.keep ?_ fun _ _ => .inl⟩
      rintro digest (stored | ⟨other, again, named⟩ | storing)
      · exact .inl (.inl stored)
      · exact .inr (failed digest ⟨other, again, named⟩)
      · exact .inl (.inr (.inr storing))
  | receive receiving =>
      refine ⟨attested.waiting, attested.inserting, attested.keep ?_
        fun _ _ => .inl⟩
      exact fun digest held => .inl (held.receiver (by simp [receiving]) _ _)
  | acknowledge acknowledging =>
      refine ⟨attested.waiting, attested.inserting, attested.keep ?_ ?_⟩
      · exact fun digest held =>
          .inl (held.receiver (by simp [acknowledging]) _ _)
      · intro digest source sent
        rcases List.mem_append.mp sent with old | new
        · exact .inl old
        · cases List.mem_singleton.mp new
  | notAcknowledged =>
      obtain ⟨_, _, acknowledging⟩ := acknowledging_of_step taken
      refine ⟨attested.waiting, attested.inserting, attested.keep ?_
        fun _ _ => .inl⟩
      exact fun digest held =>
        .inl (held.receiver (by simp [acknowledging]) _ _)
  | announce announcing =>
      refine ⟨attested.waiting, attested.inserting, attested.keep ?_ ?_⟩
      · exact fun digest held =>
          .inl (held.receiver (by simp [announcing]) _ _)
      · intro digest source sent
        rcases List.mem_append.mp sent with old | new
        · exact .inl old
        · cases List.mem_singleton.mp new
          exact .inr (.inr (.inr ⟨_, rfl, rfl⟩))
  | notAnnounced =>
      obtain ⟨_, announcing⟩ := announcing_of_step taken
      refine ⟨attested.waiting, attested.inserting, attested.keep ?_
        fun _ _ => .inl⟩
      exact fun digest held => .inl (held.receiver (by simp [announcing]) _ _)
  | @store batch storing =>
      refine ⟨attested.waiting, attested.inserting, attested.keep ?_
        fun _ _ => .inl⟩
      rintro digest (stored | inserting | ⟨other, again, rfl⟩)
      · exact .inl (.inl ((available_cons config.crypto _).2 stored))
      · exact .inl (.inr (.inl inserting))
      · rw [storing] at again
        cases again
        exact .inl (.inl (@available_cons (digestOf config.crypto batch) _
          config.crypto batch).1)
  | notStored =>
      refine ⟨attested.waiting, attested.inserting, attested.keep ?_
        fun _ _ => .inl⟩
      rintro digest (stored | inserting | storing)
      · exact .inl (.inl stored)
      · exact .inl (.inr (.inl inserting))
      · exact .inr (failed digest storing)

end Rules

end Worker

end Calf

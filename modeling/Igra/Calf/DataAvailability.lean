import Igra.Calf.AcknowledgmentQuorum

/-!
# Data availability

A digest sent to the primary and an acknowledgment stand for a batch that the
worker can serve.  Both tasks of the worker send first and store afterwards.
-/

open Rust Runs

namespace Calf

namespace Worker

/-- The batch with the digest is in the database. -/
def Available (crypto : Crypto) (database : Database) (digest : Digest) :
    Prop :=
  ∃ batch, database.lookup digest = some batch ∧
    digestOf crypto batch = digest

/-- The digest for which a request stands. -/
def attested : NetworkRequest → Option Digest
  | .sendToPrimary (.digest digest _) => some digest
  | .sendTo _ (.acknowledgment ack) => some ack.digest
  | _ => none

/-- What was sent so far stands for batches in the database. -/
def Served (crypto : Crypto) (state : State) : Prop :=
  ∀ request ∈ state.requests, ∀ digest ∈ attested request,
    Available crypto state.database digest

/-- The batch whose quorum is reached, and the batch that is acknowledged, are
in the database from before. -/
def Known (config : Config) (database : Database) (state : State) :
    Event → Prop
  | .acknowledgment ack sender true =>
      (∃ waiting ∈ state.batches, waiting.digest = ack.digest ∧
        config.quorumThreshold ≤
          (waiting.acknowledge sender).acknowledgers.length % 2 ^ 32) →
      Available config.crypto database ack.digest
  | .acknowledge true =>
      ∀ batch sender, state.receiver = .acknowledging batch sender →
        Available config.crypto database (digestOf config.crypto batch)
  | _ => True

/-- As long as the batches are known, storing them makes no difference. -/
structure Backed (config : Config) (database : Database) (state : State) :
    Prop where
  distinct : Distinct state.batches
  named : ∀ waiting ∈ state.batches,
    waiting.digest = digestOf config.crypto waiting.batch
  stored : ∀ digest, Available config.crypto state.database digest ↔
    Available config.crypto database digest
  sent : ∀ request ∈ state.requests, ∀ digest ∈ attested request,
    Available config.crypto database digest
  inserting : ∀ waiting, state.waiter = .inserting waiting →
    waiting.digest = digestOf config.crypto waiting.batch ∧
    Available config.crypto database waiting.digest
  handled : ∀ batch,
    state.receiver = .announcing batch ∨ state.receiver = .storing batch →
    Available config.crypto database (digestOf config.crypto batch)

section Rules

variable {config : Config} {database : Database} {state next : State}
  {event : Event}

theorem available_insert {batch : Batch Transaction} {digest : Digest}
    (available : Available config.crypto database
      (digestOf config.crypto batch)) :
    Available config.crypto
        ((digestOf config.crypto batch, batch) :: database) digest ↔
      Available config.crypto database digest := by
  by_cases same : digest = digestOf config.crypto batch
  · subst same
    refine iff_of_true ⟨batch, ?_, rfl⟩ available
    simp
  · have other : (digest == digestOf config.crypto batch) = false :=
      beq_false_of_ne same
    simp only [Available, List.lookup_cons, other]

/-- The batches on the list keep their digests. -/
theorem named_receiveAcknowledgment {ack : Acknowledgment} {sender : PeerId}
    {batches left : List WaitingBatch} {reached : Option WaitingBatch}
    (named : ∀ waiting ∈ batches,
      waiting.digest = digestOf config.crypto waiting.batch)
    (result : receiveAcknowledgment config ack sender batches =
      (left, reached)) :
    (∀ waiting ∈ left,
      waiting.digest = digestOf config.crypto waiting.batch) ∧
    ∀ waiting ∈ reached, ∃ earlier ∈ batches,
      waiting = earlier.acknowledge sender ∧
      earlier.digest = ack.digest ∧
      config.quorumThreshold ≤
        (earlier.acknowledge sender).acknowledgers.length % 2 ^ 32 := by
  rcases receiveAcknowledgment_cases config ack sender batches with
    ⟨-, same⟩ | ⟨front, closest, back, rfl, equal, ⟨enough, gone⟩ | ⟨-, kept⟩⟩
  · rw [same] at result
    cases result
    exact ⟨named, by simp⟩
  · rw [gone] at result
    cases result
    constructor
    · intro waiting member
      refine named waiting ?_
      rcases List.mem_append.mp member with front | back
      · exact List.mem_append_left _ front
      · exact List.mem_append_right _ (List.mem_cons_of_mem _ back)
    · rintro waiting ⟨⟩
      exact ⟨closest, by simp, rfl, equal, enough⟩
  · rw [kept] at result
    cases result
    refine ⟨?_, by simp⟩
    intro waiting member
    simp only [List.mem_append, List.mem_cons] at member
    rcases member with front | rfl | back
    · exact named waiting (by simp [front])
    · exact named closest (by simp)
    · exact named waiting (by simp [back])

namespace Backed

theorem start : Backed config database (Worker.start database) where
  distinct := List.nodup_nil
  named := by simp [Worker.start]
  stored _ := Iff.rfl
  sent := by simp [Worker.start]
  inserting := by simp [Worker.start]
  handled := by simp [Worker.start]

theorem served (backed : Backed config database state) :
    Served config.crypto state := by
  intro request member digest stands
  exact (backed.stored digest).mpr (backed.sent request member digest stands)

theorem sent_append (backed : Backed config database state)
    {request : NetworkRequest} {digest : Digest}
    (stands : attested request = some digest)
    (available : Available config.crypto database digest) :
    ∀ other ∈ state.requests ++ [request], ∀ digest ∈ attested other,
      Available config.crypto database digest := by
  intro other member attestedDigest equal
  rcases List.mem_append.mp member with old | new
  · exact backed.sent other old attestedDigest equal
  · rw [List.mem_singleton.mp new, stands] at equal
    cases equal
    exact available

theorem stored_insert (backed : Backed config database state)
    {batch : Batch Transaction}
    (available : Available config.crypto database
      (digestOf config.crypto batch)) (digest : Digest) :
    Available config.crypto
        ((digestOf config.crypto batch, batch) :: state.database) digest ↔
      Available config.crypto database digest :=
  (available_insert ((backed.stored _).mpr available)).trans
    (backed.stored digest)

theorem step (backed : Backed config database state)
    (known : Known config database state event)
    (taken : Step config state event next) :
    Backed config database next := by
  have distinct := backed.distinct.step taken
  cases taken.performs with
  | @batch batch received now selecting =>
      refine { backed with distinct := distinct, named := ?_ }
      intro waiting member
      rcases mem_receiveBatch member with old | ⟨rfl, -⟩
      · exact backed.named waiting old
      · rfl
  | counted selecting counted =>
      exact { backed with
        distinct := distinct
        named := (named_receiveAcknowledgment backed.named counted).1 }
  | @reached ack sender batches closed selecting reached =>
      obtain ⟨named, quorum⟩ :=
        named_receiveAcknowledgment backed.named reached
      obtain ⟨waiting, member, rfl, equal, enough⟩ := quorum closed rfl
      have available : Available config.crypto database waiting.digest := by
        rw [equal]
        exact known ⟨waiting, member, equal, enough⟩
      refine { backed with
        distinct := distinct
        named := named
        sent := backed.sent_append rfl available
        inserting := ?_ }
      rintro _ ⟨⟩
      exact ⟨backed.named waiting member, available⟩
  | unsent selecting =>
      exact { backed with inserting := by simp }
  | inserted inserting =>
      obtain ⟨named, available⟩ := backed.inserting _ inserting
      refine { backed with inserting := by simp, stored := ?_ }
      rw [named] at available ⊢
      exact backed.stored_insert available
  | notInserted inserting =>
      exact { backed with inserting := by simp }
  | receive receiving =>
      exact { backed with handled := by simp }
  | acknowledge acknowledging =>
      have available := known _ _ acknowledging
      refine { backed with
        sent := backed.sent_append rfl available
        handled := ?_ }
      rintro _ (⟨⟨⟩⟩ | ⟨⟨⟩⟩)
      exact available
  | notAcknowledged => exact { backed with handled := by simp }
  | announce announcing =>
      have available := backed.handled _ (.inl announcing)
      refine { backed with
        sent := backed.sent_append rfl available
        handled := ?_ }
      rintro _ (⟨⟨⟩⟩ | ⟨⟨⟩⟩)
      exact available
  | notAnnounced => exact { backed with handled := by simp }
  | store storing =>
      exact { backed with
        stored := backed.stored_insert (backed.handled _ (.inr storing))
        handled := by simp }
  | notStored => exact { backed with handled := by simp }

/-- A batch is not stored in the step that sends its digest. -/
theorem known (backed : Backed config database state)
    (after : Served config.crypto next)
    (taken : Step config state event next) :
    Known config database state event := by
  cases taken.performs with
  | @reached ack sender batches closed selecting reached =>
      rintro -
      obtain ⟨-, quorum⟩ := named_receiveAcknowledgment backed.named reached
      obtain ⟨waiting, -, rfl, equal, -⟩ := quorum closed rfl
      rw [← equal]
      exact (backed.stored _).mp
        (after _ (List.mem_append_right _ (List.mem_singleton_self _)) _ rfl)
  | @counted ack sender sent batches selecting counted =>
      cases sent with
      | false => trivial
      | true =>
          rintro ⟨waiting, member, equal, enough⟩
          rcases receiveAcknowledgment_cases config ack sender state.batches
            with ⟨none, -⟩ | ⟨front, closest, back, apart, named,
              ⟨-, left⟩ | ⟨short, -⟩⟩
          · exact absurd equal (none waiting member)
          · rw [left] at counted
            cases counted
          · have same := backed.distinct.unique member
              (show closest ∈ state.batches by simp [apart])
              (equal.trans named.symm)
            rw [same] at enough
            omega
  | acknowledge acknowledging =>
      intro batch sender receiver
      rw [acknowledging] at receiver
      cases receiver
      exact (backed.stored _).mp
        (after _ (List.mem_append_right _ (List.mem_singleton_self _)) _ rfl)
  | _ => trivial

end Backed

/-- Everything sent along a run stands for batches that are stored exactly when
the batches that reach a quorum or are acknowledged were stored before the run
began. -/
theorem served_iff_known {events : List Event} {finish : State}
    (run : Run (Step config) (Worker.start database) events finish) :
    Always (Step config) (Served config.crypto) (Worker.start database)
        events ↔
      Run (restrict (Known config database) (Step config))
        (Worker.start database) events finish :=
  run.always_iff step_deterministic Backed.start
    (fun _ _ _ backed known taken => backed.step known taken)
    (fun _ backed => backed.served)
    (fun _ _ _ backed after taken => backed.known after taken)

end Rules

section SampleBatches

def acknowledgedState : State where
  batches := []
  waiter := .selecting
  receiver := .announcing sampleBatch
  requests := [.sendTo [7] (.acknowledgment ⟨sampleDigest⟩)]
  database := []

/-- The first batch of a worker is acknowledged, and nothing is stored yet. -/
theorem first_batch_unavailable :
    Run (Step sampleConfig) (Worker.start [])
        [.receive sampleBatch [7], .acknowledge true] acknowledgedState ∧
      ¬Served sampleCrypto acknowledgedState := by
  constructor
  · exact (@Run.of_follow _ _ (fun _ _ => True) _ (perform sampleConfig) _ _ _ _
      (fun _ _ _ performed => performed) (by decide +kernel)).unrestrict
  · intro served
    obtain ⟨batch, stored, -⟩ := served _ (List.mem_singleton_self _)
      sampleDigest rfl
    cases stored

def sampleStored : Database := [(sampleDigest, sampleBatch)]

def receivingState : State :=
  { start sampleStored with receiver := .acknowledging sampleBatch [7] }

def announcingState : State where
  batches := []
  waiter := .selecting
  receiver := .announcing sampleBatch
  requests := [.sendTo [7] (.acknowledgment ⟨sampleDigest⟩)]
  database := sampleStored

/-- A batch that is delivered again was stored the first time. -/
theorem second_delivery_available :
    Always (Step sampleConfig) (Served sampleCrypto) (start sampleStored)
      [.receive sampleBatch [7], .acknowledge true] := by
  have permitted : Run (restrict (Known sampleConfig sampleStored)
      (Step sampleConfig)) (start sampleStored)
      [.receive sampleBatch [7], .acknowledge true] announcingState := by
    refine .extend (@Run.extend _ _ _ _ _ _ receivingState _ .start
      ⟨trivial, rfl⟩) ⟨?_, rfl⟩
    rintro batch sender ⟨⟩
    exact ⟨sampleBatch, List.lookup_cons_self, rfl⟩
  exact (served_iff_known permitted.unrestrict).mpr permitted

end SampleBatches

end Worker

end Calf

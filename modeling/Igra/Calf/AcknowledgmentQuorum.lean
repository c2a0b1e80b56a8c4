import Igra.Calf.Worker

/-!
# Quorums of acknowledgments

When the quorum waiter sends a digest to the primary, the batch has waited
since it came in, and enough peers have acknowledged it meanwhile.  The batch
waits no longer, so that later acknowledgments have no effect.
-/

open Rust Runs

namespace Calf

namespace Worker

def Waits (digest : Digest) (state : State) : Prop :=
  ∃ waiting ∈ state.batches, waiting.digest = digest

/-- How often the quorum waiter has sent the digest. -/
def announcements (digest : Digest) (state : State) : Nat :=
  state.requests.count (waiterDigest digest)

def acknowledger (digest : Digest) : Event → Option PeerId
  | .acknowledgment ack sender _ =>
      if ack.digest = digest then some sender else none
  | _ => none

/-- The peers whose acknowledgments for the digest were received. -/
def acknowledgersOf (digest : Digest) (events : List Event) : List PeerId :=
  events.filterMap (acknowledger digest)

/-- A batch with the digest was put on the list before these last events.  It
has been there ever since, and its digest has not been sent. -/
def WaitsSince (config : Config) (initial : State) (digest : Digest)
    (since events : List Event) (state : State) : Prop :=
  ∃ earlier batch received now before opened,
    events = earlier ++ .batch batch received now :: since ∧
    digestOf config.crypto batch = digest ∧
    Run (Step config) initial earlier before ∧ ¬Waits digest before ∧
    Step config before (.batch batch received now) opened ∧
    Waits digest opened ∧
    Run (fun state event next => Step config state event next ∧
      Waits digest next) opened since state ∧
    announcements digest state = announcements digest opened

/-- The acknowledgers of a batch on the list are different peers that have
acknowledged it since it was put there. -/
def Collecting (config : Config) (initial : State) (events : List Event)
    (state : State) (waiting : WaitingBatch) : Prop :=
  waiting.acknowledgers.Nodup ∧
  ∃ since, WaitsSince config initial waiting.digest since events state ∧
    ∀ peer ∈ waiting.acknowledgers,
      peer ∈ acknowledgersOf waiting.digest since

section Rules

variable {config : Config} {initial state next : State}
  {events since : List Event} {event : Event} {digest : Digest}

/-- The waiter's digests are unlike the receiver's requests. -/
theorem announcements_append {request : NetworkRequest}
    (other : request ≠ waiterDigest digest) (requests : List NetworkRequest) :
    (requests ++ [request]).count (waiterDigest digest) =
      requests.count (waiterDigest digest) := by
  rw [List.count_append, List.count_singleton]
  simp [other]

/-- Only a quorum makes the waiter send a digest: that of the acknowledgment,
which then does not wait. -/
theorem announcements_step (distinct : Distinct state.batches)
    (taken : Step config state event next) :
    announcements digest next = announcements digest state ∨
    ∃ ack sender waiting, event = .acknowledgment ack sender true ∧
      waiting ∈ state.batches ∧ waiting.digest = digest ∧
      ack.digest = digest ∧
      config.quorumThreshold ≤
        (waiting.acknowledge sender).acknowledgers.length ∧
      announcements digest next = announcements digest state + 1 ∧
      ¬Waits digest next := by
  cases taken.performs with
  | @reached ack sender batches closed selecting reached =>
      rcases receiveAcknowledgment_cases config ack sender state.batches with
        ⟨-, same⟩ | ⟨front, waiting, back, apart, same, ⟨enough, left⟩ |
          ⟨-, kept⟩⟩
      · rw [same] at reached
        cases reached
      · rw [left] at reached
        cases reached
        by_cases announced : ack.digest = digest
        · right
          refine ⟨ack, sender, waiting, rfl, by simp [apart],
            same.trans announced, announced, ?_, ?_, ?_⟩
          · exact enough.trans (Nat.mod_le _ _)
          · simp [announcements, same, announced]
          · rintro ⟨other, member, equal⟩
            unfold Distinct at distinct
            rw [apart, List.map_append, List.map_cons,
              List.nodup_middle, List.nodup_cons, ← List.map_append] at distinct
            refine distinct.1 (List.mem_map.mpr ⟨other, member, ?_⟩)
            rw [equal, same, announced]
        · left
          refine announcements_append ?_ _
          simp only [waiterDigest, WaitingBatch.acknowledge_digest, same]
          intro equal
          cases equal
          exact announced rfl
      · rw [kept] at reached
        cases reached
  | acknowledge acknowledging =>
      exact .inl (announcements_append (by simp [waiterDigest]) _)
  | announce announcing =>
      exact .inl (announcements_append (by simp [waiterDigest]) _)
  | _ => exact .inl rfl

theorem acknowledgersOf_append (digest : Digest) (events : List Event)
    (event : Event) :
    acknowledgersOf digest (events ++ [event]) =
      acknowledgersOf digest events ++ (acknowledger digest event).toList := by
  unfold acknowledgersOf
  rw [List.filterMap_append]
  cases result : acknowledger digest event <;> simp [result]

theorem WaitsSince.extend
    (waits : WaitsSince config initial digest since events state)
    (taken : Step config state event next) (still : Waits digest next)
    (silent : announcements digest next = announcements digest state) :
    WaitsSince config initial digest (since ++ [event]) (events ++ [event])
      next := by
  obtain ⟨earlier, batch, received, now, before, opened, split, named, run,
    absent, opening, present, staying, quiet⟩ := waits
  refine ⟨earlier, batch, received, now, before, opened, ?_, named, run,
    absent, opening, present, staying.extend ⟨taken, still⟩,
    silent.trans quiet⟩
  simp [split]

/-- A batch stays on the list, perhaps with one more acknowledger. -/
theorem Collecting.extend {waiting later : WaitingBatch}
    (collecting : Collecting config initial events state waiting)
    (distinct : Distinct state.batches)
    (taken : Step config state event next) (still : later ∈ next.batches)
    (same : later.digest = waiting.digest)
    (acknowledged : later.acknowledgers.Nodup ∧
      ∀ peer ∈ later.acknowledgers, peer ∈ waiting.acknowledgers ∨
        peer ∈ acknowledger waiting.digest event) :
    Collecting config initial (events ++ [event]) next later := by
  obtain ⟨-, since, waits, counted⟩ := collecting
  refine ⟨acknowledged.1, since ++ [event], ?_, ?_⟩
  · rw [same]
    have present : Waits waiting.digest next := ⟨later, still, same⟩
    refine waits.extend taken present ?_
    rcases announcements_step distinct taken with silent | ⟨_, _, _, _, _, _, _,
      _, _, gone⟩
    · exact silent
    · exact absurd present gone
  · intro peer member
    rw [same, acknowledgersOf_append]
    rcases acknowledged.2 peer member with old | new
    · exact List.mem_append_left _ (counted peer old)
    · exact List.mem_append_right _ (Option.mem_toList.mpr new)

theorem Collecting.unchanged {waiting : WaitingBatch}
    (collecting : Collecting config initial events state waiting)
    (distinct : Distinct state.batches)
    (taken : Step config state event next)
    (still : waiting ∈ next.batches) :
    Collecting config initial (events ++ [event]) next waiting :=
  collecting.extend distinct taken still rfl
    ⟨collecting.1, fun _ member => .inl member⟩

theorem Collecting.acknowledge {waiting : WaitingBatch}
    {ack : Acknowledgment} {sender : PeerId} {sent : Bool}
    (collecting : Collecting config initial events state waiting)
    (distinct : Distinct state.batches)
    (taken : Step config state (.acknowledgment ack sender sent) next)
    (named : waiting.digest = ack.digest)
    (still : waiting.acknowledge sender ∈ next.batches) :
    Collecting config initial (events ++ [.acknowledgment ack sender sent])
      next (waiting.acknowledge sender) := by
  refine collecting.extend distinct taken still rfl
    ⟨collecting.1.insert, ?_⟩
  intro peer member
  rcases List.mem_insert_iff.mp member with rfl | old
  · right
    simp [acknowledger, named]
  · exact .inl old

theorem collecting_run (run : Run (Step config) initial events state)
    (empty : initial.batches = []) :
    Distinct state.batches ∧
      ∀ waiting ∈ state.batches,
        Collecting config initial events state waiting := by
  induction run with
  | start => simp [empty, Distinct]
  | @extend events state next event run taken ih =>
      obtain ⟨distinct, collecting⟩ := ih
      refine ⟨distinct.step taken, ?_⟩
      intro waiting member
      have performed := taken.performs
      cases performed with
      | @batch batch received now selecting =>
          rcases mem_receiveBatch member with old | ⟨rfl, absent⟩
          · exact (collecting waiting old).unchanged distinct taken member
          · refine ⟨List.nodup_nil, [], ⟨events, batch, received, now, state,
              _, rfl, rfl, run, ?_, taken, ⟨_, member, rfl⟩, .start, rfl⟩, ?_⟩
            · rintro ⟨other, listed, same⟩
              exact absent other listed same
            · simp [WaitingBatch.new]
      | @counted ack sender sent batches selecting counted =>
          rcases receiveAcknowledgment_cases config ack sender state.batches
            with ⟨-, same⟩ | ⟨front, closest, back, apart, named, ⟨-, left⟩ |
              ⟨-, kept⟩⟩
          · rw [same] at counted
            cases counted
            exact (collecting waiting member).unchanged distinct taken member
          · rw [left] at counted
            cases counted
          · rw [kept] at counted
            cases counted
            have listed := member
            simp only [List.mem_append, List.mem_cons] at listed
            rcases listed with front | rfl | back
            · exact (collecting waiting (by simp [apart, front])).unchanged
                distinct taken member
            · exact (collecting closest (by simp [apart])).acknowledge
                distinct taken named member
            · exact (collecting waiting (by simp [apart, back])).unchanged
                distinct taken member
      | @reached ack sender batches closed selecting reached =>
          rcases receiveAcknowledgment_cases config ack sender state.batches
            with ⟨-, same⟩ | ⟨front, closest, back, apart, named, ⟨-, left⟩ |
              ⟨-, kept⟩⟩
          · rw [same] at reached
            cases reached
          · rw [left] at reached
            cases reached
            have listed := member
            simp only [List.mem_append] at listed
            refine (collecting waiting ?_).unchanged distinct taken member
            rw [apart]
            rcases listed with front | back
            · exact List.mem_append_left _ front
            · exact List.mem_append_right _ (List.mem_cons_of_mem _ back)
          · rw [kept] at reached
            cases reached
      | _ => exact (collecting waiting member).unchanged distinct taken member

/-- In every reachable state the batches that wait have different digests.  A
step that sends a digest sends it once and takes its batch off the list, on
which it was since it came in; the digest was not sent meanwhile, and enough
peers acknowledged it. -/
theorem digest_sent_on_quorum {database : Database}
    (run : Run (Step config) (start database) events state) :
    Distinct state.batches ∧
    ∀ event next digest, Step config state event next →
      announcements digest next ≠ announcements digest state →
      announcements digest next = announcements digest state + 1 ∧
      ¬Waits digest next ∧
      ∃ since,
        WaitsSince config (start database) digest since events state ∧
        config.quorumThreshold ≤
          (acknowledgersOf digest (since ++ [event])).toFinset.card := by
  obtain ⟨distinct, collecting⟩ := collecting_run run rfl
  refine ⟨distinct, ?_⟩
  intro event next digest taken sends
  rcases @announcements_step _ _ _ _ digest distinct taken with silent |
    ⟨ack, sender, waiting, rfl, member, rfl, named, enough, once, gone⟩
  · exact absurd silent sends
  · obtain ⟨different, since, waits, counted⟩ := collecting waiting member
    refine ⟨once, gone, since, waits, enough.trans ?_⟩
    have all : (waiting.acknowledge sender).acknowledgers.Nodup :=
      different.insert
    rw [← List.toFinset_card_of_nodup all]
    apply Finset.card_le_card
    intro peer chosen
    rw [List.mem_toFinset] at chosen ⊢
    rw [acknowledgersOf_append]
    rcases List.mem_insert_iff.mp chosen with rfl | old
    · apply List.mem_append_right
      simp [acknowledger, named]
    · exact List.mem_append_left _ (counted peer old)

end Rules

section Samples

def sampleConfig : Config := ⟨sampleCrypto, 2, 1000⟩

def sampleBatch : Batch Transaction := ⟨[⟨[1]⟩]⟩

def sampleDigest : Digest := digestOf sampleCrypto sampleBatch

/-- A batch, one acknowledgment repeated, and one from another peer. -/
def sampleEvents : List Event :=
  [.batch sampleBatch 0 0, .acknowledgment ⟨sampleDigest⟩ [7] true,
    .acknowledgment ⟨sampleDigest⟩ [7] true]

def sampleState : State :=
  ⟨[⟨[[7]], sampleBatch, sampleDigest, 0⟩], .selecting, .receiving, [], []⟩

def sampleQuorum : State where
  batches := []
  waiter := .inserting ⟨[[8], [7]], sampleBatch, sampleDigest, 0⟩
  receiver := .receiving
  requests := [waiterDigest sampleDigest]
  database := []

private theorem sampleEvents_run :
    Run (Step sampleConfig) (start []) sampleEvents sampleState :=
  (@Run.of_follow _ _ (fun _ _ => True) _ (perform sampleConfig) _ _ _ _
    (fun _ _ _ performed => performed) (by decide +kernel)).unrestrict

/-- The second peer makes a quorum of two. -/
theorem digest_sent_on_sampleQuorum :
    Distinct sampleState.batches ∧ ¬Waits sampleDigest sampleQuorum ∧
    ∃ since,
      WaitsSince sampleConfig (start []) sampleDigest since sampleEvents
        sampleState ∧
      2 ≤ (acknowledgersOf sampleDigest (since ++
        [.acknowledgment ⟨sampleDigest⟩ [8] true])).toFinset.card := by
  obtain ⟨distinct, sends⟩ := digest_sent_on_quorum sampleEvents_run
  have taken : Step sampleConfig sampleState
      (.acknowledgment ⟨sampleDigest⟩ [8] true) sampleQuorum := by
    unfold Step
    decide +kernel
  have sent : announcements sampleDigest sampleQuorum ≠
      announcements sampleDigest sampleState := by decide +kernel
  exact ⟨distinct, (sends _ _ _ taken sent).2⟩

end Samples

end Worker

end Calf

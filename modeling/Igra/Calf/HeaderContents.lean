import Igra.Calf.Primary

/-!
# What is in the headers of a primary

A header carries the certificates of a published round and the last digests
that the node's own workers sent since the header before.  The builder marks
the round that woke it as seen and reads the channel later, so that a round
published in between is read again: it may get two headers, but not three.
-/

open Rust

namespace Calf

namespace CircularBuffer

variable {α : Type}

/-- The items pushed by a sequence of calls. -/
def pushed (calls : List (BufferCall α)) : List α :=
  calls.filterMap fun
    | .push item => some item
    | .drain => none

end CircularBuffer

namespace Primary

/-- What the tasks of a primary do with the buffer. -/
def bufferCall : Event → Option (BufferCall BatchId)
  | .digest received =>
      if received.object.2 = .sameNode then some (.push received.object.1)
      else none
  | .builder (.build _ _) => some .drain
  | _ => none

def bufferCalls (events : List Event) : List (BufferCall BatchId) :=
  events.filterMap bufferCall

/-- The header is made from a published round and all of its certificates. -/
structure FromRound (config : Config)
    (published : List (Round × Finset Certificate)) (header : BlockHeader) :
    Prop where
  author : header.author = config.keypair.publicKey
  parents : ∃ parents : List Certificate, parents.Nodup ∧
    (header.round, parents.toFinset) ∈ published ∧
    header.certificatesIds = parents.map (Certificate.id config.crypto)

/-- No round is published between the wake-up of the builder and its look at
the channel. -/
def ReadsFresh (state : State) : Event → Prop
  | .builder (.check .complete) =>
      state.builder.seen = state.processor.published.length
  | _ => True

/-- The rounds of the headers, as numbers. -/
def headerRounds (builder : HeaderBuilder.State) : List Nat :=
  (HeaderBuilder.headers builder).map fun header => header.round.toNat

section Buffer

variable {config : Config} {initial state next : State} {event : Event}
  {events : List Event}

/-- The headers built so far carry what a bounded queue would have given. -/
def Drains (events : List Event) (state : State) : Prop :=
  ∃ pending, state.buffer.Represents pending ∧
    state.buffer.size = maxDigestsInHeader ∧
    ∀ later, (HeaderBuilder.headers state.builder).map BlockHeader.digests ++
        CircularBuffer.drained maxDigestsInHeader pending later =
      CircularBuffer.drained maxDigestsInHeader []
        (bufferCalls events ++ later)

theorem headers_of_advances {published : List (Round × Finset Certificate)}
    {builder : HeaderBuilder.Config} {digests : List BatchId}
    {before after : HeaderBuilder.State} {event : HeaderBuilder.Event}
    (advances : HeaderBuilder.Advances published builder digests before event
      after) :
    (∃ timestampMs parents round, event = .build timestampMs parents ∧
        before.phase = .sleeping round parents.toFinset ∧
        parents.Nodup ∧ after.phase = .waiting ∧ after.seen = before.seen ∧
        after.certificates = before.certificates ∧
        HeaderBuilder.headers after = HeaderBuilder.headers before ++
          [.new builder.keypair.publicKey digests
            (parents.map (Certificate.id builder.crypto)) round
            timestampMs]) ∨
      ((∀ timestampMs parents, event ≠ .build timestampMs parents) ∧
        HeaderBuilder.headers after = HeaderBuilder.headers before) := by
  have kept {index : Nat} {header : BlockHeader}
      {received : List VoteReceipt} {finished : Bool}
      (found : before.collectors[index]? = some ⟨header, received, finished⟩)
      (more : List VoteReceipt) (done : Bool) :
      (before.collectors.set index ⟨header, more, done⟩).map
          HeaderBuilder.Collector.header =
        before.collectors.map HeaderBuilder.Collector.header :=
    HeaderBuilder.headers_set (by rw [found]; rfl)
  cases advances with
  | @build timestampMs parents round certificates sleeping distinct iterated =>
      left
      subst iterated
      exact ⟨timestampMs, parents, round, rfl, sleeping, distinct, rfl, rfl,
        rfl, by simp [HeaderBuilder.headers]⟩
  | collect found => exact .inr ⟨by simp, kept found _ _⟩
  | certify found reached => exact .inr ⟨by simp, kept found _ _⟩
  | timeout found => exact .inr ⟨by simp, kept found _ _⟩
  | wake waiting unseen => exact .inr ⟨by simp, rfl⟩
  | syncing waits => exact .inr ⟨by simp, rfl⟩
  | read waits => exact .inr ⟨by simp, rfl⟩

private theorem bufferCalls_append (events : List Event) (event : Event) :
    bufferCalls (events ++ [event]) =
      bufferCalls events ++ (bufferCall event).toList := by
  unfold bufferCalls
  rw [List.filterMap_append]
  cases called : bufferCall event <;> simp [called]

theorem Drains.step (drains : Drains events state)
    (taken : Step config state event next) :
    Drains (events ++ [event]) next := by
  obtain ⟨pending, represents, size, equal⟩ := drains
  have same : bufferCall event = none → next.buffer = state.buffer →
      HeaderBuilder.headers next.builder =
        HeaderBuilder.headers state.builder →
      Drains (events ++ [event]) next := by
    intro silent buffer headers
    refine ⟨pending, by rwa [buffer], by rwa [buffer], ?_⟩
    rw [bufferCalls_append, silent, headers]
    simpa using equal
  cases taken with
  | own sent taken => exact same rfl rfl rfl
  | peer taken => exact same rfl rfl rfl
  | header distinct iterated => exact same rfl rfl rfl
  | @digest received _ taken =>
      obtain ⟨buffer, rfl, ⟨own, pushed⟩ | ⟨foreign, rfl⟩⟩ :=
        receiveDigest_eq_ok taken
      · obtain ⟨grown, isPushed, grownSize, represented⟩ :=
          represents.push (by rw [size]; decide) received.object.1
        obtain rfl := Except.ok.inj (pushed.symm.trans isPushed)
        refine ⟨_, represented, grownSize.trans size, ?_⟩
        intro later
        have queued := equal (.push received.object.1 :: later)
        rw [CircularBuffer.drained] at queued
        rw [queued, bufferCalls_append, bufferCall, if_pos own]
        simp
      · exact same (by simp [bufferCall, foreign]) rfl rfl
  | builder taken =>
      obtain ⟨builder, buffer, rfl, advances, drained⟩ :=
        performBuilder_eq_some taken
      rcases headers_of_advances advances with ⟨timestampMs, parents, round,
        rfl, _, _, _, _, _, grown⟩ | ⟨other, headers⟩
      · obtain ⟨_, rfl⟩ | ⟨other, _⟩ := drained
        · obtain ⟨given, represented⟩ := represents.drain
          refine ⟨[], represented, size, ?_⟩
          intro later
          have queued := equal (.drain :: later)
          rw [CircularBuffer.drained] at queued
          rw [grown, bufferCalls_append]
          simpa [BlockHeader.new, given, size, bufferCall] using queued
        · exact absurd rfl (other _ _)
      · obtain ⟨⟨timestampMs, parents, rfl⟩, _⟩ | ⟨_, rfl⟩ := drained
        · exact absurd rfl (other _ _)
        · refine same ?_ rfl headers
          unfold bufferCall
          split
          · rename_i isDigest
            cases isDigest
          · rename_i isBuild
            cases isBuild
            exact absurd rfl (other _ _)
          · rfl

end Buffer

section Rounds

variable {config : Config} {initial state next : State} {event : Event}
  {events : List Event} {most : Nat}

/-- How many headers a round may have, by where the builder is: a round that
was seen before may have all of them, one that was just seen lacks the one
that is to come, and one that was read ahead counts as if it were seen. -/
def allowance (most seen : Nat) : HeaderBuilder.Phase → Nat → Nat
  | .waiting, round => if round ≤ seen then most else most - 1
  | _, round =>
      if round < seen then most else if round = seen then most - 1 else 0

theorem allowance_le (most seen : Nat) (phase : HeaderBuilder.Phase)
    (round : Nat) : allowance most seen phase round ≤ most := by
  cases phase with
  | waiting =>
      simp only [allowance]
      split <;> omega
  | syncing =>
      simp only [allowance]
      split
      · exact le_rfl
      · split <;> omega
  | sleeping _ _ =>
      simp only [allowance]
      split
      · exact le_rfl
      · split <;> omega

/-- The rounds of the headers go up, and no round has too many. -/
structure Paced (most : Nat) (state : State) : Prop where
  seen : state.builder.seen ≤ state.processor.published.length
  bounded : ∀ round ∈ headerRounds state.builder,
    round ≤ state.processor.published.length
  ordered : (headerRounds state.builder).Pairwise (· ≤ ·)
  counted : ∀ round, (headerRounds state.builder).count round ≤
    allowance most state.builder.seen state.builder.phase round
  sleeping : ∀ round certificates,
    state.builder.phase = .sleeping round certificates →
    state.builder.seen ≤ round.toNat ∧
      round.toNat ≤ state.processor.published.length ∧
      (∀ earlier ∈ headerRounds state.builder, earlier ≤ round.toNat) ∧
      (most = 1 → round.toNat = state.builder.seen)

theorem Paced.nodup (paced : Paced 1 state) :
    (headerRounds state.builder).Nodup := by
  apply List.nodup_iff_count_le_one.mpr
  intro round
  exact (paced.counted round).trans (allowance_le _ _ _ _)

/-- The last of the rounds that count up from 1 is their number. -/
theorem shownRound_of_countsRounds {processor : DagProcessor.State}
    (counts : DagProcessor.CountsRounds processor) :
    shownRound processor.published ∈ processor.published ∧
      (shownRound processor.published).1.toNat =
        processor.published.length := by
  have some := counts.some
  obtain ⟨front, last, split⟩ : ∃ front last,
      processor.published = List.concat front last := by
    rcases List.eq_nil_or_concat processor.published with none | grown
    · rw [none] at some
      exact absurd some (by decide)
    · exact grown
  rw [List.concat_eq_append] at split
  have shown : shownRound processor.published = last := by
    simp [shownRound, split]
  have numbered := congrArg List.getLast? counts.rounds
  rw [shown]
  constructor
  · rw [split]
    exact List.mem_append_right _ (List.mem_singleton_self last)
  · rw [split, List.map_append, List.map_cons, List.map_nil,
      List.getLast?_concat, List.length_append, List.length_singleton,
      List.range'_concat, List.getLast?_concat] at numbered
    rw [split, List.length_append, List.length_singleton]
    have equal := Option.some.inj numbered
    omega

/-- A step of another task, which may publish a round. -/
theorem Paced.published (paced : Paced most state)
    (same : next.builder = state.builder)
    (more : state.processor.published.length ≤
      next.processor.published.length) : Paced most next where
  seen := by
    rw [same]
    exact paced.seen.trans more
  bounded := by
    rw [same]
    exact fun round member => (paced.bounded round member).trans more
  ordered := by
    rw [same]
    exact paced.ordered
  counted := by
    rw [same]
    exact paced.counted
  sleeping := by
    rw [same]
    intro round certificates sleeping
    obtain ⟨seen, bounded, last, fresh⟩ :=
      paced.sleeping round certificates sleeping
    exact ⟨seen, bounded.trans more, last, fresh⟩

section Builder

variable {builder : HeaderBuilder.State} {buffer : CircularBuffer BatchId}

private theorem headerRounds_congr
    (same : HeaderBuilder.headers builder =
      HeaderBuilder.headers state.builder) :
    headerRounds builder = headerRounds state.builder := by
  unfold headerRounds
  rw [same]

/-- A step of the builder that leaves its loop where it is. -/
theorem Paced.unchanged (paced : Paced most state)
    (phase : builder.phase = state.builder.phase)
    (seen : builder.seen = state.builder.seen)
    (headers : HeaderBuilder.headers builder =
      HeaderBuilder.headers state.builder) :
    Paced most { state with builder, buffer } where
  seen := seen ▸ paced.seen
  bounded := (headerRounds_congr headers).symm ▸ paced.bounded
  ordered := (headerRounds_congr headers).symm ▸ paced.ordered
  counted := by
    show ∀ round, (headerRounds builder).count round ≤
      allowance most builder.seen builder.phase round
    rw [headerRounds_congr headers, seen, phase]
    exact paced.counted
  sleeping := by
    show ∀ round certificates, builder.phase = .sleeping round certificates →
      builder.seen ≤ round.toNat ∧ _ ∧
        (∀ earlier ∈ headerRounds builder, earlier ≤ round.toNat) ∧
        (most = 1 → round.toNat = builder.seen)
    rw [headerRounds_congr headers, seen, phase]
    exact paced.sleeping

theorem Paced.wake (paced : Paced most state)
    (waiting : state.builder.phase = .waiting)
    (unseen : state.builder.seen < state.processor.published.length) :
    Paced most { state with
      builder := { state.builder with
        seen := state.processor.published.length
        phase := .syncing }
      buffer } where
  seen := le_rfl
  bounded := paced.bounded
  ordered := paced.ordered
  counted := by
    intro round
    have counted := paced.counted round
    simp only [allowance, waiting] at counted
    show (headerRounds state.builder).count round ≤
      allowance most state.processor.published.length .syncing round
    simp only [allowance]
    split
    · split at counted <;> omega
    · split
      · rw [if_neg (by omega)] at counted
        exact counted
      · rw [List.count_eq_zero_of_not_mem]
        intro member
        have bounded := paced.bounded round member
        omega
  sleeping := by
    intro round certificates sleeping
    cases sleeping

theorem Paced.read (paced : Paced most state)
    (counts : DagProcessor.CountsRounds state.processor)
    (waits : state.builder.phase = .syncing)
    (fresh : most = 1 →
      state.builder.seen = state.processor.published.length) :
    Paced most { state with
      builder := { state.builder with
        phase := .sleeping (shownRound state.processor.published).1
          (shownRound state.processor.published).2 }
      buffer } where
  seen := paced.seen
  bounded := paced.bounded
  ordered := paced.ordered
  counted := by
    intro round
    have counted := paced.counted round
    rw [waits] at counted
    exact counted
  sleeping := by
    obtain ⟨_, number⟩ := shownRound_of_countsRounds counts
    rintro round certificates ⟨⟩
    rw [number]
    exact ⟨paced.seen, le_rfl, paced.bounded, fun one => (fresh one).symm⟩

theorem Paced.build (paced : Paced most state) (some : 1 ≤ most)
    {round : Round} {certificates : Finset Certificate}
    (sleeping : state.builder.phase = .sleeping round certificates)
    (phase : builder.phase = .waiting)
    (seen : builder.seen = state.builder.seen)
    (rounds : headerRounds builder =
      headerRounds state.builder ++ [round.toNat]) :
    Paced most { state with builder, buffer } := by
  obtain ⟨notBefore, bounded, last, alone⟩ :=
    paced.sleeping round certificates sleeping
  constructor
  · exact seen ▸ paced.seen
  · show ∀ other ∈ headerRounds builder, other ≤ _
    rw [rounds]
    intro other member
    rcases List.mem_append.mp member with old | new
    · exact paced.bounded other old
    · rw [List.mem_singleton.mp new]
      exact bounded
  · show (headerRounds builder).Pairwise (· ≤ ·)
    rw [rounds, List.pairwise_append]
    refine ⟨paced.ordered, List.pairwise_singleton _ _, ?_⟩
    intro earlier member other new
    rw [List.mem_singleton.mp new]
    exact last earlier member
  · intro other
    show (headerRounds builder).count other ≤
      allowance most builder.seen builder.phase other
    have counted := paced.counted other
    simp only [sleeping, allowance] at counted
    rw [rounds, phase, seen, List.count_append, List.count_singleton]
    simp only [allowance, beq_iff_eq]
    by_cases here : round.toNat = other
    · subst here
      rw [if_pos rfl]
      rw [if_neg (by omega)] at counted
      by_cases ahead : round.toNat = state.builder.seen
      · rw [if_pos ahead] at counted
        rw [if_pos ahead.le]
        omega
      · rw [if_neg ahead] at counted
        rw [if_neg (by omega)]
        have notOne : most ≠ 1 := fun one => ahead (alone one)
        omega
    · rw [if_neg here]
      split
      · split at counted
        · exact counted
        · rename_i seenBefore notBelow
          rw [if_pos (by omega)] at counted
          omega
      · rw [if_neg (by omega), if_neg (by omega)] at counted
        omega
  · intro other others again
    rw [show ({ state with builder, buffer } : State).builder.phase = _ from
      phase] at again
    cases again

theorem Paced.advance (paced : Paced most state)
    (some : 1 ≤ most)
    (counts : DagProcessor.CountsRounds state.processor)
    {event : HeaderBuilder.Event} {digests : List BatchId}
    (fresh : most = 1 → ReadsFresh state (.builder event))
    (advances : HeaderBuilder.Advances state.processor.published
      config.builder digests state.builder event builder) :
    Paced most { state with builder, buffer } := by
  have kept := headers_of_advances advances
  cases advances with
  | wake waiting unseen => exact paced.wake waiting unseen
  | syncing waits => exact paced.unchanged rfl rfl rfl
  | read waits => exact paced.read counts waits fresh
  | build sleeping distinct iterated =>
      refine paced.build some sleeping rfl rfl ?_
      simp [headerRounds, HeaderBuilder.headers, BlockHeader.new]
  | collect found =>
      obtain ⟨_, _, _, isBuild, _⟩ | ⟨_, headers⟩ := kept
      · cases isBuild
      · exact paced.unchanged rfl rfl headers
  | certify found reached =>
      obtain ⟨_, _, _, isBuild, _⟩ | ⟨_, headers⟩ := kept
      · cases isBuild
      · exact paced.unchanged rfl rfl headers
  | timeout found =>
      obtain ⟨_, _, _, isBuild, _⟩ | ⟨_, headers⟩ := kept
      · cases isBuild
      · exact paced.unchanged rfl rfl headers

end Builder

/-- The headers are made from published rounds, and so will be the one that
the builder is about to build. -/
structure Sourced (config : Config) (state : State) : Prop where
  built : ∀ header ∈ HeaderBuilder.headers state.builder,
    FromRound config state.processor.published header
  sleeping : ∀ round certificates,
    state.builder.phase = .sleeping round certificates →
    (round, certificates) ∈ state.processor.published

theorem FromRound.mono {published more : List (Round × Finset Certificate)}
    {header : BlockHeader} (made : FromRound config published header)
    (subset : published ⊆ more) : FromRound config more header := by
  obtain ⟨author, parents, distinct, member, ids⟩ := made
  exact ⟨author, parents, distinct, subset member, ids⟩

theorem Sourced.published (sourced : Sourced config state)
    (same : next.builder = state.builder)
    (subset : state.processor.published ⊆ next.processor.published) :
    Sourced config next where
  built := by
    rw [same]
    exact fun header member => (sourced.built header member).mono subset
  sleeping := by
    rw [same]
    exact fun round certificates sleeping =>
      subset (sourced.sleeping round certificates sleeping)

theorem Sourced.advance (sourced : Sourced config state)
    (counts : DagProcessor.CountsRounds state.processor)
    {builder : HeaderBuilder.State} {buffer : CircularBuffer BatchId}
    {event : HeaderBuilder.Event} {digests : List BatchId}
    (advances : HeaderBuilder.Advances state.processor.published
      config.builder digests state.builder event builder) :
    Sourced config { state with builder, buffer } := by
  constructor
  · show ∀ header ∈ HeaderBuilder.headers builder, _
    rcases headers_of_advances advances with ⟨timestampMs, parents, round,
      rfl, sleeping, distinct, _, _, _, grown⟩ | ⟨_, same⟩
    · rw [grown]
      intro header member
      rcases List.mem_append.mp member with old | new
      · exact sourced.built header old
      · rw [List.mem_singleton.mp new]
        exact ⟨rfl, parents, distinct, sourced.sleeping _ _ sleeping, rfl⟩
    · rw [same]
      exact sourced.built
  · show ∀ round certificates, builder.phase = .sleeping round certificates →
      (round, certificates) ∈ state.processor.published
    cases advances with
    | wake waiting unseen => simp
    | syncing waits => exact sourced.sleeping
    | read waits =>
        rintro round certificates ⟨⟩
        exact (shownRound_of_countsRounds counts).1
    | build sleeping distinct iterated => simp
    | collect found => exact sourced.sleeping
    | certify found reached => exact sourced.sleeping
    | timeout found => exact sourced.sleeping

theorem published_subset_of_step
    {event : DagProcessor.Event} {before after : DagProcessor.State}
    (taken : DagProcessor.Step config.crypto config.committee before event
      after) : before.published <+: after.published := by
  rcases taken.published_cases with ⟨_, same⟩ | ⟨_, _, grown⟩
  · rw [same]
  · rw [grown]
    exact List.prefix_append _ _

theorem countsRounds_of_run (started : start config.crypto = .ok initial)
    (run : Runs.Run (Step config) initial events state) :
    DagProcessor.CountsRounds state.processor :=
  DagProcessor.countsRounds_of_run (start_eq_ok started).1
    (processor_run (fun _ _ => True) (fun _ _ _ => trivial)
      run.restrict_true)

theorem headers_step (some : 1 ≤ most)
    (counts : DagProcessor.CountsRounds state.processor)
    (kept : Sourced config state ∧ Paced most state)
    (fresh : most = 1 → ReadsFresh state event)
    (taken : Step config state event next) :
    Sourced config next ∧ Paced most next := by
  obtain ⟨sourced, paced⟩ := kept
  cases taken with
  | own sent taken =>
      have grown := published_subset_of_step taken
      exact ⟨sourced.published rfl grown.subset,
        paced.published rfl grown.length_le⟩
  | peer taken =>
      have grown := published_subset_of_step taken
      exact ⟨sourced.published rfl grown.subset,
        paced.published rfl grown.length_le⟩
  | header distinct iterated =>
      exact ⟨sourced.published rfl (List.Subset.refl _),
        paced.published rfl le_rfl⟩
  | digest taken =>
      obtain ⟨_, rfl, _⟩ := receiveDigest_eq_ok taken
      exact ⟨sourced.published rfl (List.Subset.refl _),
        paced.published rfl le_rfl⟩
  | builder taken =>
      obtain ⟨builder, buffer, rfl, advances, _⟩ :=
        performBuilder_eq_some taken
      exact ⟨sourced.advance counts advances,
        paced.advance some counts fresh advances⟩

theorem headers_start (started : start config.crypto = .ok initial) :
    Sourced config initial ∧ Paced most initial := by
  obtain ⟨_, _, builder, _, _⟩ := start_eq_ok started
  constructor
  · constructor
    · rw [builder]
      intro header member
      cases member
    · rw [builder]
      intro round certificates sleeping
      cases sleeping
  · constructor
    · rw [builder]
      exact Nat.zero_le _
    · rw [builder]
      intro round member
      cases member
    · rw [builder]
      exact List.Pairwise.nil
    · rw [builder]
      intro round
      exact Nat.zero_le _
    · rw [builder]
      intro round certificates sleeping
      cases sleeping

theorem headers_of_run (most : Nat) {allowed : State → Event → Prop}
    (started : start config.crypto = .ok initial) (some : 1 ≤ most)
    (fresh : most = 1 → ∀ state event, allowed state event →
      ReadsFresh state event)
    (run : Runs.Run (Runs.restrict allowed (Step config)) initial events
      state) : Sourced config state ∧ Paced most state := by
  induction run with
  | start => exact headers_start started
  | extend earlier taken ih =>
      exact headers_step some
        (countsRounds_of_run started earlier.unrestrict) ih
        (fun one => fresh one _ _ taken.1) taken.2

end Rounds

section Sample

open HeaderElector (sampleKeypair)

def sampleConfig : Config :=
  ⟨sampleCrypto, .ofSize 4, sampleKeypair 0, sampleKeypair 0⟩

/-- A digest of the node's own, and the header of the first round. -/
def sampleEvents : List Event :=
  [.digest ⟨(FixedBytes.zero 32, .sameNode), []⟩, .builder .wake,
    .builder (.check .complete), .builder (.build 0 [DagProcessor.genesis])]

end Sample

end Primary

end Calf

import Igra.Calf.CausalHistory
import Igra.Calf.HeaderContents

/-!
# A network of primaries

All nodes run the primary, and the network loses, repeats and reorders what
they send.  Digests, headers and votes may be anything; a certificate that
arrives was broadcast by some builder, whoever passed it on.
-/

open Rust

namespace Calf

section Certificates

namespace HeaderBuilder

/-- The rounds of the headers that are done with. -/
def finishedRounds (state : State) : List Round :=
  (state.collectors.filter Collector.finished).map fun collector =>
    collector.header.round

/-- The certificates are made from headers, no more of them in a round than
there are headers that are done with. -/
structure Certified (config : Config) (state : State) : Prop where
  broadcast : ∀ certificate,
    .broadcastCounterparts (.certificate certificate) ∈ state.requests →
      certificate ∈ state.certificates
  made : ∀ certificate ∈ state.certificates, ∃ header ∈ headers state,
    ∃ votes, certificate = .ofHeader config.crypto header.round
      config.keypair.publicKey votes header
  counted : ∀ round, (state.certificates.map Certificate.round).count round ≤
    (finishedRounds state).count round

variable {published : List (Round × Finset Certificate)} {config : Config}
  {digests : List BatchId} {state next : State} {event : Event}

theorem count_finishedRounds_set {index : Nat} {header : BlockHeader}
    {received more : List VoteReceipt} {finished : Bool}
    (found : state.collectors[index]? = some ⟨header, received, false⟩)
    (round : Round) :
    (finishedRounds { state with
        collectors := state.collectors.set index
          ⟨header, more, finished⟩ }).count round =
      (finishedRounds state).count round +
        if finished = true ∧ header.round = round then 1 else 0 := by
  obtain ⟨bound, atIndex⟩ := List.getElem?_eq_some_iff.mp found
  have apart : state.collectors = state.collectors.take index ++
      ⟨header, received, false⟩ :: state.collectors.drop (index + 1) := by
    rw [← atIndex, List.getElem_cons_drop, List.take_append_drop]
  unfold finishedRounds
  rw [List.set_eq_take_append_cons_drop, if_pos bound]
  conv_rhs => rw [apart]
  cases finished with
  | false => simp
  | true =>
      by_cases same : header.round = round
      · simp [same]
        omega
      · simp [same]

theorem mem_headers_set {index : Nat} {header built : BlockHeader}
    {received more : List VoteReceipt} {finished : Bool}
    (found : state.collectors[index]? = some ⟨header, received, false⟩)
    (replaced : next.collectors =
      state.collectors.set index ⟨header, more, finished⟩) :
    built ∈ headers next ↔ built ∈ headers state := by
  unfold headers
  rw [replaced, headers_set (by rw [found]; rfl)]

theorem Certified.certify (certified : Certified config state) {index : Nat}
    {header : BlockHeader} {received more : List VoteReceipt}
    (found : state.collectors[index]? = some ⟨header, received, false⟩)
    (votes : List Vote) :
    let certificate := Certificate.ofHeader config.crypto header.round
      config.keypair.publicKey votes header
    Certified config { state with
      collectors := state.collectors.set index ⟨header, more, true⟩
      certificates := state.certificates ++ [certificate]
      requests := state.requests ++
        [.broadcastCounterparts (.certificate certificate)] } := by
  intro certificate
  constructor
  · intro sent member
    rcases List.mem_append.mp member with old | new
    · exact List.mem_append_left _ (certified.broadcast sent old)
    · cases List.mem_singleton.mp new
      exact List.mem_append_right _ (List.mem_singleton_self _)
  · intro sent member
    rcases List.mem_append.mp member with old | new
    · obtain ⟨built, isBuilt, isMade⟩ := certified.made sent old
      exact ⟨built, (mem_headers_set found rfl).mpr isBuilt, isMade⟩
    · refine ⟨header, (mem_headers_set found rfl).mpr ?_, votes,
        List.mem_singleton.mp new⟩
      exact List.mem_map.mpr ⟨_, List.mem_of_getElem? found, rfl⟩
  · intro round
    have finished := @count_finishedRounds_set state index header received
      more true found round
    have before := certified.counted round
    have certificateRound : certificate.round = header.round := rfl
    show ((state.certificates ++ [certificate]).map
        Certificate.round).count round ≤
      (finishedRounds { state with
        collectors := state.collectors.set index
          ⟨header, more, true⟩ }).count round
    rw [finished, List.map_append, List.count_append, List.map_singleton,
      certificateRound, List.count_singleton]
    simp only [beq_iff_eq, true_and]
    omega

theorem Certified.goOn (certified : Certified config state) {index : Nat}
    {header : BlockHeader} {received more : List VoteReceipt}
    {finished : Bool}
    (found : state.collectors[index]? = some ⟨header, received, false⟩)
    (replaced : next.collectors =
      state.collectors.set index ⟨header, more, finished⟩)
    (certificates : next.certificates = state.certificates)
    (requests : ∀ certificate,
      .broadcastCounterparts (.certificate certificate) ∈ next.requests →
        .broadcastCounterparts (.certificate certificate) ∈ state.requests) :
    Certified config next := by
  constructor
  · intro certificate member
    rw [certificates]
    exact certified.broadcast certificate (requests certificate member)
  · rw [certificates]
    intro certificate member
    obtain ⟨built, isBuilt, isMade⟩ := certified.made certificate member
    exact ⟨built, (mem_headers_set found replaced).mpr isBuilt, isMade⟩
  · intro round
    have finishedRounds := @count_finishedRounds_set state index header
      received more finished found round
    rw [certificates]
    show _ ≤ ((next.collectors.filter Collector.finished).map
      fun collector => collector.header.round).count round
    rw [replaced]
    exact (certified.counted round).trans
      ((Nat.le_add_right _ _).trans finishedRounds.ge)

theorem Certified.advance (certified : Certified config state)
    (advances : Advances published config digests state event next) :
    Certified config next := by
  cases advances with
  | wake waiting unseen =>
      exact ⟨certified.broadcast, certified.made, certified.counted⟩
  | syncing waits => exact certified
  | read waits =>
      exact ⟨certified.broadcast, certified.made, certified.counted⟩
  | build sleeping distinct iterated =>
      refine ⟨?_, ?_, ?_⟩
      · intro certificate member
        apply certified.broadcast
        simpa using member
      · intro certificate member
        obtain ⟨header, built, isMade⟩ := certified.made certificate member
        refine ⟨header, ?_, isMade⟩
        unfold headers at built ⊢
        rw [List.map_append]
        exact List.mem_append_left _ built
      · intro round
        simpa [finishedRounds] using certified.counted round
  | collect found =>
      exact certified.goOn found rfl rfl fun _ member => member
  | certify found reached => exact certified.certify found _
  | timeout found =>
      refine certified.goOn found rfl rfl ?_
      intro certificate member
      simpa using member

/-- With at most one header in each round there is at most one certificate. -/
theorem Certified.single (certified : Certified config state)
    (distinct : ((headers state).map BlockHeader.round).Nodup)
    {left right : Certificate} (first : left ∈ state.certificates)
    (second : right ∈ state.certificates)
    (same : left.round = right.round) : left = right := by
  have once : (state.certificates.map Certificate.round).Nodup := by
    apply List.nodup_iff_count_le_one.mpr
    intro round
    have finished : (finishedRounds state).Sublist
        ((headers state).map BlockHeader.round) := by
      unfold finishedRounds headers
      rw [List.map_map]
      exact List.filter_sublist.map _
    exact (certified.counted round).trans ((finished.count_le round).trans
      (List.nodup_iff_count_le_one.mp distinct round))
  exact List.inj_on_of_nodup_map once first second same

end HeaderBuilder

end Certificates

section Rounds

open DagProcessor

variable {crypto : Crypto} {committee : Committee}
  {initial processor : DagProcessor.State} {events : List DagProcessor.Event}

/-- From the second round on, the certificates of a published round have a
quorum of ids. -/
theorem quorum_published_of_run
    (started : DagProcessor.start crypto = .ok initial)
    (run : Runs.Run (DagProcessor.Step crypto committee) initial events
      processor)
    (collisionFree : CollisionFree crypto events) {round : Round}
    {certificates : Finset Certificate}
    (published : (round, certificates) ∈ processor.published)
    (later : round ≠ 1) :
    committee.quorum ≤ (certificates.image (Certificate.id crypto)).card := by
  induction run with
  | start =>
      rw [(start_eq_ok started).2.2] at published
      cases List.mem_singleton.mp published
      exact absurd rfl later
  | @extend events state next event earlier step ih =>
      have before := ih (collisionFree.mono (List.subset_append_left _ _))
      rcases step.published_cases with ⟨_, same⟩ | ⟨full, _, grown⟩
      · rw [same] at published
        exact before published
      · rw [grown] at published
        rcases List.mem_append.mp published with old | new
        · exact before old
        · cases List.mem_singleton.mp new
          have made := madeFrom_of_run started (earlier.extend step)
            collisionFree
          have named : next.dag.ids state.currentRound ⊆
              ((next.dag.layerData state.currentRound).image
                (Certificate.id crypto)).image
                  fun id => Hex.encode id.bytes := by
            intro text listed
            obtain ⟨vertex, found, _⟩ := (made.layered.listed text _).mp listed
            have isId := made.id_eq found
            rw [isId] at listed
            refine Finset.mem_image.mpr ⟨vertex.data.digest crypto, ?_,
              isId.symm⟩
            exact (HeaderElector.mem_ids_of_run started
              (earlier.extend step) collisionFree).mp listed
          exact full.trans ((Finset.card_le_card named).trans
            Finset.card_image_le)

/-- The certificate of a header that is made from a published round has the
parents that it should have. -/
theorem wellParented_of_published
    (started : DagProcessor.start crypto = .ok initial)
    (run : Runs.Run (DagProcessor.Step crypto committee) initial events
      processor)
    (collisionFree : CollisionFree crypto events) {header : BlockHeader}
    {parents : List Certificate}
    (published : (header.round, parents.toFinset) ∈ processor.published)
    (ids : header.certificatesIds = parents.map (Certificate.id crypto))
    (author : PublicKey) (votes : List Vote) :
    WellParented crypto committee
      (.ofHeader crypto header.round author votes header) := by
  have named : (Certificate.ofHeader crypto header.round author votes
      header).parents = parents.toFinset.image (Certificate.id crypto) := by
    show header.certificatesIds.toFinset = _
    rw [ids]
    ext id
    simp
  obtain ⟨_, genesisOnly⟩ :=
    HeaderElector.published_of_run started run published
  constructor
  · intro first
    rw [named, genesisOnly first, Finset.image_singleton]
    exact Finset.mem_singleton_self _
  · intro later
    rw [named]
    apply quorum_published_of_run started run collisionFree published
    intro first
    have second : (2 : Round) ≤ header.round := later
    rw [first] at second
    exact absurd second (by decide)

end Rounds

namespace HonestNetwork

structure Config (Seat : Type) where
  crypto : Crypto
  committee : Committee
  keypair : Seat → Keypair
  validatorKeypair : Seat → Keypair

variable {Seat : Type}

def Config.primary (config : Config Seat) (seat : Seat) : Primary.Config :=
  ⟨config.crypto, config.committee, config.keypair seat,
    config.validatorKeypair seat⟩

abbrev State (Seat : Type) := Seat → Primary.State

/-- Some builder has sent the certificate to all. -/
def Broadcast (state : State Seat) (certificate : Certificate) : Prop :=
  ∃ seat, .broadcastCounterparts (.certificate certificate) ∈
    (state seat).builder.requests

/-- What may arrive: a certificate that was broadcast, and anything else. -/
def Delivered (state : State Seat) : Primary.Event → Prop
  | .certificate (.peer received) => Broadcast state received.object
  | _ => True

/-- A step of one of the primaries. -/
inductive Step [DecidableEq Seat] (config : Config Seat)
    (state : State Seat) : Seat × Primary.Event → State Seat → Prop where
  | step {seat : Seat} {event : Primary.Event} {next : Primary.State}
      (delivered : Delivered state event)
      (taken : Primary.Step (config.primary seat) (state seat) event next) :
      Step config state (seat, event) (Function.update state seat next)

/-- The events of one of the primaries. -/
def eventsOf [DecidableEq Seat] (seat : Seat)
    (labels : List (Seat × Primary.Event)) : List Primary.Event :=
  labels.filterMap fun label => if label.1 = seat then some label.2 else none

/-- The certificates of all the builders, and the genesis. -/
def certificatesOf (state : State Seat) : Set Certificate :=
  { certificate | certificate = DagProcessor.genesis ∨
    ∃ seat, certificate ∈ (state seat).builder.certificates }

section Runs

variable [DecidableEq Seat] {config : Config Seat} {initial : Primary.State}
  {state next : State Seat} {labels : List (Seat × Primary.Event)}

/-- Every look of a builder at its channel shows the round that woke it. -/
def ReadsFresh (state : State Seat) (label : Seat × Primary.Event) : Prop :=
  Primary.ReadsFresh (state label.1) label.2

theorem eventsOf_append (seat : Seat)
    (label : Seat × Primary.Event) :
    eventsOf seat (labels ++ [label]) =
      eventsOf seat labels ++
        if label.1 = seat then [label.2] else [] := by
  unfold eventsOf
  rw [List.filterMap_append]
  split <;> simp_all

/-- What is seen of one primary along a run of the network is a run of it. -/
theorem primary_run
    (run : Runs.Run (Runs.restrict ReadsFresh (Step config))
      (fun _ => initial) labels state) (seat : Seat) :
    Runs.Run (Runs.restrict Primary.ReadsFresh
        (Primary.Step (config.primary seat)))
      initial (eventsOf seat labels) (state seat) := by
  induction run with
  | start => exact .start
  | extend _ taken ih =>
      obtain ⟨fresh, step⟩ := taken
      cases step with
      | @step moved event next delivered taken =>
          rw [eventsOf_append]
          by_cases same : moved = seat
          · subst same
            rw [if_pos rfl, Function.update_self]
            exact ih.extend ⟨fresh, taken⟩
          · rw [if_neg same, List.append_nil,
              Function.update_of_ne (Ne.symm same)]
            exact ih

theorem certified_step {primary : Primary.Config}
    {before after : Primary.State} {event : Primary.Event}
    (certified : HeaderBuilder.Certified primary.builder before.builder)
    (taken : Primary.Step primary before event after) :
    HeaderBuilder.Certified primary.builder after.builder := by
  cases taken with
  | own _ _ => exact certified
  | peer _ => exact certified
  | header _ _ => exact certified
  | digest taken =>
      obtain ⟨_, rfl, _⟩ := Primary.receiveDigest_eq_ok taken
      exact certified
  | builder taken =>
      obtain ⟨_, _, rfl, advances, _⟩ := Primary.performBuilder_eq_some taken
      exact certified.advance advances

theorem certificates_subset_of_step {primary : Primary.Config}
    {before after : Primary.State} {event : Primary.Event}
    (taken : Primary.Step primary before event after) :
    before.builder.certificates ⊆ after.builder.certificates := by
  cases taken with
  | own _ _ => exact List.Subset.refl _
  | peer _ => exact List.Subset.refl _
  | header _ _ => exact List.Subset.refl _
  | digest taken =>
      obtain ⟨_, rfl, _⟩ := Primary.receiveDigest_eq_ok taken
      exact List.Subset.refl _
  | builder taken =>
      obtain ⟨_, _, rfl, advances, _⟩ := Primary.performBuilder_eq_some taken
      cases advances with
      | certify found reached => exact List.subset_append_left _ _
      | _ => exact List.Subset.refl _

theorem certificatesOf_subset_of_step {label : Seat × Primary.Event}
    (taken : Step config state label next) :
    certificatesOf state ⊆ certificatesOf next := by
  cases taken with
  | @step moved event after delivered taken =>
      rintro certificate (first | ⟨seat, member⟩)
      · exact .inl first
      · refine .inr ⟨seat, ?_⟩
        by_cases same : seat = moved
        · subst same
          rw [Function.update_self]
          exact certificates_subset_of_step taken member
        · rw [Function.update_of_ne same]
          exact member

/-- The certificates are made by the builders, and those that were received
are among them. -/
structure Accounted (config : Config Seat)
    (labels : List (Seat × Primary.Event)) (state : State Seat) : Prop where
  certified : ∀ seat, HeaderBuilder.Certified (config.primary seat).builder
    (state seat).builder
  received : ∀ seat,
    ∀ event ∈ Primary.certificateEvents (eventsOf seat labels),
      event.certificate ∈ certificatesOf state

theorem Accounted.broadcast (accounted : Accounted config labels state)
    {certificate : Certificate} (sent : Broadcast state certificate) :
    certificate ∈ certificatesOf state := by
  obtain ⟨seat, member⟩ := sent
  exact .inr ⟨seat, (accounted.certified seat).broadcast certificate member⟩

theorem Accounted.step (accounted : Accounted config labels state)
    {label : Seat × Primary.Event} (taken : Step config state label next) :
    Accounted config (labels ++ [label]) next := by
  have grown := certificatesOf_subset_of_step taken
  cases taken with
  | @step moved event after delivered taken =>
      constructor
      · intro seat
        by_cases same : seat = moved
        · subst same
          rw [Function.update_self]
          exact certified_step (accounted.certified seat) taken
        · rw [Function.update_of_ne same]
          exact accounted.certified seat
      · intro seat received member
        apply grown
        rw [eventsOf_append] at member
        split at member
        · rw [Primary.certificateEvents_append] at member
          rcases List.mem_append.mp member with old | new
          · exact accounted.received seat received old
          · cases taken with
            | own sent _ =>
                cases List.mem_singleton.mp new
                exact .inr ⟨moved, sent⟩
            | peer _ =>
                cases List.mem_singleton.mp new
                exact accounted.broadcast delivered
            | header _ _ => cases new
            | digest _ => cases new
            | builder _ => cases new
        · rw [List.append_nil] at member
          exact accounted.received seat received member

theorem accounted_of_run
    (started : Primary.start config.crypto = .ok initial)
    (run : Runs.Run (Step config) (fun _ => initial) labels state) :
    Accounted config labels state := by
  induction run with
  | start =>
      obtain ⟨_, _, builder, _, _⟩ := Primary.start_eq_ok started
      constructor
      · intro seat
        rw [builder]
        refine ⟨?_, ?_, fun round => Nat.zero_le _⟩
        · intro certificate member
          cases member
        · intro certificate member
          cases member
      · intro seat event member
        cases member
  | extend _ taken ih => exact ih.step taken

/-- The graph of a primary is made from certificates of the builders. -/
theorem madeFrom_of_run
    (started : Primary.start config.crypto = .ok initial)
    (run : Runs.Run (Runs.restrict ReadsFresh (Step config))
      (fun _ => initial) labels state)
    (addressed : DagProcessor.ContentAddressed config.crypto
      (certificatesOf state)) (seat : Seat) :
    Runs.Run (DagProcessor.Step config.crypto config.committee)
        initial.processor
        (Primary.certificateEvents (eventsOf seat labels))
        (state seat).processor ∧
      DagProcessor.CollisionFree config.crypto
        (Primary.certificateEvents (eventsOf seat labels)) ∧
      ∃ certificates, DagProcessor.MadeFrom config.crypto certificates
          (state seat).processor.dag ∧
        ∀ certificate ∈ certificates, certificate ∈ certificatesOf state := by
  have accounted := accounted_of_run started run.unrestrict
  have processor : Runs.Run
      (DagProcessor.Step config.crypto config.committee) initial.processor
      (Primary.certificateEvents (eventsOf seat labels))
      (state seat).processor :=
    (Primary.processor_run (fun _ _ => True) (fun _ _ _ => trivial)
      (primary_run run seat)).unrestrict
  have among : DagProcessor.met
      (Primary.certificateEvents (eventsOf seat labels)) ⊆
        certificatesOf state := by
    intro certificate member
    rcases List.mem_cons.mp member with first | later
    · exact .inl first
    · obtain ⟨event, received, rfl⟩ := List.mem_map.mp later
      exact accounted.received seat event received
  have collisionFree := addressed.collisionFree among
  refine ⟨processor, collisionFree, _, DagProcessor.madeFrom_of_run
    (Primary.start_eq_ok started).1 processor collisionFree, ?_⟩
  exact fun certificate member => among member

/-- A certificate above the base layer comes from a builder: it names the
parents that it should, and it is the only one of its author in its round. -/
theorem certificate_of_run
    (started : Primary.start config.crypto = .ok initial)
    (run : Runs.Run (Runs.restrict ReadsFresh (Step config))
      (fun _ => initial) labels state)
    (addressed : DagProcessor.ContentAddressed config.crypto
      (certificatesOf state)) {certificate : Certificate}
    (member : certificate ∈ certificatesOf state)
    (above : certificate.round ≠ 0) :
    ∃ seat, certificate.author = some (config.keypair seat).publicKey ∧
      DagProcessor.WellParented config.crypto config.committee certificate ∧
      ∀ other ∈ (state seat).builder.certificates,
        other.round = certificate.round → other = certificate := by
  rcases member with rfl | ⟨seat, sent⟩
  · exact absurd rfl above
  · have accounted := accounted_of_run started run.unrestrict
    obtain ⟨processor, collisionFree, _⟩ :=
      madeFrom_of_run started run addressed seat
    obtain ⟨sourced, paced⟩ := @Primary.headers_of_run (config.primary seat)
      initial (state seat) (eventsOf seat labels) 1 Primary.ReadsFresh started
      le_rfl (fun _ _ _ allowed => allowed) (primary_run run seat)
    have distinct : ((HeaderBuilder.headers (state seat).builder).map
        BlockHeader.round).Nodup := by
      have numbers := paced.nodup
      unfold Primary.headerRounds at numbers
      rw [← Function.comp_def UInt64.toNat, ← List.map_map] at numbers
      exact numbers.of_map
    refine ⟨seat, ?_⟩
    have only : ∀ other ∈ (state seat).builder.certificates,
        other.round = certificate.round → other = certificate :=
      fun other also same =>
        (accounted.certified seat).single distinct also sent same
    obtain ⟨header, built, votes, rfl⟩ :=
      (accounted.certified seat).made certificate sent
    obtain ⟨_, parents, _, published, ids⟩ := sourced.built header built
    exact ⟨rfl, wellParented_of_published (Primary.start_eq_ok started).1
      processor collisionFree published ids _ _, only⟩

/-- The graphs of the primaries are views of one graph, in which every
certificate after the first round has a quorum of parents and no author has
two certificates in a round. -/
theorem quorate_of_run [Fintype Seat]
    (started : Primary.start config.crypto = .ok initial)
    (run : Runs.Run (Runs.restrict ReadsFresh (Step config))
      (fun _ => initial) labels state)
    (addressed : DagProcessor.ContentAddressed config.crypto
      (certificatesOf state))
    (keys : Function.Injective fun seat => (config.keypair seat).publicKey) :
    Histories.Quorate config.committee.quorum
      (Finset.univ.image fun seat => some (config.keypair seat).publicKey)
      (fun seat => (state seat).processor.dag.view) := by
  have known {seat : Seat} {id : String}
      {entry : Histories.Entry String (Option PublicKey)}
      (found : (state seat).processor.dag.view id = some entry) :
      ∃ certificate ∈ certificatesOf state,
        id = Hex.encode (certificate.digest config.crypto).bytes ∧
        entry = ⟨certificate.round.toNat, certificate.author,
          certificate.parentsAsHex⟩ := by
    obtain ⟨_, _, certificates, made, among⟩ :=
      madeFrom_of_run started run addressed seat
    obtain ⟨vertex, stored, rfl⟩ := DagProcessor.view_eq_some.mp found
    obtain ⟨isVertex, member⟩ := made.made id vertex stored
    refine ⟨vertex.data, among _ member, made.id_eq stored, ?_⟩
    have parents : vertex.parents = vertex.data.parentsAsHex :=
      congrArg Vertex.parents isVertex
    rw [parents]
  have notBase {certificate : Certificate}
      (above : 1 ≤ certificate.round.toNat) : certificate.round ≠ 0 := by
    intro base
    rw [base] at above
    exact absurd above (by decide)
  constructor
  · intro seat
    obtain ⟨_, _, _, made, _⟩ := madeFrom_of_run started run addressed seat
    exact made.closed
  · intro seat other
    obtain ⟨_, _, _, made, among⟩ :=
      madeFrom_of_run started run addressed seat
    obtain ⟨_, _, _, others, alsoAmong⟩ :=
      madeFrom_of_run started run addressed other
    exact made.agree others addressed among alsoAmong
  · intro seat id entry found later
    obtain ⟨certificate, member, _, rfl⟩ := known found
    obtain ⟨_, _, parented, _⟩ := certificate_of_run started run addressed
      member (notBase (by simp only at later; omega))
    rw [Certificate.card_parentsAsHex]
    exact parented.2 (UInt64.le_iff_toNat_le.mpr later)
  · intro seat id entry found above
    obtain ⟨certificate, member, _, rfl⟩ := known found
    obtain ⟨author, wrote, _⟩ := certificate_of_run started run addressed
      member (notBase above)
    exact Finset.mem_image.mpr ⟨author, Finset.mem_univ _, wrote.symm⟩
  · intro seat left leftEntry other right rightEntry atLeft atRight above
      rounds authors
    obtain ⟨first, firstIn, rfl, rfl⟩ := known atLeft
    obtain ⟨second, secondIn, rfl, rfl⟩ := known atRight
    obtain ⟨author, wrote, _, only⟩ := certificate_of_run started run
      addressed firstIn (notBase above)
    have sameRound : second.round = first.round :=
      (UInt64.toNat.inj rounds).symm
    have equal : second = first := by
      rcases secondIn with rfl | ⟨sender, sent⟩
      · exact absurd sameRound.symm (notBase above)
      · obtain ⟨header, _, votes, isMade⟩ :=
          ((accounted_of_run started run.unrestrict).certified sender).made
            second sent
        have alsoWrote :
            second.author = some (config.keypair sender).publicKey := by
          rw [isMade]
          rfl
        have sameKey : (config.keypair sender).publicKey =
            (config.keypair author).publicKey :=
          Option.some.inj (alsoWrote.symm.trans (authors.symm.trans wrote))
        obtain rfl := keys sameKey
        exact only second sent sameRound
    rw [equal]

/-- With `3f + 1` seats a quorum crowds the layer below it. -/
theorem crowded_of_size {committee : Committee} {faults : Nat}
    (size : committee.authorities.length = 3 * faults + 1)
    (fits : faults < 2 ^ 31) :
    committee.authorities.length *
        (committee.authorities.length - committee.quorum) <
      committee.quorum * committee.quorum := by
  have threshold : committee.quorum = 2 * faults + 1 := by
    rw [Committee.quorum_eq, size]
    split <;> omega
  have rest : 3 * faults + 1 - (2 * faults + 1) = faults := by omega
  rw [threshold, size, rest]
  calc (3 * faults + 1) * faults
      ≤ (2 * faults + 1) * 2 * faults :=
        Nat.mul_le_mul_right faults (by omega)
    _ = (2 * faults + 1) * (2 * faults) := Nat.mul_assoc _ _ _
    _ < (2 * faults + 1) * (2 * faults + 1) :=
        Nat.mul_lt_mul_of_pos_left (by omega) (by omega)

/-- In a network of `3f + 1` primaries whose builders are not overtaken by a
round between their wake-up and their look at the channel, there is in each
round a certificate that every certificate from two rounds later on has in its
history, at every node, as soon as there is one of them. -/
theorem common_core [Fintype Seat] {faults : Nat}
    (seats : Fintype.card Seat = config.committee.authorities.length)
    (size : config.committee.authorities.length = 3 * faults + 1)
    (fits : faults < 2 ^ 31)
    (keys : Function.Injective fun seat => (config.keypair seat).publicKey)
    (started : Primary.start config.crypto = .ok initial)
    (run : Runs.Run (Runs.restrict ReadsFresh (Step config))
      (fun _ => initial) labels state)
    (addressed : DagProcessor.ContentAddressed config.crypto
      (certificatesOf state))
    {round : Nat} (above : 1 ≤ round) {seat : Seat} {id : String}
    {entry : Histories.Entry String (Option PublicKey)}
    (found : (state seat).processor.dag.view id = some entry)
    (later : entry.layer = round + 2) :
    ∃ core, (∃ base, (state seat).processor.dag.view core = some base ∧
        base.layer = round) ∧
      ∀ other after more,
        (state other).processor.dag.view after = some more →
        round + 2 ≤ more.layer →
        Histories.Reaches (state other).processor.dag.view after core := by
  have quorate := quorate_of_run started run addressed keys
  have members : (Finset.univ.image fun seat =>
      some (config.keypair seat).publicKey).card =
        config.committee.authorities.length := by
    have injective : Function.Injective fun seat =>
        some (config.keypair seat).publicKey :=
      (Option.some_injective _).comp keys
    rw [Finset.card_image_of_injective _ injective, Finset.card_univ, seats]
  have crowded := crowded_of_size size fits
  rw [← members] at crowded
  exact quorate.exists_core crowded Committee.one_le_quorum found above later

end Runs

section Four

/-- Signatures name the signer and begin as the digest does. -/
def shortCrypto : Crypto :=
  { sampleCrypto with
    verify := fun key digest signature =>
      decide (signature = key.bytes.take 1 ++ digest.bytes.take 4) }

def shortKeypair (place : Nat) : Keypair where
  publicKey := Committee.seatKey place
  sign digest := (Committee.seatKey place).bytes.take 1 ++ digest.bytes.take 4

/-- A network of four authorities. -/
def fourConfig : Config (Fin 4) where
  crypto := shortCrypto
  committee := .ofSize 4
  keypair seat := shortKeypair seat.val
  validatorKeypair seat := shortKeypair seat.val

/-- Three of them, one first; the fourth does nothing. -/
def activeFrom : Fin 4 → List (Fin 4)
  | 0 => [0, 1, 2]
  | 1 => [1, 2, 0]
  | _ => [2, 0, 1]

/-- The header of an authority over a layer. -/
def headerOver (parents : List Certificate) (round : Round) (seat : Fin 4) :
    BlockHeader :=
  .new (fourConfig.keypair seat).publicKey []
    (parents.map (Certificate.id shortCrypto)) round 0

def voteOf (header : BlockHeader) (seat : Fin 4) : Vote :=
  .fromHeader shortCrypto header (fourConfig.keypair seat)

def certificateOver (parents : List Certificate) (round : Round)
    (seat : Fin 4) : Certificate :=
  let header := headerOver parents round seat
  .ofHeader shortCrypto round header.author
    ((activeFrom seat).map (voteOf header)) header

/-- The certificates of a round. -/
def layerOf : Nat → List Certificate
  | 0 => [DagProcessor.genesis]
  | round + 1 =>
      (activeFrom 0).map
        (certificateOver (layerOf round) (UInt64.ofNat (round + 1)))

/-- A builder certifies a header over the layer below. -/
def certifyEvents (below : Nat) (seat : Fin 4) : List Primary.Event :=
  let header := headerOver (layerOf below) (UInt64.ofNat (below + 1)) seat
  [.builder .wake, .builder (.check .complete),
    .builder (.build 0 (layerOf below))] ++
    (activeFrom seat).tail.map fun voter =>
      .builder (.receive below (.ok ⟨voteOf header voter, []⟩))

/-- A node takes the certificates of a round, its own first. -/
def takeEvents (below : Nat) (seat : Fin 4) : List Primary.Event :=
  (activeFrom seat).map fun author =>
    let certificate :=
      certificateOver (layerOf below) (UInt64.ofNat (below + 1)) author
    if author = seat then .certificate (.own certificate)
    else .certificate (.peer ⟨certificate, []⟩)

/-- All builders certify, and the first node takes what they certified. -/
def roundOf (below : Nat) : List (Fin 4 × Primary.Event) :=
  (activeFrom 0).flatMap (fun seat =>
      (certifyEvents below seat).map (seat, ·)) ++
    (takeEvents below 0).map (0, ·)

/-- The other nodes take the first round only, and the first node certifies
alone in the third. -/
def threeRounds : List (Fin 4 × Primary.Event) :=
  roundOf 0 ++
    [1, 2].flatMap (fun seat => (takeEvents 0 seat).map (seat, ·)) ++
    roundOf 1 ++
    (certifyEvents 2 0).map (0, ·) ++
    [(0, .certificate (.own (certificateOver (layerOf 2) 3 0)))]

instance (state : State (Fin 4)) (certificate : Certificate) :
    Decidable (Broadcast state certificate) :=
  inferInstanceAs (Decidable (∃ seat,
    .broadcastCounterparts (.certificate certificate) ∈
      (state seat).builder.requests))

instance (state : State (Fin 4)) (event : Primary.Event) :
    Decidable (Delivered state event) :=
  match event with
  | .certificate (.peer received) =>
      inferInstanceAs (Decidable (Broadcast state received.object))
  | .certificate (.own _) | .header _ _ | .digest _ | .builder _ =>
      .isTrue trivial

instance readsFreshDecidable (state : State (Fin 4)) :
    ∀ label, Decidable (ReadsFresh state label)
  | (seat, .builder (.check .complete)) =>
      inferInstanceAs (Decidable ((state seat).builder.seen =
        (state seat).processor.published.length))
  | (_, .certificate _) | (_, .header _ _) | (_, .digest _)
  | (_, .builder .wake) | (_, .builder (.check .incomplete))
  | (_, .builder (.build _ _)) | (_, .builder (.receive _ _))
  | (_, .builder (.timeout _)) => .isTrue trivial

def performFour (state : State (Fin 4)) (label : Fin 4 × Primary.Event) :
    Option (State (Fin 4)) :=
  if Delivered state label.2 then
    (Primary.perform (fourConfig.primary label.1) (state label.1)
      label.2).map (Function.update state label.1)
  else none

private theorem step_of_performFour {state next : State (Fin 4)}
    {label : Fin 4 × Primary.Event}
    (performed : performFour state label = some next) :
    Step fourConfig state label next := by
  simp only [performFour, Option.ite_none_right_eq_some] at performed
  obtain ⟨delivered, taken⟩ := performed
  obtain ⟨after, performed, rfl⟩ := Option.map_eq_some_iff.mp taken
  exact .step delivered (Primary.step_of_perform performed)

/-- The certificates that the active authorities have made. -/
def certificatesMade (state : State (Fin 4)) : List Certificate :=
  (activeFrom 0).flatMap fun seat => (state seat).builder.certificates

private theorem threeRounds_performed :
    (Primary.start shortCrypto).Returns fun initial =>
      ∃ state ∈ Runs.follow ReadsFresh performFour (fun _ => initial)
        threeRounds,
      (∃ vertex ∈ HashMap.values (state 0).processor.dag.vertices,
        vertex.data.round = 3) ∧
      (state 3).builder.certificates = [] ∧
      ∀ left ∈ DagProcessor.genesis :: certificatesMade state,
      ∀ right ∈ DagProcessor.genesis :: certificatesMade state,
        left.digest shortCrypto = right.digest shortCrypto →
        left.bytes = right.bytes ∧ left.parents = right.parents := by
  decide +kernel

/-- After three rounds of three authorities out of four, every certificate of
the third round has one and the same of the first in its history. -/
theorem common_core_threeRounds :
    ∃ initial state, Runs.Run (Runs.restrict ReadsFresh (Step fourConfig))
        (fun _ => initial) threeRounds state ∧
      ∃ core, (∃ base, (state 0).processor.dag.view core = some base ∧
          base.layer = 1) ∧
        ∀ other after more,
          (state other).processor.dag.view after = some more →
          3 ≤ more.layer →
          Histories.Reaches (state other).processor.dag.view after core := by
  obtain ⟨initial, started, state, followed, ⟨vertex, stored, third⟩, idle,
    apart⟩ := threeRounds_performed
  have run := Runs.Run.of_follow (fun _ _ _ => step_of_performFour) followed
  have listed {certificate : Certificate}
      (member : certificate ∈ certificatesOf state) :
      certificate ∈ DagProcessor.genesis :: certificatesMade state := by
    rcases member with rfl | ⟨seat, sent⟩
    · exact List.mem_cons_self
    · apply List.mem_cons_of_mem
      match seat with
      | 0 => exact List.mem_flatMap.mpr ⟨0, by decide, sent⟩
      | 1 => exact List.mem_flatMap.mpr ⟨1, by decide, sent⟩
      | 2 => exact List.mem_flatMap.mpr ⟨2, by decide, sent⟩
      | 3 =>
          rw [idle] at sent
          cases sent
  have addressed : DagProcessor.ContentAddressed shortCrypto
      (certificatesOf state) :=
    fun left leftIn right rightIn =>
      apart left (listed leftIn) right (listed rightIn)
  have keys : Function.Injective fun seat =>
      (fourConfig.keypair seat).publicKey := by
    decide +kernel
  obtain ⟨id, found⟩ := HashMap.mem_values_iff.mp stored
  obtain ⟨core, base, reached⟩ := @common_core (Fin 4) _ fourConfig initial
    state threeRounds _ 1 rfl rfl (by decide) keys started run addressed 1
    le_rfl 0 id _ (DagProcessor.view_eq_some.mpr ⟨vertex, found, rfl⟩)
    (by rw [third]; rfl)
  exact ⟨initial, state, run, core, base, reached⟩

end Four

end HonestNetwork

end Calf

import Igra.Calf.Network

/-!
# Fetching from several peers

A fetch asks one peer after the other for the objects that are still missing.
A peer with part of them shrinks the request; a peer with all of them ends the
fetch.
-/

open Rust

namespace Calf

/-- `FetchError`. -/
inductive FetchError where
  | timeout
  | brokenChannel
deriving DecidableEq

section Feeder

/-- What a peer has stored under the digests. -/
structure PeerData where
  certificates : Digest → Option Certificate
  headers : Digest → Option BlockHeader
  batches : Digest → Option (Batch Transaction)

/-- `try_retrieve_data`, up to sending the response. -/
def tryRetrieveData {α : Type} (get : Digest → Option α)
    (intoSyncData : List α → SyncData) (payload : List Digest)
    (requestId : RequestId) : SyncResponse :=
  let datas := payload.filterMap get
  if datas.length = payload.length then
    .success requestId (intoSyncData datas)
  else if datas.length ≠ 0 ∧ datas.length < payload.length then
    .partly requestId (intoSyncData datas)
  else .failure requestId

/-- How the feeder of a peer answers.  It ignores requests for digests to
sync. -/
def feed (crypto : Crypto) (data : PeerData) (request : SyncRequest) :
    Option SyncResponse :=
  let requestId := request.digest crypto
  match request.kind with
  | .certificates =>
      some (tryRetrieveData data.certificates .certificates request.keys
        requestId)
  | .blockHeaders =>
      some (tryRetrieveData data.headers .headers request.keys requestId)
  | .batches =>
      some (tryRetrieveData data.batches .batches request.keys requestId)
  | .syncDigests => none

/-- The object of a kind that a peer has under a digest. -/
def PeerData.find (data : PeerData) (kind : SyncKind) (key : Digest) :
    Option RequestPayload :=
  match kind with
  | .certificates => (data.certificates key).map .certificate
  | .blockHeaders => (data.headers key).map .header
  | .batches => (data.batches key).map .batch
  | .syncDigests => none

/-- Objects are stored under their digests. -/
def PeerData.ContentAddressed (crypto : Crypto) (data : PeerData) : Prop :=
  ∀ kind key payload, data.find kind key = some payload →
    payload.innerId crypto = some key

end Feeder

/-- One peer to ask: whether the request can be sent to the network, and what
the fetch receives while it waits. -/
structure Source where
  peer : PeerId
  reachable : Bool
  incoming : SyncRequest → List (ReceivedObject SyncResponse)

/-- `wait_for_response`, unless the wait times out. -/
def waitForResponse (crypto : Crypto) (request : SyncRequest)
    (incoming : List (ReceivedObject SyncResponse)) :
    Option (ReceivedObject SyncResponse) :=
  incoming.find? fun received =>
    received.object.id == request.digest crypto

abbrev FetchResult := Except FetchError (List (ReceivedObject RequestPayload))

section Fetch

variable (crypto : Crypto)

/-- How the loop goes on after one peer. -/
inductive Turn where
  | next (request : SyncRequest)
      (responses : List (ReceivedObject RequestPayload))
  | stop (result : FetchResult)

/-- The body of the loop of `try_fetch_from`. -/
def askSource (request : SyncRequest)
    (responses : List (ReceivedObject RequestPayload)) (source : Source) :
    Turn :=
  if !source.reachable then .stop (.error .brokenChannel)
  else
    match waitForResponse crypto request (source.incoming request) with
    | none => .next request responses
    | some received =>
        match received.object with
        | .success _ data =>
            -- What earlier peers sent is not in the result.
            .stop (.ok (data.intoPayloads.map fun payload =>
              ⟨payload, received.sender⟩))
        | .partly _ data =>
            let payloads := data.intoPayloads
            .next
              (request.removeReached
                (payloads.filterMap (RequestPayload.innerId crypto)))
              (responses ++ payloads.map fun payload =>
                ⟨payload, source.peer⟩)
        | .failure _ => .next request responses

/-- The loop of `try_fetch_from`. -/
def fetchFrom (request : SyncRequest)
    (responses : List (ReceivedObject RequestPayload)) :
    List Source → FetchResult
  | [] => if responses.isEmpty then .error .timeout else .ok responses
  | source :: rest =>
      match askSource crypto request responses source with
      | .stop result => result
      | .next request responses => fetchFrom request responses rest

/-- `try_fetch_from`. -/
def tryFetchFrom (request : SyncRequest) (sources : List Source) :
    FetchResult :=
  fetchFrom crypto request [] sources

/-- A request that was sent, and the response to it. -/
structure Exchange where
  peer : PeerId
  request : SyncRequest
  response : Option SyncResponse

/-- The exchanges of the loop. -/
def exchanges (request : SyncRequest)
    (responses : List (ReceivedObject RequestPayload)) :
    List Source → List Exchange
  | [] => []
  | source :: rest =>
      if !source.reachable then []
      else
        let received :=
          waitForResponse crypto request (source.incoming request)
        ⟨source.peer, request, received.map ReceivedObject.object⟩ ::
          match askSource crypto request responses source with
          | .stop _ => []
          | .next request responses => exchanges request responses rest

end Fetch

/-- The objects of a success or partial response. -/
def Exchange.objects (exchange : Exchange) : List RequestPayload :=
  match exchange.response with
  | some (.success _ data) => data.intoPayloads
  | some (.partly _ data) => data.intoPayloads
  | _ => []

def Exchange.Succeeded (exchange : Exchange) : Prop :=
  ∃ id data, exchange.response = some (.success id data)

/-- A fetch loses nothing. -/
structure LosesNothing (crypto : Crypto) (request : SyncRequest)
    (sources : List Source) : Prop where
  returnsAll : ∀ payloads, tryFetchFrom crypto request sources = .ok payloads →
    ∀ exchange ∈ exchanges crypto request [] sources,
      ∀ object ∈ exchange.objects,
        object ∈ payloads.map ReceivedObject.object
  asksMissing : ∀ earlier exchange later,
    exchanges crypto request [] sources = earlier ++ exchange :: later →
      ∀ key ∈ exchange.request.keys, key ∈ request.keys ∧
        ∀ before ∈ earlier, ∀ object ∈ before.objects,
          object.innerId crypto ≠ some key
  complete : ∀ payloads, tryFetchFrom crypto request sources = .ok payloads →
    ∀ exchange ∈ exchanges crypto request [] sources, exchange.Succeeded →
      ∀ key ∈ request.keys, ∃ object ∈ payloads.map ReceivedObject.object,
        object.innerId crypto = some key

/-- The peer answers as the feeder does, from the given data, or not at all. -/
structure Honest (crypto : Crypto) (source : Source)
    (data : Option PeerData) : Prop where
  answers : ∀ request, (waitForResponse crypto request
      (source.incoming request)).map ReceivedObject.object =
    data.bind fun data => feed crypto data request
  addressed : ∀ stored, data = some stored → stored.ContentAddressed crypto

/-- The data of the peers that answer, up to where a request cannot be sent. -/
def answering (peers : List (Source × Option PeerData)) : List PeerData :=
  (peers.takeWhile fun peer => peer.1.reachable).filterMap Prod.snd

def PeerData.HasAll (data : PeerData) (request : SyncRequest) : Prop :=
  ∀ key ∈ request.keys, (data.find request.kind key).isSome = true

/-- The first peer with any of the requested objects. -/
def firstHolder (held : List PeerData) (request : SyncRequest) :
    Option PeerData :=
  held.find? fun data => request.keys.any fun key =>
    (data.find request.kind key).isSome

/-- Each of the requested objects is with some peer. -/
def Covers (held : List PeerData) (request : SyncRequest) : Prop :=
  ∀ key ∈ request.keys, ∃ data ∈ held,
    (data.find request.kind key).isSome = true

/-- Something is with no peer, or the first peer with anything has all. -/
def FirstHolderSuffices (request : SyncRequest) (held : List PeerData) :
    Prop :=
  ¬Covers held request ∨
    ∀ data, firstHolder held request = some data → data.HasAll request

section Turns

variable {crypto : Crypto} {request : SyncRequest}
  {responses : List (ReceivedObject RequestPayload)} {source : Source}
  {stored : PeerData}

/-- What a peer has of a request. -/
def PeerData.found (data : PeerData) (request : SyncRequest) :
    List RequestPayload :=
  request.keys.filterMap (data.find request.kind)

/-- What a peer leaves of a request. -/
def PeerData.missing (data : PeerData) (request : SyncRequest) :
    SyncRequest :=
  { request with
    keys := request.keys.filter fun key =>
      (data.find request.kind key).isNone }

theorem length_found_iff :
    (stored.found request).length = request.keys.length ↔
      stored.HasAll request :=
  List.filterMap_length_eq_length

theorem mem_found {payload : RequestPayload} :
    payload ∈ stored.found request ↔
      ∃ key ∈ request.keys, stored.find request.kind key = some payload :=
  List.mem_filterMap

theorem mem_missing {key : Digest} :
    key ∈ (stored.missing request).keys ↔
      key ∈ request.keys ∧ stored.find request.kind key = none := by
  simp [PeerData.missing]

theorem tryRetrieveData_eq {α : Type} (get : Digest → Option α)
    (intoSyncData : List α → SyncData) (keys : List Digest)
    (requestId : RequestId) :
    tryRetrieveData get intoSyncData keys requestId =
      if (keys.filterMap get).length = keys.length then
        .success requestId (intoSyncData (keys.filterMap get))
      else if keys.filterMap get ≠ [] then
        .partly requestId (intoSyncData (keys.filterMap get))
      else .failure requestId := by
  have bound := List.length_filterMap_le get keys
  unfold tryRetrieveData
  by_cases all : (keys.filterMap get).length = keys.length
  · simp only [if_pos all]
  · have shorter : (keys.filterMap get).length < keys.length := by omega
    simp only [if_neg all, shorter, and_true, ne_eq, List.length_eq_zero_iff]

theorem feed_eq (fetchable : request.kind ≠ .syncDigests) :
    ∃ syncData : SyncData,
      syncData.intoPayloads = stored.found request ∧
      feed crypto stored request = some
        (if (stored.found request).length = request.keys.length then
          .success (request.digest crypto) syncData
        else if stored.found request ≠ [] then
          .partly (request.digest crypto) syncData
        else .failure (request.digest crypto)) := by
  obtain ⟨kind, keys⟩ := request
  cases kind with
  | syncDigests => exact absurd rfl fetchable
  | certificates =>
      have found : (⟨.certificates, keys⟩ : SyncRequest).keys.filterMap
          (stored.find .certificates) =
            (keys.filterMap stored.certificates).map .certificate := by
        rw [List.map_filterMap]
        rfl
      refine ⟨.certificates (keys.filterMap stored.certificates),
        found.symm, ?_⟩
      simp only [feed, tryRetrieveData_eq, PeerData.found, found,
        List.length_map, ne_eq, List.map_eq_nil_iff]
  | blockHeaders =>
      have found : (⟨.blockHeaders, keys⟩ : SyncRequest).keys.filterMap
          (stored.find .blockHeaders) =
            (keys.filterMap stored.headers).map .header := by
        rw [List.map_filterMap]
        rfl
      refine ⟨.headers (keys.filterMap stored.headers), found.symm, ?_⟩
      simp only [feed, tryRetrieveData_eq, PeerData.found, found,
        List.length_map, ne_eq, List.map_eq_nil_iff]
  | batches =>
      have found : (⟨.batches, keys⟩ : SyncRequest).keys.filterMap
          (stored.find .batches) =
            (keys.filterMap stored.batches).map .batch := by
        rw [List.map_filterMap]
        rfl
      refine ⟨.batches (keys.filterMap stored.batches), found.symm, ?_⟩
      simp only [feed, tryRetrieveData_eq, PeerData.found, found,
        List.length_map, ne_eq, List.map_eq_nil_iff]

theorem removeReached_found (addressed : stored.ContentAddressed crypto) :
    request.removeReached ((stored.found request).filterMap
        (RequestPayload.innerId crypto)) = stored.missing request := by
  have reached (key : Digest) (asked : key ∈ request.keys) :
      key ∈ (stored.found request).filterMap
          (RequestPayload.innerId crypto) ↔
        (stored.find request.kind key).isNone = false := by
    rw [List.mem_filterMap]
    constructor
    · rintro ⟨payload, member, id⟩
      obtain ⟨other, -, found⟩ := mem_found.mp member
      rw [addressed _ _ _ found] at id
      cases id
      simp [found]
    · intro has
      cases found : stored.find request.kind key with
      | none => simp [found] at has
      | some payload =>
          exact ⟨payload, mem_found.mpr ⟨key, asked, found⟩,
            addressed _ _ _ found⟩
  unfold SyncRequest.removeReached PeerData.missing
  congr 1
  apply List.filter_congr
  intro key asked
  by_cases has : (stored.find request.kind key).isNone = false
  · have member := (reached key asked).mpr has
    simp [member, has]
  · have absent := mt (reached key asked).mp has
    simp only [Bool.not_eq_false] at has
    simp [absent, has]

/-- How a fetch from honest peers goes: with what is asked for, the objects
collected before, what the answering peers have, the exchanges, and the objects
returned, if any. -/
inductive Fetched (crypto : Crypto) :
    SyncRequest → List RequestPayload → List PeerData → List Exchange →
      Option (List RequestPayload) → Prop where
  | exhausted {request : SyncRequest} {collected : List RequestPayload} :
      Fetched crypto request collected [] [] (some collected)
  | failed {request : SyncRequest} {collected : List RequestPayload} :
      Fetched crypto request collected [] [] none
  | silent {request : SyncRequest} {collected : List RequestPayload}
      {held : List PeerData} {exchange : Exchange} {history : List Exchange}
      {result : Option (List RequestPayload)}
      (asked : exchange.request = request)
      (objects : exchange.objects = [])
      (failed : ¬exchange.Succeeded)
      (rest : Fetched crypto request collected held history result) :
      Fetched crypto request collected held (exchange :: history) result
  | passes {request : SyncRequest} {collected : List RequestPayload}
      {stored : PeerData} {held : List PeerData} {exchange : Exchange}
      {history : List Exchange} {result : Option (List RequestPayload)}
      (addressed : stored.ContentAddressed crypto)
      (notAll : ¬stored.HasAll request)
      (asked : exchange.request = request)
      (objects : exchange.objects = stored.found request)
      (failed : ¬exchange.Succeeded)
      (rest : Fetched crypto (stored.missing request)
        (collected ++ stored.found request) held history result) :
      Fetched crypto request collected (stored :: held)
        (exchange :: history) result
  | ends {request : SyncRequest} {collected : List RequestPayload}
      {stored : PeerData} {held : List PeerData} {exchange : Exchange}
      (addressed : stored.ContentAddressed crypto)
      (all : stored.HasAll request)
      (asked : exchange.request = request)
      (objects : exchange.objects = stored.found request)
      (succeeded : exchange.Succeeded) :
      Fetched crypto request collected (stored :: held) [exchange]
        (some (stored.found request))

/-- The objects of a result. -/
def returned (result : FetchResult) : Option (List RequestPayload) :=
  result.toOption.map fun payloads => payloads.map ReceivedObject.object

theorem found_eq_nil_iff :
    stored.found request = [] ↔
      ∀ key ∈ request.keys, stored.find request.kind key = none :=
  List.filterMap_eq_nil_iff

theorem missing_of_found_eq_nil (none : stored.found request = []) :
    stored.missing request = request := by
  unfold PeerData.missing
  congr 1
  apply List.filter_eq_self.mpr
  intro key asked
  rw [found_eq_nil_iff.mp none key asked]
  rfl

theorem fetched_of_honest {peers : List (Source × Option PeerData)}
    (fetchable : request.kind ≠ .syncDigests)
    (honest : ∀ peer ∈ peers, Honest crypto peer.1 peer.2) :
    Fetched crypto request (responses.map ReceivedObject.object)
      (answering peers)
      (exchanges crypto request responses (peers.map Prod.fst))
      (returned (fetchFrom crypto request responses (peers.map Prod.fst))) := by
  induction peers generalizing request responses with
  | nil =>
      cases responses with
      | nil => exact .failed
      | cons response rest => exact .exhausted
  | cons peer rest ih =>
      obtain ⟨source, data⟩ := peer
      have others : ∀ peer ∈ rest, Honest crypto peer.1 peer.2 :=
        fun peer member => honest peer (List.mem_cons_of_mem _ member)
      have answers := (honest _ List.mem_cons_self).answers request
      have addressed := (honest _ List.mem_cons_self).addressed
      simp only [List.map_cons, fetchFrom, exchanges, askSource, answering,
        List.takeWhile_cons]
      cases reachable : source.reachable with
      | false => exact .failed
      | true =>
          simp only [Bool.not_true, Bool.false_eq_true, if_false, if_true,
            List.filterMap_cons]
          cases data with
          | none =>
              simp only [Option.bind_none, Option.map_eq_none_iff] at answers
              simp only [answers, Option.map_none]
              exact .silent rfl rfl (by rintro ⟨_, _, same⟩; cases same)
                (ih fetchable others)
          | some stored =>
              obtain ⟨syncData, payloads, answer⟩ :=
                @feed_eq crypto request stored fetchable
              rw [Option.bind_some, answer, Option.map_eq_some_iff] at answers
              obtain ⟨received, found, object⟩ := answers
              have storedAddressed := addressed stored rfl
              simp only [found, Option.map_some]
              by_cases all : stored.HasAll request
              · rw [if_pos (length_found_iff.mpr all)] at object
                have objects : returned (.ok (syncData.intoPayloads.map
                    fun payload => ⟨payload, received.sender⟩)) =
                      some (stored.found request) := by
                  simp [returned, Except.toOption, payloads, Function.comp_def]
                simp only [object, objects]
                exact .ends storedAddressed all rfl payloads ⟨_, _, rfl⟩
              · rw [if_neg (mt length_found_iff.mp all)] at object
                by_cases nothing : stored.found request = []
                · rw [if_neg (not_not.mpr nothing)] at object
                  simp only [object]
                  have next := @ih request responses fetchable others
                  refine .passes storedAddressed all rfl nothing.symm
                    (by rintro ⟨_, _, same⟩; cases same) ?_
                  rw [missing_of_found_eq_nil nothing, nothing,
                    List.append_nil]
                  exact next
                · rw [if_pos nothing] at object
                  simp only [object, payloads,
                    removeReached_found storedAddressed]
                  have next := @ih (stored.missing request)
                    (responses ++ (stored.found request).map
                      fun payload => ⟨payload, source.peer⟩)
                    fetchable others
                  refine .passes storedAddressed all rfl payloads
                    (by rintro ⟨_, _, same⟩; cases same) ?_
                  rw [List.map_append, List.map_map] at next
                  simp only [Function.comp_def, List.map_id'] at next
                  exact next

section Histories

variable {collected : List RequestPayload} {held : List PeerData}
  {history : List Exchange} {result : Option (List RequestPayload)}

theorem Fetched.asksMissing
    (fetched : Fetched crypto request collected held history result)
    {earlier later : List Exchange} {exchange : Exchange}
    (split : history = earlier ++ exchange :: later) :
    ∀ key ∈ exchange.request.keys, key ∈ request.keys ∧
      ∀ before ∈ earlier, ∀ object ∈ before.objects,
        object.innerId crypto ≠ some key := by
  induction fetched generalizing earlier with
  | exhausted => simp at split
  | failed => simp at split
  | silent asked objects failed rest ih =>
      cases earlier with
      | nil =>
          obtain ⟨rfl, -⟩ := List.cons.inj split
          intro key member
          rw [asked] at member
          exact ⟨member, by simp⟩
      | cons first earlier =>
          obtain ⟨rfl, others⟩ := List.cons.inj split
          intro key member
          obtain ⟨wanted, unsent⟩ := ih others key member
          refine ⟨wanted, ?_⟩
          intro before inEarlier
          rcases List.mem_cons.mp inEarlier with rfl | inEarlier
          · simp [objects]
          · exact unsent before inEarlier
  | passes addressed notAll asked objects failed rest ih =>
      cases earlier with
      | nil =>
          obtain ⟨rfl, -⟩ := List.cons.inj split
          intro key member
          rw [asked] at member
          exact ⟨member, by simp⟩
      | cons first earlier =>
          obtain ⟨rfl, others⟩ := List.cons.inj split
          intro key member
          obtain ⟨left, unsent⟩ := ih others key member
          obtain ⟨wanted, unheld⟩ := mem_missing.mp left
          refine ⟨wanted, ?_⟩
          intro before inEarlier
          rcases List.mem_cons.mp inEarlier with rfl | inEarlier
          · intro object inObjects id
            rw [objects] at inObjects
            obtain ⟨other, -, found⟩ := mem_found.mp inObjects
            rw [addressed _ _ _ found] at id
            cases id
            rw [unheld] at found
            cases found
          · exact unsent before inEarlier
  | ends addressed all asked objects succeeded =>
      cases earlier with
      | nil =>
          obtain ⟨rfl, -⟩ := List.cons.inj split
          intro key member
          rw [asked] at member
          exact ⟨member, by simp⟩
      | cons first earlier => simp at split

theorem covers_missing_iff :
    Covers held (stored.missing request) ↔
      Covers (stored :: held) request := by
  constructor
  · intro covers key asked
    by_cases has : (stored.find request.kind key).isSome = true
    · exact ⟨stored, by simp, has⟩
    · have left : key ∈ (stored.missing request).keys :=
        mem_missing.mpr ⟨asked, by simpa using has⟩
      obtain ⟨data, member, found⟩ := covers key left
      exact ⟨data, List.mem_cons_of_mem _ member, found⟩
  · intro covers key left
    obtain ⟨asked, unheld⟩ := mem_missing.mp left
    obtain ⟨data, member, found⟩ := covers key asked
    rcases List.mem_cons.mp member with rfl | member
    · simp [unheld] at found
    · exact ⟨data, member, found⟩

private theorem covers_of_hasAll (all : stored.HasAll request) :
    Covers (stored :: held) request :=
  fun key asked => ⟨stored, by simp, all key asked⟩

theorem missing_keys_ne_nil (notAll : ¬stored.HasAll request) :
    (stored.missing request).keys ≠ [] := by
  unfold PeerData.HasAll at notAll
  push Not at notAll
  obtain ⟨key, asked, unheld⟩ := notAll
  have left : key ∈ (stored.missing request).keys :=
    mem_missing.mpr ⟨asked, by simpa using unheld⟩
  exact List.ne_nil_of_mem left

/-- Peers that together have what is asked for end the fetch, with nothing but
that. -/
theorem Fetched.ends_of_covers
    (fetched : Fetched crypto request collected held history result)
    (some : request.keys ≠ []) (covers : Covers held request) :
    ∃ objects, result = Option.some objects ∧
      ∀ object ∈ objects, ∃ key ∈ request.keys,
        object.innerId crypto = Option.some key := by
  induction fetched with
  | exhausted =>
      obtain ⟨key, asked⟩ := List.exists_mem_of_ne_nil _ some
      obtain ⟨data, member, -⟩ := covers key asked
      cases member
  | failed =>
      obtain ⟨key, asked⟩ := List.exists_mem_of_ne_nil _ some
      obtain ⟨data, member, -⟩ := covers key asked
      cases member
  | silent asked objects failed rest ih => exact ih some covers
  | passes addressed notAll asked objects failed rest ih =>
      obtain ⟨returned, same, ids⟩ := ih (missing_keys_ne_nil notAll)
        (covers_missing_iff.mpr covers)
      refine ⟨returned, same, ?_⟩
      intro object member
      obtain ⟨key, left, id⟩ := ids object member
      exact ⟨key, (mem_missing.mp left).1, id⟩
  | ends addressed all asked objects succeeded =>
      refine ⟨_, rfl, ?_⟩
      intro object member
      obtain ⟨key, asked, found⟩ := mem_found.mp member
      exact ⟨key, asked, addressed _ _ _ found⟩

/-- Peers that together lack something never succeed, and the fetch returns
everything that it received. -/
theorem Fetched.returnsAll_of_not_covers
    (fetched : Fetched crypto request collected held history result)
    (some : request.keys ≠ []) (uncovered : ¬Covers held request) :
    (∀ exchange ∈ history, ¬exchange.Succeeded) ∧
      ∀ objects, result = Option.some objects →
        (∀ object ∈ collected, object ∈ objects) ∧
        ∀ exchange ∈ history, ∀ object ∈ exchange.objects,
          object ∈ objects := by
  induction fetched with
  | exhausted =>
      refine ⟨by simp, ?_⟩
      rintro objects ⟨⟩
      exact ⟨fun object member => member, by simp⟩
  | failed => exact ⟨by simp, fun objects same => by cases same⟩
  | silent asked objects failed rest ih =>
      obtain ⟨none, returned⟩ := ih some uncovered
      refine ⟨?_, ?_⟩
      · intro exchange member
        rcases List.mem_cons.mp member with rfl | member
        · exact failed
        · exact none exchange member
      · intro all same
        obtain ⟨kept, received⟩ := returned all same
        refine ⟨kept, ?_⟩
        intro exchange member
        rcases List.mem_cons.mp member with rfl | member
        · simp [objects]
        · exact received exchange member
  | passes addressed notAll asked objects failed rest ih =>
      obtain ⟨none, returned⟩ := ih (missing_keys_ne_nil notAll)
        (mt covers_missing_iff.mp uncovered)
      refine ⟨?_, ?_⟩
      · intro exchange member
        rcases List.mem_cons.mp member with rfl | member
        · exact failed
        · exact none exchange member
      · intro all same
        obtain ⟨kept, received⟩ := returned all same
        refine ⟨fun object member =>
          kept object (List.mem_append_left _ member), ?_⟩
        intro exchange member object inObjects
        rcases List.mem_cons.mp member with rfl | member
        · rw [objects] at inObjects
          exact kept object (List.mem_append_right _ inObjects)
        · exact received exchange member object inObjects
  | ends addressed all asked objects succeeded =>
      exact absurd (covers_of_hasAll all) uncovered

theorem any_found_eq_false_iff :
    (request.keys.any fun key => (stored.find request.kind key).isSome) =
        false ↔ stored.found request = [] := by
  rw [found_eq_nil_iff, List.any_eq_false]
  simp

theorem firstHolder_cons_of_nothing (nothing : stored.found request = []) :
    firstHolder (stored :: held) request = firstHolder held request :=
  List.find?_cons_of_neg (by simp [any_found_eq_false_iff.mpr nothing])

theorem firstHolder_cons_of_something
    (something : stored.found request ≠ []) :
    firstHolder (stored :: held) request = some stored :=
  List.find?_cons_of_pos
    (Bool.eq_true_of_not_eq_false (mt any_found_eq_false_iff.mp something))

theorem Fetched.returnsAll_of_firstHolder
    (fetched : Fetched crypto request collected held history result)
    (fresh : collected = [])
    (suffices' : ∀ data, firstHolder held request = some data →
      data.HasAll request) :
    ∀ objects, result = Option.some objects →
      (∀ exchange ∈ history, ∀ object ∈ exchange.objects,
        object ∈ objects) ∧
      ∀ exchange ∈ history, exchange.Succeeded →
        ∀ key ∈ request.keys, ∃ object ∈ objects,
          object.innerId crypto = Option.some key := by
  induction fetched with
  | exhausted => exact fun objects _ => ⟨by simp, by simp⟩
  | failed => exact fun objects same => by cases same
  | silent asked objects failed rest ih =>
      intro all same
      obtain ⟨received, complete⟩ := ih fresh suffices' all same
      refine ⟨?_, ?_⟩
      · intro exchange member
        rcases List.mem_cons.mp member with rfl | member
        · simp [objects]
        · exact received exchange member
      · intro exchange member succeeded
        rcases List.mem_cons.mp member with rfl | member
        · exact absurd succeeded failed
        · exact complete exchange member succeeded
  | @passes request collected stored held exchange history result addressed
      notAll asked objects failed rest ih =>
      have nothing : stored.found request = [] := by
        by_contra something
        exact notAll (suffices' stored
          (firstHolder_cons_of_something something))
      rw [missing_of_found_eq_nil nothing, nothing, List.append_nil] at ih
      rw [firstHolder_cons_of_nothing nothing] at suffices'
      intro all same
      obtain ⟨received, complete⟩ := ih fresh suffices' all same
      refine ⟨?_, ?_⟩
      · intro exchange member
        rcases List.mem_cons.mp member with rfl | member
        · simp [objects, nothing]
        · exact received exchange member
      · intro exchange member succeeded
        rcases List.mem_cons.mp member with rfl | member
        · exact absurd succeeded failed
        · exact complete exchange member succeeded
  | @ends request collected stored held exchange addressed all asked objects
      succeeded =>
      rintro returned ⟨⟩
      refine ⟨?_, ?_⟩
      · intro other member object inObjects
        rw [List.mem_singleton.mp member, objects] at inObjects
        exact inObjects
      · intro other member _ key wanted
        obtain ⟨payload, found⟩ := Option.isSome_iff_exists.mp (all key wanted)
        exact ⟨payload, mem_found.mpr ⟨key, wanted, found⟩,
          addressed _ _ _ found⟩

/-- After a first holder with only a part, a success drops that part. -/
theorem Fetched.drops_of_firstHolder
    (fetched : Fetched crypto request collected held history result)
    (covers : Covers held request)
    (first : firstHolder held request = some stored)
    (notAll : ¬stored.HasAll request) :
    ∃ objects, result = Option.some objects ∧
      ∃ exchange ∈ history, ∃ object ∈ exchange.objects,
        object ∉ objects := by
  induction fetched with
  | exhausted => cases first
  | failed => cases first
  | silent asked objects failed rest ih =>
      obtain ⟨returned, same, exchange, member, dropped⟩ :=
        ih covers first notAll
      exact ⟨returned, same, exchange, List.mem_cons_of_mem _ member, dropped⟩
  | @passes request collected peer held exchange history result addressed
      partly asked objects failed rest ih =>
      by_cases nothing : peer.found request = []
      · rw [missing_of_found_eq_nil nothing] at ih
        have covered := covers_missing_iff.mpr covers
        rw [missing_of_found_eq_nil nothing] at covered
        rw [firstHolder_cons_of_nothing nothing] at first
        obtain ⟨returned, same, exchange, member, dropped⟩ :=
          ih covered first notAll
        exact ⟨returned, same, exchange, List.mem_cons_of_mem _ member,
          dropped⟩
      · obtain ⟨returned, same, ids⟩ := rest.ends_of_covers
          (missing_keys_ne_nil partly) (covers_missing_iff.mpr covers)
        obtain ⟨object, member⟩ := List.exists_mem_of_ne_nil _ nothing
        refine ⟨returned, same, exchange, List.mem_cons_self, object,
          by rw [objects]; exact member, ?_⟩
        intro kept
        obtain ⟨key, left, id⟩ := ids object kept
        obtain ⟨other, -, found⟩ := mem_found.mp member
        rw [addressed _ _ _ found] at id
        cases id
        rw [(mem_missing.mp left).2] at found
        cases found
  | @ends request collected peer held exchange addressed all asked objects
      succeeded =>
      by_cases nothing : peer.found request = []
      · have empty : request.keys = [] := by
          by_contra some
          obtain ⟨key, wanted⟩ := List.exists_mem_of_ne_nil _ some
          have held := all key wanted
          rw [found_eq_nil_iff.mp nothing key wanted] at held
          cases held
        refine absurd ?_ notAll
        intro key wanted
        rw [empty] at wanted
        cases wanted
      · rw [firstHolder_cons_of_something nothing] at first
        cases first
        exact absurd all notAll

end Histories

theorem returned_eq_some_iff {result : FetchResult}
    {objects : List RequestPayload} :
    returned result = some objects ↔
      ∃ payloads, result = .ok payloads ∧
        payloads.map ReceivedObject.object = objects := by
  cases result with
  | error error => simp [returned, Except.toOption]
  | ok payloads => simp [returned, Except.toOption]

/-- A fetch from honest peers loses nothing exactly if the first peer with any
of the requested objects has all of them, or something is with no peer. -/
theorem losesNothing_iff {peers : List (Source × Option PeerData)}
    (fetchable : request.kind ≠ .syncDigests)
    (honest : ∀ peer ∈ peers, Honest crypto peer.1 peer.2) :
    LosesNothing crypto request (peers.map Prod.fst) ↔
      FirstHolderSuffices request (answering peers) := by
  have fetched := @fetched_of_honest crypto request [] peers fetchable honest
  rw [List.map_nil] at fetched
  constructor
  · intro keeps
    by_contra insufficient
    unfold FirstHolderSuffices at insufficient
    push Not at insufficient
    obtain ⟨covers, stored, first, notAll⟩ := insufficient
    obtain ⟨objects, result, exchange, member, object, inObjects, dropped⟩ :=
      fetched.drops_of_firstHolder covers first notAll
    obtain ⟨payloads, ok, rfl⟩ := returned_eq_some_iff.mp result
    exact dropped (keeps.returnsAll payloads ok exchange member object
      inObjects)
  · intro suffices'
    have outcome : ∀ objects, returned (fetchFrom crypto request []
        (peers.map Prod.fst)) = some objects →
          (∀ exchange ∈ exchanges crypto request [] (peers.map Prod.fst),
            ∀ object ∈ exchange.objects, object ∈ objects) ∧
          ∀ exchange ∈ exchanges crypto request [] (peers.map Prod.fst),
            exchange.Succeeded → ∀ key ∈ request.keys, ∃ object ∈ objects,
              object.innerId crypto = some key := by
      by_cases whole : ∀ data, firstHolder (answering peers) request =
          some data → data.HasAll request
      · exact fetched.returnsAll_of_firstHolder rfl whole
      · have uncovered := suffices'.resolve_right whole
        have wanted : request.keys ≠ [] := by
          rintro empty
          refine uncovered fun key member => ?_
          rw [empty] at member
          cases member
        obtain ⟨none, all⟩ :=
          fetched.returnsAll_of_not_covers wanted uncovered
        intro objects same
        exact ⟨(all objects same).2, fun exchange member succeeded =>
          absurd succeeded (none exchange member)⟩
    constructor
    · intro payloads ok
      exact (outcome _ (returned_eq_some_iff.mpr ⟨payloads, ok, rfl⟩)).1
    · intro earlier exchange later split
      exact fetched.asksMissing split
    · intro payloads ok
      exact (outcome _ (returned_eq_some_iff.mpr ⟨payloads, ok, rfl⟩)).2

end Turns

section Samples

/-- A peer with the given batches. -/
def storing (batches : List (Batch Transaction)) : PeerData where
  certificates _ := none
  headers _ := none
  batches key := batches.find? fun batch => digestOf sampleCrypto batch == key

/-- A peer that answers each request at once. -/
def promptSource (peer : PeerId) (data : PeerData) : Source where
  peer := peer
  reachable := true
  incoming request :=
    (feed sampleCrypto data request).toList.map fun response =>
      ⟨response, peer⟩

private theorem storing_addressed (batches : List (Batch Transaction)) :
    (storing batches).ContentAddressed sampleCrypto := by
  intro kind key payload found
  cases kind with
  | certificates => cases found
  | blockHeaders => cases found
  | syncDigests => cases found
  | batches =>
      obtain ⟨batch, stored, rfl⟩ := Option.map_eq_some_iff.mp found
      have same : (digestOf sampleCrypto batch == key) = true :=
        @List.find?_some _ (fun batch => digestOf sampleCrypto batch == key)
          batch batches stored
      exact congrArg some (beq_iff_eq.mp same)

private theorem tryRetrieveData_id {α : Type} (get : Digest → Option α)
    (intoSyncData : List α → SyncData) (keys : List Digest)
    (requestId : RequestId) :
    (tryRetrieveData get intoSyncData keys requestId).id = requestId := by
  unfold tryRetrieveData
  simp only
  split
  · rfl
  · split <;> rfl

private theorem feed_id {crypto : Crypto} {data : PeerData}
    {request : SyncRequest}
    {response : SyncResponse}
    (answer : feed crypto data request = some response) :
    response.id = request.digest crypto := by
  unfold feed at answer
  split at answer
  · cases answer
    exact tryRetrieveData_id _ _ _ _
  · cases answer
    exact tryRetrieveData_id _ _ _ _
  · cases answer
    exact tryRetrieveData_id _ _ _ _
  · cases answer

private theorem promptSource_honest (peer : PeerId)
    (batches : List (Batch Transaction)) :
    Honest sampleCrypto (promptSource peer (storing batches))
      (some (storing batches)) where
  answers request := by
    cases answer : feed sampleCrypto (storing batches) request with
    | none => simp [promptSource, answer, waitForResponse]
    | some response =>
        simp [promptSource, answer, waitForResponse, feed_id answer]
  addressed := by
    rintro stored ⟨⟩
    exact storing_addressed batches

def firstBatch : Batch Transaction := ⟨[⟨[1]⟩]⟩

def secondBatch : Batch Transaction := ⟨[⟨[2]⟩]⟩

def bothBatches : SyncRequest where
  kind := .batches
  keys := [digestOf sampleCrypto firstBatch, digestOf sampleCrypto secondBatch]

/-- Peers with the given batches, in order. -/
def promptPeers (stores : List (List (Batch Transaction))) :
    List (Source × Option PeerData) :=
  stores.map fun batches =>
    (promptSource [0] (storing batches), some (storing batches))

theorem promptPeers_honest (stores : List (List (Batch Transaction))) :
    ∀ peer ∈ promptPeers stores, Honest sampleCrypto peer.1 peer.2 := by
  intro peer member
  obtain ⟨batches, -, rfl⟩ := List.mem_map.mp member
  exact promptSource_honest [0] batches

/-- A part from one peer is lost when the next has the rest. -/
theorem partThenRest_loses :
    (∀ peer ∈ promptPeers [[firstBatch], [secondBatch]],
      Honest sampleCrypto peer.1 peer.2) ∧
    ¬LosesNothing sampleCrypto bothBatches
      ((promptPeers [[firstBatch], [secondBatch]]).map Prod.fst) := by
  refine ⟨promptPeers_honest _, ?_⟩
  intro keeps
  have returnsAll := keeps.returnsAll [⟨.batch secondBatch, [0]⟩]
    (by decide +kernel)
  have sent : ∃ exchange ∈ exchanges sampleCrypto bothBatches []
      ((promptPeers [[firstBatch], [secondBatch]]).map Prod.fst),
        RequestPayload.batch firstBatch ∈ exchange.objects := by
    decide +kernel
  obtain ⟨exchange, member, object⟩ := sent
  exact absurd (returnsAll exchange member _ object) (by decide)

/-- Nothing is lost when the first peer has both. -/
theorem losesNothing_bothThenOne :
    LosesNothing sampleCrypto bothBatches
      ((promptPeers [[firstBatch, secondBatch], [firstBatch]]).map
        Prod.fst) := by
  refine (losesNothing_iff (by decide) (promptPeers_honest _)).mpr ?_
  refine .inr ?_
  have all : (storing [firstBatch, secondBatch]).HasAll bothBatches := by
    unfold PeerData.HasAll
    decide +kernel
  have something :
      (storing [firstBatch, secondBatch]).found bothBatches ≠ [] := by
    decide +kernel
  intro data first
  have holder := @firstHolder_cons_of_something bothBatches
    (storing [firstBatch, secondBatch]) [storing [firstBatch]] something
  cases holder.symm.trans first
  exact all

end Samples

end Calf

import Igra.Calf.ContentAddressing
import Igra.Calf.DagProcessor

/-!
# Messages

What the nodes send each other: batches, headers, certificates, votes,
acknowledgments and digests, and the requests by which a node fetches what it
is missing.
-/

open Rust

namespace Calf

abbrev RequestId := Digest

/-- An acknowledgment carries the digest of a batch. -/
structure Acknowledgment where
  digest : Digest
deriving DecidableEq

/-- `Acknowledgment::verify`. -/
def Acknowledgment.verify (ack : Acknowledgment) (digest : Digest) : Bool :=
  digest == ack.digest

@[simp] theorem Acknowledgment.verify_iff {ack : Acknowledgment}
    {digest : Digest} : ack.verify digest = true ↔ digest = ack.digest :=
  beq_iff_eq

inductive ObjectSource where
  | sameNode
  | counterpart
deriving DecidableEq

/-- The variants of `SyncRequest`, which all carry a list of digests. -/
inductive SyncKind where
  | certificates
  | blockHeaders
  | batches
  | syncDigests
deriving DecidableEq

structure SyncRequest where
  kind : SyncKind
  keys : List Digest
deriving DecidableEq

namespace SyncRequest

/-- `remove_reached`. -/
def removeReached (request : SyncRequest) (reached : List Digest) :
    SyncRequest :=
  { request with keys := request.keys.filter (· ∉ reached) }

def variantIndex : SyncKind → Nat
  | .certificates => 0
  | .blockHeaders => 1
  | .batches => 2
  | .syncDigests => 3

/-- The bincode form. -/
def bytes (request : SyncRequest) : List UInt8 :=
  leBytes 4 (variantIndex request.kind) ++ leBytes 8 request.keys.length ++
    request.keys.flatMap FixedBytes.bytes

def digest (crypto : Crypto) (request : SyncRequest) : RequestId :=
  crypto.hash request.bytes

end SyncRequest

inductive SyncData where
  | certificates (certificates : List Certificate)
  | headers (headers : List BlockHeader)
  | batches (batches : List (Batch Transaction))
deriving DecidableEq

inductive SyncResponse where
  | success (id : RequestId) (data : SyncData)
  | partly (id : RequestId) (data : SyncData)
  | failure (id : RequestId)
deriving DecidableEq

def SyncResponse.id : SyncResponse → RequestId
  | .success id _ => id
  | .partly id _ => id
  | .failure id => id

inductive RequestPayload where
  | batch (batch : Batch Transaction)
  | acknowledgment (ack : Acknowledgment)
  | digest (digest : Digest) (source : ObjectSource)
  | header (header : BlockHeader)
  | certificate (certificate : Certificate)
  | vote (vote : Vote)
  | syncRequest (request : SyncRequest)
  | syncResponse (response : SyncResponse)
deriving DecidableEq

/-- `inner_id`, which requests and responses do not have. -/
def RequestPayload.innerId (crypto : Crypto) :
    RequestPayload → Option Digest
  | .header object => some (object.digest crypto)
  | .certificate object => some (object.digest crypto)
  | .batch object => some (digestOf crypto object)
  | .vote object => some (crypto.hash object.bytes)
  | .acknowledgment object => some (crypto.hash object.digest.bytes)
  | .digest id _ => some id
  | .syncRequest _ => none
  | .syncResponse _ => none

/-- `into_payloads`. -/
def SyncData.intoPayloads : SyncData → List RequestPayload
  | .certificates objects => objects.map .certificate
  | .headers objects => objects.map .header
  | .batches objects => objects.map .batch

inductive NetworkRequest where
  | broadcastCounterparts (payload : RequestPayload)
  | broadcastSameNode (payload : RequestPayload)
  | luckyBroadcast (payload : RequestPayload)
  | sendTo (peer : PeerId) (payload : RequestPayload)
  | sendToPrimary (payload : RequestPayload)
deriving DecidableEq

end Calf

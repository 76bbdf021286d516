import BtSniffer.Dht.NodeId
import Mathlib.Data.List.Sort

/-!
# The DHT routing table

Reference model of `src/dht/routing/mod.rs`: contacts, dynamic buckets and the operations the
dispatcher performs on a table.

* `BucketPrefix` — a bucket is identified by the first `prefixLen` bits of its identifiers.
* `RoutingTable.bucketIndex` — the position of the first bucket whose prefix contains an
  identifier; `none` is the panic of the `expect` in `bucket_index`.
* `RoutingTable.insertVerified` — the insertion loop.  The loop is structural in `fuel`; every
  iteration that continues has split the bucket of the candidate, so `161` iterations suffice
  (`insertVerified_some`).  `none` stands for a panic.

The `Vec` of a bucket and of the table are lists in the same order, and `sort_by_key` is the
stable insertion sort.
-/

set_option autoImplicit false

namespace BtSniffer

/-- `BUCKET_SIZE`. -/
def BUCKET_SIZE : Nat := 8

/-- `GOOD_FOR`: 15 minutes. -/
def GOOD_FOR : Duration := Duration.fromSecs (15 * 60)

/-- `MAX_CONSECUTIVE_FAILURES`. -/
def MAX_CONSECUTIVE_FAILURES : Nat := 2

/-- `NodeStatus`. -/
inductive NodeStatus where
  | good
  | questionable
  | bad
  deriving DecidableEq, Repr

/-- `NodeContact`; `consecutiveFailures` is the `u8` counter. -/
structure NodeContact where
  id : NodeId
  address : SocketAddr
  lastResponse : Instant
  lastQuery : Option Instant
  consecutiveFailures : Nat
  deriving DecidableEq, Repr

namespace NodeContact

/-- `NodeContact::verified`. -/
def verified (id : NodeId) (address : SocketAddr) (now : Instant) : NodeContact :=
  ⟨id, address, now, none, 0⟩

/-- `NodeContact::status`. -/
def status (c : NodeContact) (now : Instant) : NodeStatus :=
  if c.consecutiveFailures ≥ MAX_CONSECUTIVE_FAILURES then .bad
  else
    let respondedRecently := decide (now - c.lastResponse ≤ GOOD_FOR)
    let queriedRecently := c.lastQuery.any (fun seen => decide (now - seen ≤ GOOD_FOR))
    if respondedRecently || queriedRecently then .good else .questionable

/-- `NodeContact::last_activity`. -/
def lastActivity (c : NodeContact) : Instant :=
  match c.lastQuery with
  | none => c.lastResponse
  | some query => max c.lastResponse query

end NodeContact

/-- `BucketPrefix`. -/
structure BucketPrefix where
  bits : NodeId
  prefixLen : Nat
  deriving DecidableEq, Repr

namespace BucketPrefix

/-- `BucketPrefix::root`. -/
def root : BucketPrefix := ⟨0, 0⟩

/-- `BucketPrefix::contains`. -/
def contains (r : BucketPrefix) (id : NodeId) : Bool :=
  (List.range r.prefixLen).all (fun bit => bitValue r.bits bit == bitValue id bit)

/-- `BucketPrefix::split`. -/
def split (r : BucketPrefix) : BucketPrefix × BucketPrefix :=
  (⟨r.bits, r.prefixLen + 1⟩, ⟨setBit r.bits r.prefixLen true, r.prefixLen + 1⟩)

end BucketPrefix

/-- `Bucket`. -/
structure Bucket where
  range : BucketPrefix
  nodes : List NodeContact
  lastChanged : Instant
  lastRefresh : Option Instant
  deriving DecidableEq, Repr

/-- `Bucket::new`. -/
def Bucket.new (range : BucketPrefix) (now : Instant) : Bucket := ⟨range, [], now, none⟩

/-- `InsertOutcome`. -/
inductive InsertOutcome where
  | inserted
  | updated
  | replacedBad (removed : NodeContact)
  | probeRequired (incumbents : List NodeContact) (candidate : NodeContact)
  | rejectedFull
  | ignoredSelf
  | ignoredWrongAddressFamily
  deriving DecidableEq, Repr

/-- `QueryObservation`. -/
inductive QueryObservation where
  | updated
  | verificationRequired (id : NodeId) (address : SocketAddr)
  | ignoredReadOnly
  | ignoredSelf
  | ignoredWrongAddressFamily
  deriving DecidableEq, Repr

/-- `RoutingTable`. -/
structure RoutingTable where
  localId : NodeId
  addressFamily : AddressFamily
  buckets : List Bucket
  deriving DecidableEq, Repr

/-- `iter_mut().find(p)` followed by an assignment to the element found. -/
def updateFirst {α : Type} (p : α → Bool) (f : α → α) : List α → Option (List α)
  | [] => none
  | a :: l => if p a then some (f a :: l) else (updateFirst p f l).map (a :: ·)

namespace RoutingTable

/-- `RoutingTable::new`. -/
def new (localId : NodeId) (addressFamily : AddressFamily) (now : Instant) : RoutingTable :=
  ⟨localId, addressFamily, [Bucket.new BucketPrefix.root now]⟩

/-- All contacts of the table, bucket by bucket. -/
def contacts (t : RoutingTable) : List NodeContact := t.buckets.flatMap (·.nodes)

/-- `bucket_index`; `none` is the panic of its `expect`. -/
def bucketIndex (t : RoutingTable) (id : NodeId) : Option Nat :=
  t.buckets.findIdx? (fun bucket => bucket.range.contains id)

/-- The bucket at `bucket_index(id)` together with its position. -/
def bucketOf (t : RoutingTable) (id : NodeId) : Option (Nat × Bucket) := do
  let index ← t.bucketIndex id
  let bucket ← t.buckets[index]?
  some (index, bucket)

/-- Assignment to `buckets[index]`. -/
def setBucket (t : RoutingTable) (index : Nat) (bucket : Bucket) : RoutingTable :=
  { t with buckets := t.buckets.set index bucket }

/-- `RoutingTable::contact`. -/
def contact (t : RoutingTable) (id : NodeId) : Option NodeContact := do
  let (_, bucket) ← t.bucketOf id
  bucket.nodes.find? (fun c => c.id == id)

/-- `split_bucket`. -/
def splitBucket (t : RoutingTable) (index : Nat) (old : Bucket) (now : Instant) : RoutingTable :=
  let (leftRange, rightRange) := old.range.split
  let left := { Bucket.new leftRange now with
    nodes := old.nodes.filter (fun c => leftRange.contains c.id) }
  let right := { Bucket.new rightRange now with
    nodes := old.nodes.filter (fun c => !leftRange.contains c.id) }
  { t with buckets := t.buckets.take index ++ left :: right :: t.buckets.drop (index + 1) }

/-- The contacts `insert_verified` reports for probing. -/
def incumbents (nodes : List NodeContact) (now : Instant) : List NodeContact :=
  (nodes.filter (fun c => c.status now == .questionable)).insertionSort
    (fun a b => a.lastActivity ≤ b.lastActivity)

/-- The loop of `insert_verified`. -/
def insertLoop : Nat → RoutingTable → NodeContact → Instant → Option (InsertOutcome × RoutingTable)
  | 0, _, _, _ => none
  | fuel + 1, t, candidate, now =>
    match t.bucketOf candidate.id with
    | none => none
    | some (index, bucket) =>
      if bucket.nodes.length < BUCKET_SIZE then
        some (.inserted, t.setBucket index
          { bucket with nodes := bucket.nodes ++ [candidate], lastChanged := now })
      else match bucket.nodes.findIdx? (fun c => c.status now == .bad) with
        | some position =>
          match bucket.nodes[position]? with
          | none => none
          | some removed => some (.replacedBad removed, t.setBucket index
              { bucket with nodes := bucket.nodes.set position candidate, lastChanged := now })
        | none =>
          if incumbents bucket.nodes now ≠ [] then
            some (.probeRequired (incumbents bucket.nodes now) candidate, t)
          else if bucket.range.contains t.localId && decide (bucket.range.prefixLen < 160) then
            insertLoop fuel (t.splitBucket index bucket now) candidate now
          else some (.rejectedFull, t)

/-- `insert_verified`. -/
def insertVerified (t : RoutingTable) (candidate : NodeContact) (now : Instant) :
    Option (InsertOutcome × RoutingTable) :=
  insertLoop 161 t candidate now

/-- `observe_response`. -/
def observeResponse (t : RoutingTable) (id : NodeId) (address : SocketAddr) (now : Instant) :
    Option (InsertOutcome × RoutingTable) :=
  if id = t.localId then some (.ignoredSelf, t)
  else if !t.addressFamily.accepts address then some (.ignoredWrongAddressFamily, t)
  else match t.bucketOf id with
    | none => none
    | some (index, bucket) =>
      match updateFirst (fun c => c.id == id)
          (fun c => { c with address := address, lastResponse := now, consecutiveFailures := 0 })
          bucket.nodes with
      | some nodes =>
        some (.updated, t.setBucket index { bucket with nodes := nodes, lastChanged := now })
      | none => t.insertVerified (NodeContact.verified id address now) now

/-- `reconsider_candidate`. -/
def reconsiderCandidate (t : RoutingTable) (candidate : NodeContact) (now : Instant) :
    Option (InsertOutcome × RoutingTable) :=
  t.insertVerified candidate now

/-- `observe_query`. -/
def observeQuery (t : RoutingTable) (id : NodeId) (address : SocketAddr) (readOnly : Bool)
    (now : Instant) : Option (QueryObservation × RoutingTable) :=
  if readOnly then some (.ignoredReadOnly, t)
  else if id = t.localId then some (.ignoredSelf, t)
  else if !t.addressFamily.accepts address then some (.ignoredWrongAddressFamily, t)
  else match t.bucketOf id with
    | none => none
    | some (index, bucket) =>
      match updateFirst (fun c => c.id == id && c.address == address)
          (fun c => { c with lastQuery := some now }) bucket.nodes with
      | some nodes => some (.updated, t.setBucket index { bucket with nodes := nodes })
      | none => some (.verificationRequired id address, t)

/-- The `u8` `saturating_add(1)` on the failure counter. -/
def countFailure (c : NodeContact) : NodeContact :=
  { c with consecutiveFailures := min 255 (c.consecutiveFailures + 1) }

/-- `record_failure`. -/
def recordFailure (t : RoutingTable) (id : NodeId) (now : Instant) :
    Option (Option NodeStatus × RoutingTable) :=
  match t.bucketOf id with
  | none => none
  | some (index, bucket) =>
    match updateFirst (fun c => c.id == id) countFailure bucket.nodes with
    | none => some (none, t)
    | some nodes =>
      some ((bucket.nodes.find? (fun c => c.id == id)).map (fun c => (countFailure c).status now),
        t.setBucket index { bucket with nodes := nodes })

/-- `mark_refreshed`. -/
def markRefreshed (t : RoutingTable) (target : NodeId) (now : Instant) : Option RoutingTable :=
  match t.bucketOf target with
  | none => none
  | some (index, bucket) => some (t.setBucket index { bucket with lastRefresh := some now })

end RoutingTable

end BtSniffer

import BtSniffer.Collection.Metainfo
import BtSniffer.Lib.Blocks
import BtSniffer.Wire.Extension

/-!
# Metadata session

Reference model of `Pieces`, `request_pieces`, `apply_extension`, `verify_metadata` and of the messages
of the loop in `fetch_peer` (`src/collection/peer/session/mod.rs`).

* Every index, slice and sum of the source is checked; `Fault.panic` is an index out of range, a slice
  out of range or an overflow.
* A call that changes `Pieces` returns the new value also when it fails.
* `Session` is the state of the loop, `step` one turn of `request_pieces` or one message.
-/

set_option autoImplicit false

namespace BtSniffer.Peer

/-- `BLOCK_SIZE`. -/
def BLOCK_SIZE : Nat := 16384

/-- The fields of `MetadataConfig` that the transfer reads. -/
structure MetadataConfig where
  pieceTimeout : Nat
  requestWindow : Nat
  maxMetadataSize : Nat
  deriving DecidableEq, Repr

/-- The part of `MetadataConfig::validate` about these fields. -/
def MetadataConfig.validate (config : MetadataConfig) : Bool :=
  decide (0 < config.requestWindow) && decide (0 < config.maxMetadataSize) &&
    decide (config.maxMetadataSize ≤ 2 ^ 63 - 1) && decide (0 < config.pieceTimeout)

/-- The kinds of `WireErrorKind` that the session raises itself. -/
inductive SessionErrorKind where
  | pieceOrSizeMismatch
  | pieceLength
  | conflictingPiece
  | unrequestedPiece
  | metadataSizeChanged
  | infoTrailing
  | metadataBeforeNegotiation
  deriving DecidableEq, Repr

/-- The errors of `PeerError` that the transfer raises. -/
inductive PeerError where
  | protocol (kind : SessionErrorKind)
  | invalidDictionary
  | unsupported
  | metadataSizeLimit
  | rejected (piece : Nat)
  | hashMismatch
  deriving DecidableEq, Repr

/-- `Pieces`; instants are natural numbers. -/
structure Pieces where
  bytes : Bytes
  complete : List Bool
  deadlines : List (Option Nat)
  next : Nat
  received : Nat
  deriving DecidableEq, Repr

namespace Pieces

/-- `size.div_ceil(BLOCK_SIZE)`. -/
def pieceCount (size : Nat) : Nat := (size + BLOCK_SIZE - 1) / BLOCK_SIZE

/-- `Pieces::new`. -/
def new (size : Nat) : Pieces where
  bytes := List.replicate size 0
  complete := List.replicate (pieceCount size) false
  deadlines := List.replicate (pieceCount size) none
  next := 0
  received := 0

/-- `Pieces::deadline`. -/
def deadline (p : Pieces) (fallback : Nat) : Nat := ((p.deadlines.filterMap id).min?).getD fallback

/-- `pieces.deadlines.iter().flatten().count()`. -/
def outstanding (p : Pieces) : Nat := (p.deadlines.filterMap id).length

/-- A `usize`; `none` is the overflow. -/
def usize (n : Nat) : Option Nat := if n < 2 ^ 64 then some n else none

/-- `start` and `end` of `data`. -/
def pieceRange (piece totalSize : Nat) : Option (Nat × Nat) := do
  let start ← usize (piece * BLOCK_SIZE)
  let stop ← usize (start + BLOCK_SIZE)
  pure (start, min stop totalSize)

/-- `bytes[start..end]`; `none` if the range is not in the buffer. -/
def slice (bytes : Bytes) (start stop : Nat) : Option Bytes :=
  if start ≤ stop ∧ stop ≤ bytes.length then some ((bytes.drop start).take (stop - start)) else none

/-- `bytes[start..end].copy_from_slice(data)`. -/
def copyFromSlice (bytes : Bytes) (start stop : Nat) (data : Bytes) : Option Bytes :=
  if start ≤ stop ∧ stop ≤ bytes.length ∧ data.length = stop - start then
    some (bytes.take start ++ data ++ bytes.drop stop)
  else none

/-- `vector[index] = value`. -/
def setAt {α : Type} (vector : List α) (index : Nat) (value : α) : Option (List α) :=
  if index < vector.length then some (vector.set index value) else none

/-- The assignments of `data` that accept a piece. -/
def accept (p : Pieces) (piece start stop : Nat) (data : Bytes) : Option Pieces := do
  let bytes ← copyFromSlice p.bytes start stop data
  let complete ← setAt p.complete piece true
  let deadlines ← setAt p.deadlines piece none
  let received ← usize (p.received + 1)
  pure { p with bytes := bytes, complete := complete, deadlines := deadlines, received := received }

/-- A result that leaves the pieces as they are. -/
def refuse (p : Pieces) (kind : SessionErrorKind) : Pieces × Except (Fault SessionErrorKind) Unit :=
  (p, .error (.refused kind))

/-- `Pieces::data`. -/
def data (p : Pieces) (piece totalSize : Nat) (data : Bytes) :
    Pieces × Except (Fault SessionErrorKind) Unit :=
  if totalSize ≠ p.bytes.length ∨ p.complete.length ≤ piece then p.refuse .pieceOrSizeMismatch
  else
    match pieceRange piece totalSize with
    | none => (p, .error .panic)
    | some (start, stop) =>
      if stop < start then (p, .error .panic)
      else if data.length ≠ stop - start then p.refuse .pieceLength
      else
        match p.complete[piece]? with
        | none => (p, .error .panic)
        | some true =>
          match slice p.bytes start stop with
          | none => (p, .error .panic)
          | some old => if old ≠ data then p.refuse .conflictingPiece else (p, .ok ())
        | some false =>
          match p.deadlines[piece]? with
          | none => (p, .error .panic)
          | some none => p.refuse .unrequestedPiece
          | some (some _) =>
            match p.accept piece start stop data with
            | none => (p, .error .panic)
            | some q => (q, .ok ())

/-- One turn of the loop in `request_pieces` whose request is sent; `none` if the loop ends. -/
def requestTurn (p : Pieces) (config : MetadataConfig) (now : Nat) :
    Except (Fault PeerError) (Option Pieces) :=
  if p.next < p.complete.length ∧ p.outstanding < config.requestWindow then
    match setAt p.deadlines p.next (some (now + config.pieceTimeout)) with
    | none => .error .panic
    | some deadlines => .ok (some { p with deadlines := deadlines, next := p.next + 1 })
  else .ok none

end Pieces

/-! ## The session -/

/-- The state of the loop in `fetch_peer`. -/
structure Session where
  remoteId : Option Nat
  metadataSize : Option Nat
  pieces : Option Pieces
  deriving DecidableEq, Repr

/-- The state before the first message. -/
def Session.start : Session := ⟨none, none, none⟩

/-- The first part of `apply_extension`: the extension id. -/
def applyId (update : ExtensionUpdate) (s : Session) : Except PeerError Session :=
  match update.metadataId with
  | none => .ok s
  | some id => if id = 0 then .error .unsupported else .ok { s with remoteId := some id }

/-- The second part: the size. -/
def applySize (update : ExtensionUpdate) (config : MetadataConfig) (s : Session) :
    Except PeerError Session :=
  match update.metadataSize with
  | none => .ok s
  | some size =>
    if size = 0 ∨ size > config.maxMetadataSize then .error .metadataSizeLimit
    else if s.pieces.isSome ∧ s.metadataSize ≠ some size then .error (.protocol .metadataSizeChanged)
    else .ok { s with metadataSize := some size }

/-- The third part: the buffer is allocated once id and size are known. -/
def allocate (s : Session) : Session :=
  match s.pieces, s.remoteId, s.metadataSize with
  | none, some _, some size => { s with pieces := some (.new size) }
  | _, _, _ => s

/-- `apply_extension`. -/
def applyExtension (update : ExtensionUpdate) (config : MetadataConfig) (s : Session) :
    Except PeerError Session := do
  let s ← applyId update s
  let s ← applySize update config s
  pure (allocate s)

/-- `MetadataMessage`. -/
inductive MetadataMessage where
  | request (piece : Nat)
  | reject (piece : Nat)
  | data (piece totalSize : Nat) (payload : Bytes)
  | unknown
  deriving DecidableEq, Repr

/-- What the session does at a metadata message. -/
def metadataMessage (message : MetadataMessage) (s : Session) : Except (Fault PeerError) Session :=
  match s.pieces with
  | none => .error (.refused (.protocol .metadataBeforeNegotiation))
  | some p =>
    match message with
    | .unknown => .ok s
    | .request _ => .ok s
    | .reject piece =>
      if (p.deadlines[piece]?).any Option.isSome then .error (.refused (.rejected piece)) else .ok s
    | .data piece totalSize payload =>
      match p.data piece totalSize payload with
      | (q, .ok ()) => .ok { s with pieces := some q }
      | (_, .error .panic) => .error .panic
      | (_, .error .fuel) => .error .fuel
      | (_, .error (.refused kind)) => .error (.refused (.protocol kind))

/-- What happens to a session: a turn of `request_pieces`, an extension handshake, a metadata
message. -/
inductive Event where
  | request (now : Nat)
  | extension (update : ExtensionUpdate)
  | metadata (message : MetadataMessage)
  deriving DecidableEq, Repr

/-- One event. -/
def step (config : MetadataConfig) (e : Event) (s : Session) : Except (Fault PeerError) Session :=
  match e with
  | .request now =>
    match s.pieces with
    | none => .ok s
    | some p =>
      match p.requestTurn config now with
      | .error e => .error e
      | .ok none => .ok s
      | .ok (some q) => .ok { s with pieces := some q }
  | .extension update =>
    match applyExtension update config s with
    | .ok s => .ok s
    | .error e => .error (.refused e)
  | .metadata message => metadataMessage message s

/-- A session that accepts all its events. -/
def run (config : MetadataConfig) : List Event → Session → Except (Fault PeerError) Session
  | [], s => .ok s
  | e :: rest, s =>
    match step config e s with
    | .error e => .error e
    | .ok s => run config rest s

end BtSniffer.Peer

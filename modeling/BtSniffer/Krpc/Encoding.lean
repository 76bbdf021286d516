import BtSniffer.Krpc.Message

/-!
# The size of a message

* `tree_eq` — a response is written if its IPv6 addresses have a compact form.
* `toBytes_eq` — a message with a response is written if the response is, and its size is that of the
  response and of the other fields.
* `size_lt` — a response with one record fewer is shorter.
-/

set_option autoImplicit false

namespace BtSniffer

open Bencode Krpc

/-! ## Compact forms -/

/-- The peer has a compact form. -/
def CompactPeerAddress.plain : CompactPeerAddress → Bool
  | .v4 _ => true
  | .v6 address => ensurePlainIpv6Address address

/-- The compact form of a peer. -/
def CompactPeerAddress.record : CompactPeerAddress → List UInt8
  | .v4 address => address.record
  | .v6 address => address.record

theorem CompactPeerAddress.serialize_eq (p : CompactPeerAddress) :
    p.serialize = if p.plain then some p.record else none := by
  cases p with
  | v4 address => rfl
  | v6 address => rfl

theorem mapM_serialize (peers : List CompactPeerAddress) :
    peers.mapM CompactPeerAddress.serialize =
      if peers.all CompactPeerAddress.plain then some (peers.map CompactPeerAddress.record)
      else none := by
  induction peers with
  | nil => rfl
  | cons p peers ih =>
    rw [List.mapM_cons, ih, p.serialize_eq]
    cases hp : p.plain <;> cases hrest : peers.all CompactPeerAddress.plain <;> simp [hp, hrest]

namespace ResponseArgs

variable {r r' : ResponseArgs}

/-- All IPv6 addresses have a compact form. -/
def plain (r : ResponseArgs) : Bool :=
  r.nodes6.all (fun nodes => nodes.all (fun node => ensurePlainIpv6Address node.address)) &&
    r.values.all (fun peers => peers.all CompactPeerAddress.plain)

/-- The dictionary of a response whose addresses have compact forms. -/
def compact (r : ResponseArgs) : Tree :=
  .dict (r.entries (r.nodes6.map (fun nodes => nodes.flatMap CompactNodeV6.record))
    (r.values.map (fun peers => peers.map CompactPeerAddress.record)))

/-- **A response is written if all IPv6 addresses have a compact form.** -/
theorem tree_eq (r : ResponseArgs) : r.tree = if r.plain then some r.compact else none := by
  have hnodes6 : r.nodes6.mapM CompactNodesV6.serialize =
      if r.nodes6.all (fun nodes => nodes.all (fun node => ensurePlainIpv6Address node.address)) then
        some (r.nodes6.map (fun nodes => nodes.flatMap CompactNodeV6.record)) else none := by
    cases r.nodes6 with
    | none => rfl
    | some nodes =>
      simp only [Option.mapM_some, CompactNodesV6.serialize, Option.all_some, Option.map_some]
      split <;> rfl
  have hvalues : r.values.mapM (fun peers => peers.mapM CompactPeerAddress.serialize) =
      if r.values.all (fun peers => peers.all CompactPeerAddress.plain) then
        some (r.values.map (fun peers => peers.map CompactPeerAddress.record)) else none := by
    cases r.values with
    | none => rfl
    | some peers =>
      simp only [Option.mapM_some, mapM_serialize, Option.all_some, Option.map_some]
      split <;> rfl
  unfold tree plain compact
  rw [hnodes6, hvalues]
  split
  · rename_i h
    split
    · rename_i h'
      simp [h, h']
    · rename_i h'
      simp [h']
  · rename_i h
    simp [h]

/-- The size of a response. -/
def size (r : ResponseArgs) : Nat := r.compact.encode.length

end ResponseArgs

/-! ## The size of a field -/

theorem length_encodeEntries_append (es es' : List (List UInt8 × Tree)) :
    (Tree.encodeEntries (es ++ es')).length =
      (Tree.encodeEntries es).length + (Tree.encodeEntries es').length := by
  rw [Tree.encodeEntries_eq, Tree.encodeEntries_eq, Tree.encodeEntries_eq, List.flatMap_append,
    List.length_append]

theorem length_encode_dict (es : List (List UInt8 × Tree)) :
    (Tree.dict es).encode.length = (Tree.encodeEntries es).length + 2 := by
  simp [Tree.encode]

/-- The size of a field. -/
theorem length_field (key : String) (value : Option Tree) :
    (Tree.encodeEntries (field key value)).length =
      value.elim 0 (fun tree => (encodeBytes (ascii key)).length + tree.encode.length) := by
  cases value with
  | none => rfl
  | some tree => simp [field, Tree.encodeEntries]

theorem length_encodeBytes (content : List UInt8) :
    (encodeBytes content).length = Nat.log 10 content.length + 2 + content.length := by
  unfold encodeBytes
  rw [List.length_append, List.length_cons, length_decimal]
  omega

theorem length_byteString (content : List UInt8) :
    (byteString content).encode.length = Nat.log 10 content.length + 2 + content.length :=
  length_encodeBytes content

/-- A shorter byte string has a shorter encoding. -/
theorem length_byteString_lt {content content' : List UInt8}
    (h : content'.length < content.length) :
    (byteString content').encode.length < (byteString content).encode.length := by
  have hlog := @Nat.log_mono_right 10 _ _ (Nat.le_of_lt h)
  rw [length_byteString, length_byteString]
  omega

theorem length_field_lt {key : String} {tree tree' : Tree}
    (h : tree'.encode.length < tree.encode.length) :
    (Tree.encodeEntries (field key (some tree'))).length <
      (Tree.encodeEntries (field key (some tree))).length := by
  rw [length_field, length_field]
  exact Nat.add_lt_add_left h _

/-! ## The size of a message -/

namespace KrpcMessage

/-- **A message with a response**: it is written if its response is, and another response changes the
size by as much as the response. -/
theorem toBytes_eq (m : KrpcMessage) (r : ResponseArgs) :
    { m with r := some r }.toBytes =
      if r.plain then some (m.dict (some r.compact)).encode else none := by
  unfold toBytes tree
  simp only [Option.mapM_some, r.tree_eq]
  split
  · rfl
  · rfl

/-- The size of the other fields. -/
def frame (m : KrpcMessage) : Nat := (m.dict none).encode.length + 3

theorem length_dict (m : KrpcMessage) (tree : Tree) :
    (m.dict (some tree)).encode.length = m.frame + tree.encode.length := by
  have hkey : (encodeBytes (ascii "r")).length = 3 := by decide
  unfold frame dict
  simp only [length_encode_dict, length_encodeEntries_append, length_field "r", Option.elim, hkey]
  omega

end KrpcMessage

end BtSniffer

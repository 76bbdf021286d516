import BtSniffer.Krpc.Replies

/-!
# Compact forms

Reference model of the serializers of `src/dht/krpc/compact.rs`, in both directions.

* `SocketAddrV4.record_read`, `SocketAddrV6.record_read` — an address that is read is written as it
  was.
* `compact_codecs` — each compact form is a bijection between the values that have one and the byte
  strings of its lengths.
-/

set_option autoImplicit false

namespace BtSniffer

/-- `encode` and `decode` are inverse to each other, between the values for which `plain` holds and the
byte strings whose length fits. -/
structure InverseCodec {α : Type} (encode : α → Option (List UInt8))
    (decode : List UInt8 → Option α) (plain : α → Prop) (fits : Nat → Prop) : Prop where
  encode_isSome : ∀ x, (encode x).isSome = true ↔ plain x
  decode_encode : ∀ x bytes, encode x = some bytes → decode bytes = some x
  decode_isSome : ∀ bytes, (decode bytes).isSome = true ↔ fits bytes.length
  encode_decode : ∀ bytes x, decode bytes = some x → encode x = some bytes

/-- The address has no flow information and no scope id. -/
def SocketAddrV6.Plain (a : SocketAddrV6) : Prop := a.flowinfo = 0 ∧ a.scopeId = 0

/-- The peer has no such address or a plain one. -/
def CompactPeerAddress.Plain : CompactPeerAddress → Prop
  | .v4 _ => True
  | .v6 address => address.Plain

theorem ensurePlainIpv6Address_iff (a : SocketAddrV6) :
    ensurePlainIpv6Address a = true ↔ a.Plain := by
  unfold ensurePlainIpv6Address SocketAddrV6.Plain
  rw [Bool.and_eq_true, beq_iff_eq, beq_iff_eq]

theorem CompactPeerAddress.plain_iff (p : CompactPeerAddress) : p.plain = true ↔ p.Plain := by
  cases p with
  | v4 address => exact iff_of_true rfl trivial
  | v6 address => exact ensurePlainIpv6Address_iff address

/-! ## Addresses -/

theorem SocketAddrV4.record_read {bytes : List UInt8} (h : bytes.length = 6) :
    (SocketAddrV4.read bytes).record = bytes := by
  have hip : (bytes.take 4).length = 4 := by
    rw [List.length_take, h]
    rfl
  have hport : (bytes.drop 4).length = 2 := by
    rw [List.length_drop, h]
  unfold SocketAddrV4.record SocketAddrV4.read
  rw [Octets.ofWord_toWord (by decide) hip, Octets.ofWord_toWord (by decide) hport,
    List.take_append_drop]

theorem SocketAddrV6.record_read {bytes : List UInt8} (h : bytes.length = 18) :
    (SocketAddrV6.read bytes).record = bytes := by
  have hip : (bytes.take 16).length = 16 := by
    rw [List.length_take, h]
    rfl
  have hport : (bytes.drop 16).length = 2 := by
    rw [List.length_drop, h]
  unfold SocketAddrV6.record SocketAddrV6.read
  rw [Octets.ofWord_toWord (by decide) hip, Octets.ofWord_toWord (by decide) hport,
    List.take_append_drop]

/-- The id before an address. -/
theorem ofWord_take {size : Nat} (hsize : 20 ≤ size) {bytes : List UInt8} (h : bytes.length = size) :
    Octets.ofWord 20 (Octets.toWord 160 (bytes.take 20)) = bytes.take 20 := by
  refine Octets.ofWord_toWord (by decide) ?_
  rw [List.length_take, h]
  exact Nat.min_eq_left hsize

/-! ## The four forms -/

/-- `CompactNodesV4`. -/
theorem CompactNodesV4.inverse :
    InverseCodec (fun nodes => some (CompactNodesV4.serialize nodes)) CompactNodesV4.deserialize
      (fun _ => True) (fun n => 26 ∣ n) where
  encode_isSome _ := iff_of_true rfl trivial
  decode_encode := by
    intro nodes bytes h
    cases h
    exact CompactNodesV4.deserialize_serialize nodes
  decode_isSome bytes := Octets.readRecords_isSome bytes
  encode_decode := by
    intro bytes nodes h
    refine congrArg some (Octets.flatMap_readRecords ?_ h)
    intro record hlen
    have hrest : (record.drop 20).length = 6 := by
      rw [List.length_drop, hlen]
    unfold CompactNodeV4.record
    rw [ofWord_take (by decide) hlen, SocketAddrV4.record_read hrest, List.take_append_drop]

/-- What has been read has neither flow information nor a scope id. -/
theorem CompactNodesV6.plain_of_deserialize {bytes : List UInt8} {nodes : List CompactNodeV6}
    (h : CompactNodesV6.deserialize bytes = some nodes) :
    nodes.all (fun node => ensurePlainIpv6Address node.address) = true := by
  unfold CompactNodesV6.deserialize Octets.readRecords at h
  split at h
  · cases h
    rw [List.all_eq_true]
    intro node hnode
    obtain ⟨record, -, rfl⟩ := List.mem_map.1 hnode
    rfl
  · cases h

/-- `CompactNodesV6`. -/
theorem CompactNodesV6.inverse :
    InverseCodec CompactNodesV6.serialize CompactNodesV6.deserialize
      (fun nodes => ∀ node ∈ nodes, node.address.Plain) (fun n => 38 ∣ n) where
  encode_isSome := by
    intro nodes
    have hall : nodes.all (fun node => ensurePlainIpv6Address node.address) = true ↔
        ∀ node ∈ nodes, node.address.Plain := by
      rw [List.all_eq_true]
      exact forall₂_congr fun node _ => ensurePlainIpv6Address_iff node.address
    rw [← hall]
    unfold CompactNodesV6.serialize
    split <;> simp [*]
  decode_encode := by
    intro nodes bytes h
    unfold CompactNodesV6.serialize at h
    split at h
    · rename_i hplain
      cases h
      exact CompactNodesV6.deserialize_records hplain
    · cases h
  decode_isSome bytes := Octets.readRecords_isSome bytes
  encode_decode := by
    intro bytes nodes h
    unfold CompactNodesV6.serialize
    rw [if_pos (CompactNodesV6.plain_of_deserialize h)]
    refine congrArg some (Octets.flatMap_readRecords ?_ h)
    intro record hlen
    have hrest : (record.drop 20).length = 18 := by
      rw [List.length_drop, hlen]
    unfold CompactNodeV6.record
    rw [ofWord_take (by decide) hlen, SocketAddrV6.record_read hrest, List.take_append_drop]

/-- `CompactPeerAddress`. -/
theorem CompactPeerAddress.inverse :
    InverseCodec CompactPeerAddress.serialize CompactPeerAddress.deserialize
      CompactPeerAddress.Plain (fun n => n = 6 ∨ n = 18) where
  encode_isSome := by
    intro peer
    rw [← peer.plain_iff, peer.serialize_eq]
    split <;> simp [*]
  decode_encode := by
    intro peer bytes h
    rw [peer.serialize_eq] at h
    split at h
    · rename_i hplain
      have hread := CompactPeerAddress.deserialize_serialize hplain
      rw [peer.serialize_eq, if_pos hplain, h, Option.bind_some] at hread
      exact hread
    · cases h
  decode_isSome := by
    intro bytes
    unfold CompactPeerAddress.deserialize
    split
    · simp [*]
    · split <;> simp [*]
  encode_decode := by
    intro bytes peer h
    unfold CompactPeerAddress.deserialize at h
    split at h
    · rename_i hlen
      cases h
      exact congrArg some (SocketAddrV4.record_read hlen)
    · split at h
      · rename_i hlen
        cases h
        have hplain : ensurePlainIpv6Address (SocketAddrV6.read bytes) = true := rfl
        rw [CompactPeerAddress.serialize_eq, CompactPeerAddress.plain, if_pos hplain,
          CompactPeerAddress.record, SocketAddrV6.record_read hlen]
      · cases h

/-- `InfoHashSamples`. -/
theorem InfoHashSamples.inverse :
    InverseCodec (fun samples => some (InfoHashSamples.serialize samples))
      InfoHashSamples.deserialize (fun _ => True) (fun n => 20 ∣ n) where
  encode_isSome _ := iff_of_true rfl trivial
  decode_encode := by
    intro samples bytes h
    cases h
    exact InfoHashSamples.deserialize_serialize samples
  decode_isSome bytes := Octets.readRecords_isSome bytes
  encode_decode := by
    intro bytes samples h
    refine congrArg some (Octets.flatMap_readRecords ?_ h)
    intro record hlen
    exact Octets.ofWord_toWord (by decide) hlen

/-- **The compact forms are inverse to their readers**, in both directions: an address with flow
information or a scope id has none, and the lengths are those of whole records. -/
theorem compact_codecs :
    InverseCodec (fun nodes => some (CompactNodesV4.serialize nodes)) CompactNodesV4.deserialize
      (fun _ => True) (fun n => 26 ∣ n) ∧
    InverseCodec CompactNodesV6.serialize CompactNodesV6.deserialize
      (fun nodes => ∀ node ∈ nodes, node.address.Plain) (fun n => 38 ∣ n) ∧
    InverseCodec CompactPeerAddress.serialize CompactPeerAddress.deserialize
      CompactPeerAddress.Plain (fun n => n = 6 ∨ n = 18) ∧
    InverseCodec (fun samples => some (InfoHashSamples.serialize samples))
      InfoHashSamples.deserialize (fun _ => True) (fun n => 20 ∣ n) :=
  ⟨CompactNodesV4.inverse, CompactNodesV6.inverse, CompactPeerAddress.inverse,
    InfoHashSamples.inverse⟩

end BtSniffer

import BtSniffer.Krpc.Responder
import BtSniffer.Krpc.Trimming

/-!
# Replies on the wire

* `received_eq` — a response is read from its compact forms as it was written.
* `sendResponse_spec` — what is sent is a cut of the response, within the limit.
-/

set_option autoImplicit false

namespace BtSniffer

open Bencode Krpc Relational ResponseArgs

/-! ## Compact forms are read back -/

theorem SocketAddrV4.read_record (a : SocketAddrV4) : SocketAddrV4.read a.record = a := by
  unfold SocketAddrV4.read SocketAddrV4.record
  have htake : (Octets.ofWord 4 a.ip ++ Octets.ofWord 2 a.port).take 4 = Octets.ofWord 4 a.ip :=
    List.take_left' (Octets.length_ofWord 4 a.ip)
  have hdrop : (Octets.ofWord 4 a.ip ++ Octets.ofWord 2 a.port).drop 4 = Octets.ofWord 2 a.port :=
    List.drop_left' (Octets.length_ofWord 4 a.ip)
  rw [htake, hdrop, Octets.toWord_ofWord (by decide), Octets.toWord_ofWord (by decide)]

theorem SocketAddrV6.read_record {a : SocketAddrV6} (h : ensurePlainIpv6Address a = true) :
    SocketAddrV6.read a.record = a := by
  simp only [ensurePlainIpv6Address, Bool.and_eq_true, beq_iff_eq] at h
  obtain ⟨hflow, hscope⟩ := h
  unfold SocketAddrV6.read SocketAddrV6.record
  have htake : (Octets.ofWord 16 a.ip ++ Octets.ofWord 2 a.port).take 16 = Octets.ofWord 16 a.ip :=
    List.take_left' (Octets.length_ofWord 16 a.ip)
  have hdrop : (Octets.ofWord 16 a.ip ++ Octets.ofWord 2 a.port).drop 16 = Octets.ofWord 2 a.port :=
    List.drop_left' (Octets.length_ofWord 16 a.ip)
  rw [htake, hdrop, Octets.toWord_ofWord (by decide), Octets.toWord_ofWord (by decide)]
  cases a
  simp only [SocketAddrV6.mk.injEq, true_and]
  exact ⟨hflow.symm, hscope.symm⟩

theorem CompactNodesV4.deserialize_serialize (nodes : List CompactNodeV4) :
    CompactNodesV4.deserialize (CompactNodesV4.serialize nodes) = some nodes := by
  refine Octets.readRecords_flatMap (by decide) ?_ nodes ?_
  · intro node
    simp [CompactNodeV4.record, SocketAddrV4.record]
  · intro node _
    have htake : node.record.take 20 = Octets.ofWord 20 node.id :=
      List.take_left' (Octets.length_ofWord 20 node.id)
    have hdrop : node.record.drop 20 = node.address.record :=
      List.drop_left' (Octets.length_ofWord 20 node.id)
    rw [htake, hdrop, Octets.toWord_ofWord (by decide), SocketAddrV4.read_record]

theorem CompactNodesV6.deserialize_records {nodes : List CompactNodeV6}
    (h : nodes.all (fun node => ensurePlainIpv6Address node.address) = true) :
    CompactNodesV6.deserialize (nodes.flatMap CompactNodeV6.record) = some nodes := by
  rw [List.all_eq_true] at h
  refine Octets.readRecords_flatMap (by decide) ?_ nodes ?_
  · intro node
    simp [CompactNodeV6.record, SocketAddrV6.record]
  · intro node hnode
    have htake : node.record.take 20 = Octets.ofWord 20 node.id :=
      List.take_left' (Octets.length_ofWord 20 node.id)
    have hdrop : node.record.drop 20 = node.address.record :=
      List.drop_left' (Octets.length_ofWord 20 node.id)
    rw [htake, hdrop, Octets.toWord_ofWord (by decide), SocketAddrV6.read_record (h node hnode)]

theorem InfoHashSamples.deserialize_serialize (samples : List SwarmKey) :
    InfoHashSamples.deserialize (InfoHashSamples.serialize samples) = some samples :=
  Octets.readRecords_flatMap (by decide) (fun x => Octets.length_ofWord 20 x) samples
    (fun _ _ => Octets.toWord_ofWord (by decide) _)

theorem CompactPeerAddress.deserialize_serialize {p : CompactPeerAddress} (h : p.plain = true) :
    p.serialize.bind CompactPeerAddress.deserialize = some p := by
  rw [p.serialize_eq, if_pos h, Option.bind_some]
  cases p with
  | v4 address =>
    have hlen : address.record.length = 6 := by simp [SocketAddrV4.record]
    simp only [CompactPeerAddress.record, CompactPeerAddress.deserialize, hlen, if_true,
      SocketAddrV4.read_record]
  | v6 address =>
    have hlen : address.record.length = 18 := by simp [SocketAddrV6.record]
    have hread : SocketAddrV6.read address.record = address := SocketAddrV6.read_record h
    simp [CompactPeerAddress.record, CompactPeerAddress.deserialize, hlen, hread]

/-- **A response is read as it was written.** -/
theorem ResponseArgs.received_eq {r : ResponseArgs} (h : r.plain = true) : r.received = some r := by
  unfold ResponseArgs.plain at h
  rw [Bool.and_eq_true] at h
  obtain ⟨hnodes6, hvalues⟩ := h
  have h1 : r.nodes.mapM (fun nodes =>
      CompactNodesV4.deserialize (CompactNodesV4.serialize nodes)) = some r.nodes := by
    cases r.nodes <;> simp [CompactNodesV4.deserialize_serialize]
  have h2 : r.nodes6.mapM (fun nodes =>
      (CompactNodesV6.serialize nodes).bind CompactNodesV6.deserialize) = some r.nodes6 := by
    cases hn : r.nodes6 with
    | none => rfl
    | some nodes =>
      rw [hn, Option.all_some] at hnodes6
      have hread : (CompactNodesV6.serialize nodes).bind CompactNodesV6.deserialize = some nodes := by
        rw [CompactNodesV6.serialize, if_pos hnodes6, Option.bind_some,
          CompactNodesV6.deserialize_records hnodes6]
      simp [hread]
  have h3 : r.values.mapM (fun peers => peers.mapM (fun p =>
      p.serialize.bind CompactPeerAddress.deserialize)) = some r.values := by
    cases hv : r.values with
    | none => rfl
    | some peers =>
      rw [hv, Option.all_some, List.all_eq_true] at hvalues
      have hpeers : peers.mapM (fun p => p.serialize.bind CompactPeerAddress.deserialize) =
          some peers := by
        clear hv
        induction peers with
        | nil => rfl
        | cons p peers ih =>
          rw [List.mapM_cons, CompactPeerAddress.deserialize_serialize (hvalues p (by simp)),
            ih (fun q hq => hvalues q (List.mem_cons_of_mem _ hq))]
          rfl
      simp [hpeers]
  have h4 : r.samples.mapM (fun samples =>
      InfoHashSamples.deserialize (InfoHashSamples.serialize samples)) = some r.samples := by
    cases r.samples <;> simp [InfoHashSamples.deserialize_serialize]
  unfold ResponseArgs.received
  rw [h1, h2, h3, h4, Octets.toWord_ofWord (by decide)]
  rfl

/-! ## What is sent -/

/-- **What is sent is a cut of the response**, within the limit. -/
theorem sendResponse_spec {maxMessageSize : Nat} {destination : SocketAddr} {t : List UInt8}
    {response : ResponseArgs} {m : KrpcMessage}
    (h : sendResponse maxMessageSize destination t response = some m) : ∃ r bytes,
      m = responseMessage destination t r ∧ Trimmed response r ∧ r.plain = true ∧
      m.toBytes = some bytes ∧ bytes.length ≤ min maxMessageSize 1024 := by
  have hself : responseMessage destination t response =
      { responseMessage destination t response with r := some response } := rfl
  unfold sendResponse fitResponse at h
  cases hp : response.plain with
  | false =>
    rw [hself] at h
    simp only [fitLoop, KrpcMessage.toBytes_eq, hp] at h
    simp at h
  | true =>
    obtain ⟨verdict, r, heq, hpass, hplain, htrue, -⟩ :=
      fitLoop_spec (responseMessage destination t response) (min maxMessageSize 1024)
        (response.removals + 1) response (Nat.lt_succ_self _) hp
    have helim : (responseMessage destination t response).r.elim 0 removals = response.removals := rfl
    rw [helim, hself, heq] at h
    cases verdict with
    | false => cases h
    | true =>
      cases h
      obtain ⟨bytes, hbytes, hle⟩ := htrue rfl
      exact ⟨r, bytes, rfl, hpass.trimmed (.refl response), hplain, hbytes, hle⟩

end BtSniffer

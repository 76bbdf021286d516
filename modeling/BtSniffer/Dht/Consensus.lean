import BtSniffer.Dht.Security

/-!
# Runs of the address consensus

* `Sound` — one vote for each network, no more than 64, from and for public addresses of one family.
* `observe_some` — what is known when `observe` returns an address.
* `Resists` — with `h` live votes for the external address outside of a set of fewer than `2 * h`
  networks, messages from these networks change nothing; `resists_observe` is the step.
* `address_consensus` — the guarantees in every state of a run; `switch_after_restore` shows that
  `restore_cooldown` replaces the pause after `committed`.
-/

set_option autoImplicit false

namespace BtSniffer

namespace AddressConsensus

variable {c : AddressConsensus} {votes : List Vote} {source ip : IpAddr} {now : Nat} {v : Vote}

/-! ## Votes -/

/-- A vote comes from a public source of its network, and names a public address of its family. -/
def Vote.Public (v : Vote) : Prop :=
  isPublic v.ip = true ∧ ∃ source, source.network = v.network ∧ isPublic source = true ∧
    source.isV4 = v.ip.isV4

/-- The votes of a table. -/
structure Sound (votes : List Vote) : Prop where
  bounded : votes.length ≤ 64
  single : (votes.map Vote.network).Nodup
  valid : ∀ v ∈ votes, Vote.Public v

theorem sound_nil : Sound [] := ⟨Nat.zero_le _, List.nodup_nil, by simp⟩

theorem Sound.filter (h : Sound votes) (p : Vote → Bool) : Sound (votes.filter p) where
  bounded := (List.length_filter_le _ _).trans h.bounded
  single := (List.filter_sublist.map _).nodup h.single
  valid := fun v hv => h.valid v (List.mem_filter.1 hv).1

/-- **What a message does to the votes**: those that are not live go; the vote of the network is
replaced, or added while there is room. -/
theorem record_cases (votes : List Vote) (source ip : IpAddr) (now : Nat) :
    (∃ pre old post, votes.filter (Vote.live now) = pre ++ old :: post ∧
      old.network = source.network ∧
      record votes source ip now = pre ++ ⟨source.network, ip, now⟩ :: post) ∨
    ((∀ v ∈ votes.filter (Vote.live now), v.network ≠ source.network) ∧
      ((votes.filter (Vote.live now)).length < 64 ∧
          record votes source ip now = votes.filter (Vote.live now) ++ [⟨source.network, ip, now⟩] ∨
        record votes source ip now = votes.filter (Vote.live now))) := by
  unfold record
  simp only
  split
  · rename_i votes' hu
    obtain ⟨pre, old, post, hold, rfl, hnet⟩ := updateFirst_some hu
    have hnet' : old.network = source.network := by simpa using hnet
    refine .inl ⟨pre, old, post, hold, hnet', ?_⟩
    rw [hnet']
  · rename_i hu
    refine .inr ⟨fun v hv => by simpa using updateFirst_none hu v hv, ?_⟩
    split
    · rename_i hroom
      exact .inl ⟨hroom, rfl⟩
    · exact .inr rfl

/-- A vote after a message is the new one or a live one of another network. -/
theorem mem_record (h : (votes.map Vote.network).Nodup) (hv : v ∈ record votes source ip now) :
    v = ⟨source.network, ip, now⟩ ∨ (v ∈ votes.filter (Vote.live now) ∧
      v.network ≠ source.network) := by
  rcases record_cases votes source ip now with ⟨pre, old, post, hold, hnet, hrec⟩ |
    ⟨hother, ⟨-, hrec⟩ | hrec⟩
  · have hnodup : ((votes.filter (Vote.live now)).map Vote.network).Nodup :=
      (List.filter_sublist.map _).nodup h
    rw [hold, List.map_append, List.map_cons] at hnodup
    have hfresh := (List.nodup_middle.1 hnodup)
    rw [List.nodup_cons] at hfresh
    rw [hrec] at hv
    rw [hold]
    have hne : v ∈ pre ∨ v ∈ post → v.network ≠ source.network := by
      intro hv' heq
      refine hfresh.1 ?_
      rw [hnet, ← heq]
      rcases hv' with hv' | hv'
      · exact List.mem_append_left _ (List.mem_map_of_mem hv')
      · exact List.mem_append_right _ (List.mem_map_of_mem hv')
    rcases List.mem_append.1 hv with hv | hv
    · exact .inr ⟨List.mem_append_left _ hv, hne (.inl hv)⟩
    · rcases List.mem_cons.1 hv with rfl | hv
      · exact .inl rfl
      · exact .inr ⟨List.mem_append_right _ (List.mem_cons_of_mem _ hv), hne (.inr hv)⟩
  · rw [hrec] at hv
    rcases List.mem_append.1 hv with hv | hv
    · exact .inr ⟨hv, hother v hv⟩
    · exact .inl (List.mem_singleton.1 hv)
  · rw [hrec] at hv
    exact .inr ⟨hv, hother v hv⟩

theorem live_of_mem_record (h : (votes.map Vote.network).Nodup)
    (hv : v ∈ record votes source ip now) : Vote.live now v = true := by
  rcases mem_record h hv with rfl | ⟨hv, -⟩
  · simp [Vote.live, VOTE_FOR]
  · exact (List.mem_filter.1 hv).2

/-- **A message keeps the votes sound.** -/
theorem Sound.record (h : Sound votes) (hsource : isPublic source = true)
    (hip : isPublic ip = true) (hfamily : source.isV4 = ip.isV4) :
    Sound (record votes source ip now) := by
  have hlive := h.filter (Vote.live now)
  refine ⟨?_, ?_, ?_⟩
  · rcases record_cases votes source ip now with ⟨pre, old, post, hold, -, hrec⟩ |
      ⟨-, ⟨hroom, hrec⟩ | hrec⟩
    · have hlen := hlive.bounded
      rw [hold] at hlen
      rw [hrec]
      simpa using hlen
    · rw [hrec, List.length_append, List.length_singleton]
      omega
    · rw [hrec]
      exact hlive.bounded
  · rcases record_cases votes source ip now with ⟨pre, old, post, hold, hnet, hrec⟩ |
      ⟨hother, ⟨-, hrec⟩ | hrec⟩
    · have hnodup := hlive.single
      rw [hold] at hnodup
      rw [hrec]
      simpa [hnet] using hnodup
    · rw [hrec, List.map_append, List.nodup_append]
      refine ⟨hlive.single, by simp, ?_⟩
      rintro net hnet net' hnet' rfl
      obtain ⟨v, hv, rfl⟩ := List.mem_map.1 hnet
      exact hother v hv (by simpa using hnet')
    · rw [hrec]
      exact hlive.single
  · intro v hv
    rcases mem_record h.single hv with rfl | ⟨hv, -⟩
    · exact ⟨hip, source, rfl, hsource, hfamily⟩
    · exact hlive.valid v hv

theorem ignores_eq_false (h : c.ignores source ip = false) :
    c.fixed = false ∧ source.isV4 = ip.isV4 ∧ isPublic source = true ∧ isPublic ip = true := by
  simp only [ignores, Bool.or_eq_false_iff, bne_eq_false_iff_eq, Bool.not_eq_false'] at h
  exact ⟨h.1.1.1, h.1.1.2, h.1.2, h.2⟩

/-- What `observe` leaves: the same pause and address, and the votes after the message. -/
theorem observe_state (c : AddressConsensus) (source ip : IpAddr) (now : Nat) :
    ((c.observe source ip now).2 = c ∧ c.ignores source ip = true) ∨
    (c.ignores source ip = false ∧
      (c.observe source ip now).2.votes = record c.votes source ip now ∧
      (c.observe source ip now).2.external = c.external ∧
      (c.observe source ip now).2.fixed = c.fixed ∧
      (c.observe source ip now).2.switchAfter = c.switchAfter) := by
  unfold observe
  split
  · rename_i hignore
    exact .inl ⟨rfl, hignore⟩
  · rename_i hignore
    refine .inr ⟨by simpa using hignore, ?_⟩
    simp only
    split
    · exact ⟨rfl, rfl, rfl, rfl⟩
    split
    · exact ⟨rfl, rfl, rfl, rfl⟩
    split
    · exact ⟨rfl, rfl, rfl, rfl⟩
    · exact ⟨rfl, rfl, rfl, rfl⟩

/-- **When `observe` returns an address.** -/
theorem observe_some {found : IpAddr} (h : (c.observe source ip now).1 = some found) :
    found = ip ∧ c.ignores source ip = false ∧ 3 ≤ support (record c.votes source ip now) ip ∧
      (record c.votes source ip now).length * 2 ≤ support (record c.votes source ip now) ip * 3 ∧
      c.external ≠ some ip ∧ ∀ at_, c.switchAfter = some at_ → at_ ≤ now := by
  unfold observe at h
  split at h
  · cases h
  · rename_i hignore
    simp only at h
    split at h
    · cases h
    · rename_i hcount
      split at h
      · cases h
      · rename_i hexternal
        split at h
        · cases h
        · rename_i hpause
          cases h
          simp only [not_or, not_lt] at hcount
          refine ⟨rfl, by simpa using hignore, hcount.1, hcount.2, hexternal, ?_⟩
          intro at_ hat
          rw [hat] at hpause
          simpa using hpause

/-! ## Resistance -/

/-- The live votes that do not come from the networks `K`. -/
def outside (K : List (List Nat)) (now : Nat) (votes : List Vote) : List Vote :=
  (votes.filter (Vote.live now)).filter (fun v => decide (v.network ∉ K))

/-- At the time `now` at least `h` networks have live votes for the external address, and all other
live votes come from fewer than `2 * h` networks `K`. -/
structure Resists (c : AddressConsensus) (K : List (List Nat)) (h now : Nat) (e : IpAddr) :
    Prop where
  sound : Sound c.votes
  external : c.external = some e
  few : K.length < 2 * h
  honest : h ≤ (outside K now c.votes).length
  agree : ∀ v ∈ outside K now c.votes, v.ip = e

variable {K : List (List Nat)} {h : Nat} {e : IpAddr}

theorem filter_live_record (hn : (votes.map Vote.network).Nodup) :
    (record votes source ip now).filter (Vote.live now) = record votes source ip now :=
  List.filter_eq_self.2 (fun _ hv => live_of_mem_record hn hv)

/-- A message from the networks `K` leaves the votes from outside alone. -/
theorem outside_record (hn : (votes.map Vote.network).Nodup) (hK : source.network ∈ K) :
    outside K now (record votes source ip now) = outside K now votes := by
  unfold outside
  rw [filter_live_record hn]
  rcases record_cases votes source ip now with ⟨pre, old, post, hold, hnet, hrec⟩ |
    ⟨-, ⟨-, hrec⟩ | hrec⟩
  · rw [hrec, hold]
    simp [List.filter_append, hnet, hK]
  · rw [hrec]
    simp [List.filter_append, hK]
  · rw [hrec]

/-- Votes from the networks `K` are no more than these. -/
theorem inside_le (hn : (votes.map Vote.network).Nodup) :
    (votes.filter (fun v => decide (v.network ∈ K))).length ≤ K.length := by
  have hsub : (votes.filter (fun v => decide (v.network ∈ K))).map Vote.network ⊆ K := by
    intro net hnet
    obtain ⟨v, hv, rfl⟩ := List.mem_map.1 hnet
    simpa using (List.mem_filter.1 hv).2
  have hnodup := (List.filter_sublist (p := fun v => decide (v.network ∈ K)) (l := votes)).map
    Vote.network |>.nodup hn
  simpa using (hnodup.subperm hsub).length_le

/-- An address other than the external one is named from the networks `K` only. -/
theorem support_le_inside (hr : Resists c K h now e) (hne : c.external ≠ some ip)
    (hout : outside K now (record c.votes source ip now) = outside K now c.votes) :
    support (record c.votes source ip now) ip ≤
      ((record c.votes source ip now).filter (fun v => decide (v.network ∈ K))).length := by
  unfold support
  rw [← List.countP_eq_length_filter]
  refine List.countP_mono_left ?_
  intro v hv hip
  rw [decide_eq_true_eq] at hip ⊢
  by_contra hK
  have hmem : v ∈ outside K now c.votes := by
    rw [← hout]
    exact List.mem_filter.2 ⟨List.mem_filter.2 ⟨hv, live_of_mem_record hr.sound.single hv⟩,
      decide_eq_true hK⟩
  rw [hr.external, ← hip, hr.agree v hmem] at hne
  exact hne rfl

/-- **One message from the networks `K`** returns nothing and keeps the resistance. -/
theorem resists_observe (hr : Resists c K h now e) (hK : source.network ∈ K) :
    (c.observe source ip now).1 = none ∧ Resists (c.observe source ip now).2 K h now e := by
  have hout := @outside_record c.votes source ip now K hr.sound.single hK
  constructor
  · cases hres : (c.observe source ip now).1 with
    | none => rfl
    | some found =>
      exfalso
      obtain ⟨rfl, -, -, hmost, hexternal, -⟩ := observe_some hres
      have hnodup : ((record c.votes source found now).map Vote.network).Nodup := by
        rcases observe_state c source found now with ⟨-, hignore⟩ | ⟨hignore, -⟩
        · rw [observe, if_pos hignore] at hres
          cases hres
        · obtain ⟨-, hfamily, hsource, hip⟩ := ignores_eq_false hignore
          exact (hr.sound.record hsource hip hfamily).single
      have hinside := @inside_le _ K hnodup
      have hsupport := support_le_inside hr hexternal hout
      have hhonest := hr.honest
      rw [← hout, outside, filter_live_record hr.sound.single] at hhonest
      have hsplit := List.length_eq_length_filter_add (l := record c.votes source found now)
        (fun v => decide (v.network ∈ K))
      have hfew := hr.few
      simp only [decide_not] at hhonest
      omega
  · rcases observe_state c source ip now with ⟨hsame, -⟩ |
      ⟨hignore, hvotes, hexternal, -, -⟩
    · rw [hsame]
      exact hr
    · obtain ⟨-, hfamily, hsource, hip⟩ := ignores_eq_false hignore
      refine ⟨?_, ?_, hr.few, ?_, ?_⟩
      · rw [hvotes]
        exact hr.sound.record hsource hip hfamily
      · rw [hexternal]
        exact hr.external
      · rw [hvotes, hout]
        exact hr.honest
      · rw [hvotes, hout]
        exact hr.agree

/-- The answers to messages that arrive at one time. -/
def observeAll (now : Nat) : List (IpAddr × IpAddr) → AddressConsensus → List (Option IpAddr)
  | [], _ => []
  | (source, ip) :: rest, c =>
    (c.observe source ip now).1 :: observeAll now rest (c.observe source ip now).2

/-- **No messages from the networks `K` make `observe` return an address.** -/
theorem resists_observeAll : ∀ (messages : List (IpAddr × IpAddr)) {c : AddressConsensus},
    Resists c K h now e → (∀ m ∈ messages, m.1.network ∈ K) →
      ∀ answer ∈ observeAll now messages c, answer = none
  | [], _, _, _, answer, hanswer => by cases hanswer
  | (source, ip) :: rest, c, hr, hK, answer, hanswer => by
    obtain ⟨hnone, hrest⟩ := @resists_observe c source ip now K h e hr
      (hK _ (List.mem_cons_self ..))
    rcases List.mem_cons.1 hanswer with rfl | hanswer
    · exact hnone
    · exact resists_observeAll rest hrest (fun m hm => hK m (List.mem_cons_of_mem _ hm)) answer
        hanswer

/-! ## Runs -/

/-- What set the pause between two switches last. -/
inductive Pause where
  | none
  | committed (at_ : Nat)
  | restored (at_ remaining : Nat)
  deriving DecidableEq, Repr

/-- The state of a run. -/
structure ConsensusRun where
  consensus : AddressConsensus
  now : Nat
  pause : Pause
  deriving DecidableEq, Repr

/-- A call. -/
inductive Call where
  | observe (source ip : IpAddr)
  | committed (ip : IpAddr)
  | restoreCooldown (remaining : Nat)
  deriving DecidableEq, Repr

/-- A call at the time `t`. -/
def ConsensusRun.step (st : ConsensusRun) (t : Nat) : Call → ConsensusRun
  | .observe source ip => { st with consensus := (st.consensus.observe source ip t).2, now := t }
  | .committed ip => ⟨st.consensus.committed ip t, t, .committed t⟩
  | .restoreCooldown remaining =>
    ⟨st.consensus.restoreCooldown remaining t, t, .restored t remaining⟩

/-- The states reached by calls at times that do not decrease. -/
inductive Reached (fixed cached : Option IpAddr) : ConsensusRun → Prop
  | new (start : Nat) : Reached fixed cached ⟨.new fixed cached, start, .none⟩
  | step {st : ConsensusRun} {t : Nat} (h : Reached fixed cached st) (later : st.now ≤ t)
      (call : Call) : Reached fixed cached (st.step t call)

/-- The end of the pause. -/
def Pause.end_ : Pause → Option Nat
  | .none => Option.none
  | .committed at_ => some (at_ + SWITCH_PAUSE)
  | .restored at_ remaining => checkedAdd at_ remaining

theorem Reached.inv {fixed cached : Option IpAddr} {st : ConsensusRun}
    (hr : Reached fixed cached st) :
    Sound st.consensus.votes ∧ st.consensus.switchAfter = st.pause.end_ := by
  induction hr with
  | new start => exact ⟨sound_nil, rfl⟩
  | @step st t _ _ call ih =>
    cases call with
    | observe source ip =>
      have hcases := observe_state st.consensus source ip t
      rcases hcases with ⟨hsame, -⟩ | ⟨hignore, hvotes, -, -, hswitch⟩
      · simp only [ConsensusRun.step, hsame]
        exact ih
      · obtain ⟨-, hfamily, hsource, hip⟩ := ignores_eq_false hignore
        simp only [ConsensusRun.step, hvotes, hswitch]
        exact ⟨ih.1.record hsource hip hfamily, ih.2⟩
    | committed ip => exact ⟨ih.1, rfl⟩
    | restoreCooldown remaining => exact ⟨ih.1, rfl⟩

/-- **The consensus in every state of a run**: the votes are sound; a message that is not ignored
leaves live votes only; an address is returned only with at least three votes and two thirds of the
live ones, for an address other than the external one, by an instance that is not fixed and after the
pause; and messages from fewer than `2 * h` networks return nothing against `h` votes. -/
theorem address_consensus {fixed cached : Option IpAddr} {st : ConsensusRun}
    (hr : Reached fixed cached st) :
    Sound st.consensus.votes ∧
    (∀ source ip t, st.consensus.ignores source ip = false →
      ∀ v ∈ (st.consensus.observe source ip t).2.votes, t - v.at_ < VOTE_FOR) ∧
    (∀ source ip t found, (st.consensus.observe source ip t).1 = some found →
      3 ≤ support (st.consensus.observe source ip t).2.votes found ∧
      (st.consensus.observe source ip t).2.votes.length * 2 ≤
        support (st.consensus.observe source ip t).2.votes found * 3 ∧
      st.consensus.external ≠ some found ∧ st.consensus.fixed = false ∧
      (∀ at_, st.pause = .committed at_ → at_ + SWITCH_PAUSE ≤ t) ∧
      ∀ at_ remaining until_, st.pause = .restored at_ remaining →
        checkedAdd at_ remaining = some until_ → until_ ≤ t) ∧
    ∀ t K h k e, st.consensus.external = some e → k < 2 * h → K.length ≤ k →
      h ≤ (outside K t st.consensus.votes).length →
      (∀ v ∈ outside K t st.consensus.votes, v.ip = e) →
      ∀ messages, (∀ m ∈ messages, m.1.network ∈ K) →
        ∀ answer ∈ observeAll t messages st.consensus, answer = none := by
  obtain ⟨hsound, hswitch⟩ := hr.inv
  refine ⟨hsound, ?_, ?_, ?_⟩
  · intro source ip t hignore v hv
    rcases observe_state st.consensus source ip t with ⟨-, hignore'⟩ | ⟨-, hvotes, -⟩
    · rw [hignore] at hignore'
      cases hignore'
    · rw [hvotes] at hv
      exact of_decide_eq_true (live_of_mem_record hsound.single hv)
  · intro source ip t found hfound
    obtain ⟨rfl, hignore, hthree, hmost, hexternal, hpause⟩ := observe_some hfound
    rcases observe_state st.consensus source found t with ⟨-, hignore'⟩ | ⟨-, hvotes, -⟩
    · rw [hignore] at hignore'
      cases hignore'
    · rw [hvotes]
      rw [hswitch] at hpause
      refine ⟨hthree, hmost, hexternal, (ignores_eq_false hignore).1, ?_, ?_⟩
      · intro at_ hat
        rw [hat] at hpause
        exact hpause _ rfl
      · intro at_ remaining until_ hat hadd
        rw [hat] at hpause
        exact hpause until_ hadd
  · intro t K h k e hexternal hk hK hhonest hagree messages hmessages
    exact resists_observeAll messages ⟨hsound, hexternal, by omega, hhonest, hagree⟩ hmessages

/-- Three sources in different networks. -/
def voter (n : Nat) : IpAddr := .v4 (BitVec.ofNat 32 (0x01010101 * n))

/-- 8.8.8.8 and 9.9.9.9. -/
def firstIp : IpAddr := .v4 0x08080808

@[inherit_doc firstIp]
def secondIp : IpAddr := .v4 0x09090909

/-- The state after some calls at one time. -/
def after (t : Nat) (calls : List Call) (st : ConsensusRun) : ConsensusRun :=
  calls.foldl (fun st call => st.step t call) st

theorem reached_after {fixed cached : Option IpAddr} {t : Nat} : ∀ (calls : List Call)
    {st : ConsensusRun}, Reached fixed cached st → st.now ≤ t →
      Reached fixed cached (after t calls st)
  | [], _, hr, _ => hr
  | call :: rest, st, hr, hle => by
    refine reached_after rest (hr.step hle call) ?_
    cases call <;> exact le_rfl

/-- Three networks confirm the address that was known. -/
def agreed : ConsensusRun :=
  after 0 [.observe (voter 1) firstIp, .observe (voter 2) firstIp, .observe (voter 3) firstIp]
    ⟨.new none (some firstIp), 0, .none⟩

/-- Five other networks. -/
def others : List (List Nat) := (List.range 5).map (fun n => (voter (n + 4)).network)

/-- Five networks do not outvote three. -/
theorem address_consensus_five : Reached none (some firstIp) agreed ∧
    agreed.consensus.votes.length = 3 ∧
    ∀ messages, (∀ m ∈ messages, m.1.network ∈ others) →
      ∀ answer ∈ observeAll 0 messages agreed.consensus, answer = none := by
  have hr : Reached none (some firstIp) agreed := reached_after _ (.new 0) le_rfl
  refine ⟨hr, by decide +kernel, ?_⟩
  obtain ⟨-, -, -, hresists⟩ := address_consensus hr
  exact hresists 0 others 3 5 firstIp (by decide +kernel) (by decide) (by decide +kernel)
    (by decide +kernel) (by decide +kernel)

/-- **`restore_cooldown` replaces the pause**: one second after a switch an address is returned
again. -/
theorem switch_after_restore :
    Reached none none (after 1000000000 [.restoreCooldown 0, .observe (voter 1) secondIp,
      .observe (voter 2) secondIp] (after 0 [.committed firstIp] ⟨.new none none, 0, .none⟩)) ∧
    ((after 1000000000 [.restoreCooldown 0, .observe (voter 1) secondIp,
      .observe (voter 2) secondIp] (after 0 [.committed firstIp]
        ⟨.new none none, 0, .none⟩)).consensus.observe (voter 3) secondIp 1000000000).1 =
      some secondIp ∧ 1000000000 < SWITCH_PAUSE := by
  refine ⟨?_, by decide +kernel, by decide⟩
  exact reached_after _ (reached_after _ (.new 0) le_rfl) (by decide)

end AddressConsensus

end BtSniffer

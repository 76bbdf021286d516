import BtSniffer.Address
import Mathlib.Data.List.Pairwise
import Mathlib.Tactic.Ring

/-!
# Announce tokens

Reference model of `src/dht/token/mod.rs`, and the lifetime of a token.

* Instants and durations are in nanoseconds.
* `hmac` is HMAC-SHA256; what the model keeps of `mac` is the message it authenticates.
* Every call reads the key source at most once: `rotate` takes the value that read would return.
* `TokenRun` — a manager with a key source, as a stream of draws.  `TokenRun.History` lists the draws
  that became keys with the window they were drawn in; `current` is the key of the window of the last
  call that succeeded and `previous` the key of the window before it, if there was one.
* `token_lifetime` — a token is accepted in its window and the next one, whatever happens between.
-/

set_option autoImplicit false

namespace BtSniffer

/-- `Secret`. -/
abbrev Secret := BitVec 256

/-- `TokenError`. -/
inductive TokenError where
  | keySource
  deriving DecidableEq, Repr

/-- The bytes of `Token`. -/
abbrev TokenBytes := List UInt8

/-- `TokenManager`. -/
structure TokenManager where
  current : Secret
  previous : Option Secret
  epoch : Nat
  deriving DecidableEq, Repr

/-- The message `mac` authenticates. -/
def macMessage (ip : IpAddr) : List UInt8 :=
  "bt-sniffer/announce-token/v1".toUTF8.toList ++
    (match ip with
    | .v4 _ => [4]
    | .v6 _ => [6]) ++
    (ipBytes ip).map UInt8.ofNat

namespace TokenManager

/-- `ROTATION`: five minutes. -/
def ROTATION : Nat := 300000000000

/-- `TokenManager::with_source`. -/
def withSource (now : Nat) (drawn : Except TokenError Secret) : Except TokenError TokenManager :=
  match drawn with
  | .error e => .error e
  | .ok key => .ok ⟨key, none, now⟩

/-- A call at this time reads the key source. -/
def due (m : TokenManager) (now : Nat) : Bool := decide (ROTATION ≤ now - m.epoch)

/-- `TokenManager::rotate`. -/
def rotate (m : TokenManager) (now : Nat) (drawn : Except TokenError Secret) :
    Except TokenError TokenManager :=
  let elapsed := now - m.epoch
  if elapsed < ROTATION then .ok m
  else
    match drawn with
    | .error e => .error e
    | .ok next =>
      .ok { current := next
            previous := if elapsed < ROTATION * 2 then some m.current else none
            epoch := now - elapsed % ROTATION }

section Mac

variable (hmac : Secret → List UInt8 → TokenBytes)

/-- `TokenManager::mac`. -/
def mac (key : Secret) (ip : IpAddr) : TokenBytes := hmac key (macMessage ip)

/-- `TokenManager::issue`. -/
def issue (m : TokenManager) (ip : IpAddr) (now : Nat) (drawn : Except TokenError Secret) :
    Except TokenError TokenBytes × TokenManager :=
  match m.rotate now drawn with
  | .error e => (.error e, m)
  | .ok m' => (.ok (mac hmac m'.current ip), m')

/-- `TokenManager::validate`. -/
def validate (m : TokenManager) (ip : IpAddr) (token : TokenBytes) (now : Nat)
    (drawn : Except TokenError Secret) : Except TokenError Bool × TokenManager :=
  match m.rotate now drawn with
  | .error e => (.error e, m)
  | .ok m' =>
    let current := decide (mac hmac m'.current ip = token)
    let previous := m'.previous.any (fun key => decide (mac hmac key ip = token))
    (.ok (current || previous), m')

end Mac

end TokenManager

/-! ## Runs -/

/-- A call. -/
inductive TokenOp where
  | issue (ip : IpAddr) (now : Nat)
  | validate (ip : IpAddr) (token : TokenBytes) (now : Nat)

/-- The time of a call. -/
def TokenOp.time : TokenOp → Nat
  | .issue _ now => now
  | .validate _ _ now => now

/-- A manager and the number of draws from its key source so far. -/
structure TokenRun where
  manager : TokenManager
  draws : Nat
  deriving DecidableEq, Repr

namespace TokenRun

variable (hmac : Secret → List UInt8 → TokenBytes) (source : Nat → Except TokenError Secret)

/-- A token issued now. -/
def issue (s : TokenRun) (ip : IpAddr) (now : Nat) : Except TokenError TokenBytes :=
  (s.manager.issue hmac ip now (source s.draws)).1

/-- The verdict on a token now. -/
def validate (s : TokenRun) (ip : IpAddr) (token : TokenBytes) (now : Nat) :
    Except TokenError Bool :=
  (s.manager.validate hmac ip token now (source s.draws)).1

/-- One call. -/
def step (s : TokenRun) (op : TokenOp) : TokenRun :=
  let draws := if s.manager.due op.time then s.draws + 1 else s.draws
  match op with
  | .issue ip now => ⟨(s.manager.issue hmac ip now (source s.draws)).2, draws⟩
  | .validate ip token now => ⟨(s.manager.validate hmac ip token now (source s.draws)).2, draws⟩

/-- A run. -/
def run (s : TokenRun) (ops : List TokenOp) : TokenRun := ops.foldl (step hmac source) s

end TokenRun

/-! ## Windows and keys -/

open TokenManager (ROTATION)

theorem rotation_pos : 0 < ROTATION := by decide

/-- The number of the rotation window of a time. -/
def window (start now : Nat) : Nat := (now - start) / ROTATION

/-- A window is the time between two multiples of the rotation. -/
theorem window_eq {start now : Nat} {n : Nat} (hlow : start + n * ROTATION ≤ now)
    (hhigh : now < start + (n + 1) * ROTATION) : window start now = n := by
  have hlow' : n * ROTATION ≤ now - start := by omega
  have hhigh' : now - start < (n + 1) * ROTATION := by omega
  apply Nat.div_eq_of_lt_le
  · exact hlow'
  · exact hhigh'

theorem window_start_le {start now : Nat} (h : start ≤ now) :
    start + window start now * ROTATION ≤ now := by
  have := Nat.div_mul_le_self (now - start) ROTATION
  unfold window
  omega

theorem lt_window_end {start now : Nat} :
    now < start + (window start now + 1) * ROTATION := by
  have := @Nat.lt_div_mul_add (now - start) ROTATION rotation_pos
  unfold window
  rw [Nat.add_mul, Nat.one_mul]
  omega

/-- A draw that became a key. -/
structure KeyDraw where
  draw : Nat
  window : Nat
  key : Secret

namespace TokenRun

variable {hmac : Secret → List UInt8 → TokenBytes} {source : Nat → Except TokenError Secret}
  {start : Nat} {s : TokenRun} {history : List KeyDraw}

/-- The keys of a run, newest first. -/
structure History (source : Nat → Except TokenError Secret) (start : Nat) (s : TokenRun)
    (history : List KeyDraw) : Prop where
  drawn : ∀ e ∈ history, e.draw < s.draws ∧ source e.draw = .ok e.key
  ordered : history.Pairwise (fun a b => b.draw < a.draw ∧ b.window < a.window)
  /-- The newest is the current key, and the epoch is the start of its window. -/
  current : ∃ e, history.head? = some e ∧ e.key = s.manager.current ∧
    s.manager.epoch = start + e.window * ROTATION
  /-- The previous key is that of the window before, if it had one. -/
  previous : ∀ key, s.manager.previous = some key ↔
    ∃ e ∈ history, e.key = key ∧ s.manager.epoch = start + (e.window + 1) * ROTATION

theorem History.start_le (h : History source start s history) : start ≤ s.manager.epoch := by
  obtain ⟨e, -, -, he⟩ := h.current
  omega

/-- Two keys of a history are the same or one is the older in both counts. -/
theorem History.compare (h : History source start s history) {a b : KeyDraw} (ha : a ∈ history)
    (hb : b ∈ history) : a = b ∨ (b.draw < a.draw ∧ b.window < a.window) ∨
      (a.draw < b.draw ∧ a.window < b.window) := by
  let R := fun a b : KeyDraw => a = b ∨ (b.draw < a.draw ∧ b.window < a.window) ∨
    (a.draw < b.draw ∧ a.window < b.window)
  have hpair : history.Pairwise R := h.ordered.imp (fun hab => .inr (.inl hab))
  have hflip : history.Pairwise (flip R) := h.ordered.imp (fun hab => .inr (.inr hab))
  exact List.Pairwise.forall_of_forall_of_flip (fun x _ => .inl rfl) hpair hflip ha hb

/-- The current key has the last window. -/
theorem History.window_le (h : History source start s history) {c e : KeyDraw}
    (hc : history.head? = some c) (he : e ∈ history) : e.window ≤ c.window := by
  cases history with
  | nil => cases hc
  | cons x rest =>
    cases hc
    rcases List.mem_cons.1 he with rfl | he
    · exact le_refl _
    · exact Nat.le_of_lt ((List.pairwise_cons.1 h.ordered).1 e he).2

/-- A failed draw leaves the keys as they are. -/
theorem History.failed (h : History source start s history) {draws : Nat} (hle : s.draws ≤ draws) :
    History source start ⟨s.manager, draws⟩ history :=
  ⟨fun e he => ⟨lt_of_lt_of_le (h.drawn e he).1 hle, (h.drawn e he).2⟩, h.ordered, h.current,
    h.previous⟩

/-- **A rotation that succeeds** moves the epoch to the window of the call and forgets no key of the
history. -/
theorem History.rotate (h : History source start s history) {now : Nat}
    (hnow : s.manager.epoch ≤ now) {m : TokenManager}
    (hok : s.manager.rotate now (source s.draws) = .ok m) :
    ∃ newer, History source start ⟨m, if s.manager.due now then s.draws + 1 else s.draws⟩
        (newer ++ history) ∧ m.epoch = start + window start now * ROTATION := by
  obtain ⟨c, hc, hckey, hepoch⟩ := h.current
  have hstart := h.start_le
  unfold TokenManager.rotate at hok
  unfold TokenManager.due
  by_cases hdue : now - s.manager.epoch < ROTATION
  · rw [if_pos hdue] at hok
    cases hok
    refine ⟨[], ?_, ?_⟩
    · rw [if_neg (by simpa using hdue)]
      exact h
    · rw [window_eq (n := c.window) (by omega) (by rw [Nat.add_mul]; omega), hepoch]
  · simp only [if_neg hdue] at hok
    rw [if_pos (by simpa using hdue)]
    cases hdraw : source s.draws with
    | error e => rw [hdraw] at hok; cases hok
    | ok next =>
      rw [hdraw] at hok
      cases hok
      -- the remainder brings the epoch back to the start of a window
      have hmod : (now - s.manager.epoch) % ROTATION = (now - start) % ROTATION := by
        have : now - start = (now - s.manager.epoch) + c.window * ROTATION := by omega
        rw [this, Nat.add_mul_mod_self_right]
      have hnew : now - (now - s.manager.epoch) % ROTATION =
          start + window start now * ROTATION := by
        have := Nat.div_add_mod (now - start) ROTATION
        rw [hmod]
        unfold window
        rw [Nat.mul_comm]
        omega
      have hlater : c.window < window start now := by
        have hhigh := @lt_window_end start now
        by_contra hle
        have hmul := Nat.mul_le_mul_right ROTATION (show window start now + 1 ≤ c.window + 1 by omega)
        rw [Nat.add_mul c.window] at hmul
        omega
      have hnext : now - s.manager.epoch < ROTATION * 2 ↔ window start now = c.window + 1 := by
        constructor
        · intro hlt
          exact window_eq (by rw [Nat.add_mul]; omega) (by rw [Nat.add_mul, Nat.add_mul]; omega)
        · intro heq
          have hhigh := @lt_window_end start now
          rw [heq, Nat.add_mul, Nat.add_mul] at hhigh
          omega
      refine ⟨[⟨s.draws, window start now, next⟩], ⟨?_, ?_, ?_, ?_⟩, hnew⟩
      · intro e he
        rcases List.mem_cons.1 he with rfl | he
        · exact ⟨Nat.lt_succ_self _, hdraw⟩
        · exact ⟨Nat.lt_succ_of_lt (h.drawn e he).1, (h.drawn e he).2⟩
      · refine List.pairwise_cons.2 ⟨fun e he => ⟨(h.drawn e he).1, ?_⟩, h.ordered⟩
        have hle := h.window_le hc he
        show e.window < window start now
        omega
      · exact ⟨_, rfl, rfl, hnew⟩
      · intro key
        simp only [hnew]
        constructor
        · intro hprev
          split at hprev
          · rename_i hlt
            cases hprev
            refine ⟨c, List.mem_append_right _ (List.mem_of_mem_head? hc), hckey, ?_⟩
            rw [hnext.1 hlt]
          · cases hprev
        · rintro ⟨e, he, rfl, heq⟩
          have hwin : window start now = e.window + 1 :=
            Nat.eq_of_mul_eq_mul_right rotation_pos (Nat.add_left_cancel heq)
          rcases List.mem_cons.1 he with rfl | he
          · simp at hwin
          · have hle := h.window_le hc he
            have hcmem : c ∈ history := List.mem_of_mem_head? hc
            have hec : e = c := by
              rcases h.compare he hcmem with heq' | ⟨-, hlt⟩ | ⟨-, hlt⟩
              · exact heq'
              · omega
              · omega
            subst hec
            rw [if_pos (hnext.2 hwin), hckey]

theorem step_of_error {op : TokenOp} {e : TokenError}
    (h : s.manager.rotate op.time (source s.draws) = .error e) : s.step hmac source op =
      ⟨s.manager, if s.manager.due op.time then s.draws + 1 else s.draws⟩ := by
  cases op <;> simp only [TokenOp.time] at h <;>
    simp only [TokenRun.step, TokenManager.issue, TokenManager.validate, h]

theorem step_of_ok {op : TokenOp} {m : TokenManager}
    (h : s.manager.rotate op.time (source s.draws) = .ok m) : s.step hmac source op =
      ⟨m, if s.manager.due op.time then s.draws + 1 else s.draws⟩ := by
  cases op <;> simp only [TokenOp.time] at h <;>
    simp only [TokenRun.step, TokenManager.issue, TokenManager.validate, h]

/-- What one call does to the keys. -/
theorem History.step (h : History source start s history) {op : TokenOp}
    (hnow : s.manager.epoch ≤ op.time) :
    ∃ newer, History source start (s.step hmac source op) (newer ++ history) ∧
      (s.step hmac source op).manager.epoch ≤ op.time := by
  have hdraws : s.draws ≤ if s.manager.due op.time then s.draws + 1 else s.draws := by
    split <;> omega
  cases hrot : s.manager.rotate op.time (source s.draws) with
  | error e =>
    rw [step_of_error hrot]
    exact ⟨[], h.failed hdraws, hnow⟩
  | ok m =>
    obtain ⟨newer, hnewer, hepoch⟩ := h.rotate hnow hrot
    rw [step_of_ok hrot]
    refine ⟨newer, hnewer, ?_⟩
    rw [hepoch]
    exact window_start_le (le_trans h.start_le hnow)

/-- What a run does to the keys. -/
theorem History.run {ops : List TokenOp} {last : Nat} : ∀ {s : TokenRun} {history : List KeyDraw},
    History source start s history →
    (s.manager.epoch :: (ops.map TokenOp.time ++ [last])).Pairwise (· ≤ ·) →
    ∃ newer, History source start (s.run hmac source ops) (newer ++ history) ∧
      (s.run hmac source ops).manager.epoch ≤ last := by
  induction ops with
  | nil =>
    intro s history h htimes
    exact ⟨[], h, (List.pairwise_cons.1 htimes).1 last (by simp)⟩
  | cons op rest ih =>
    intro s history h htimes
    obtain ⟨hfirst, hrest⟩ := List.pairwise_cons.1 htimes
    obtain ⟨newer, hnewer, hle⟩ := h.step (hfirst op.time (by simp))
    have htimes' : ((s.step hmac source op).manager.epoch ::
        (rest.map TokenOp.time ++ [last])).Pairwise (· ≤ ·) := by
      obtain ⟨hop, hrest'⟩ := List.pairwise_cons.1 hrest
      exact List.pairwise_cons.2 ⟨fun t ht => le_trans hle (hop t ht), hrest'⟩
    obtain ⟨newest, hnewest, hlast⟩ := ih hnewer htimes'
    exact ⟨newest ++ newer, by rw [List.append_assoc]; exact hnewest, hlast⟩

/-- The keys that verify a token: those of this window and of the one before. -/
theorem History.accepts (h : History source start s history) {now : Nat}
    (hepoch : s.manager.epoch = start + window start now * ROTATION)
    (hdistinct : ∀ i j key, source i = .ok key → source j = .ok key → i = j)
    {e : KeyDraw} (he : e ∈ history) :
    s.manager.current = e.key ∨ s.manager.previous = some e.key ↔
      window start now ≤ e.window + 1 := by
  obtain ⟨c, hc, hckey, hcepoch⟩ := h.current
  have hcmem : c ∈ history := List.mem_of_mem_head? hc
  have hle := h.window_le hc he
  have hwindow : window start now = c.window :=
    Nat.eq_of_mul_eq_mul_right rotation_pos (Nat.add_left_cancel (hepoch.symm.trans hcepoch))
  -- a key occurs once in the history
  have hsame : ∀ e' ∈ history, e'.key = e.key → e' = e := by
    intro e' he' hkey
    have hdraw : e'.draw = e.draw :=
      hdistinct _ _ e.key (by rw [(h.drawn e' he').2, hkey]) (h.drawn e he).2
    rcases h.compare he' he with heq | ⟨hlt, -⟩ | ⟨hlt, -⟩
    · exact heq
    · omega
    · omega
  constructor
  · rintro (hcur | hprev)
    · rw [hwindow, hsame c hcmem (hckey.trans hcur)]
      omega
    · obtain ⟨e', he', hkey, hepoch'⟩ := (h.previous e.key).1 hprev
      cases hsame e' he' hkey
      have := Nat.eq_of_mul_eq_mul_right rotation_pos
        (Nat.add_left_cancel (hepoch.symm.trans hepoch'))
      omega
  · intro hwin
    rcases Nat.lt_or_ge e.window c.window with hlt | hge
    · refine .inr ((h.previous e.key).2 ⟨e, he, rfl, ?_⟩)
      rw [hepoch, show window start now = e.window + 1 by omega]
    · rcases h.compare he hcmem with rfl | ⟨-, hlt⟩ | ⟨-, hlt⟩
      · exact .inl hckey.symm
      · omega
      · omega

end TokenRun

/-- A manager has one key when it is made. -/
theorem history_new {source : Nat → Except TokenError Secret} {start : Nat} {m : TokenManager}
    (h : TokenManager.withSource start (source 0) = .ok m) :
    TokenRun.History source start ⟨m, 1⟩ [⟨0, 0, m.current⟩] := by
  unfold TokenManager.withSource at h
  split at h
  · cases h
  · rename_i key hkey
    cases h
    refine ⟨?_, by simp, ⟨_, rfl, rfl, by simp⟩, ?_⟩
    · intro e he
      rw [List.mem_singleton] at he
      subst he
      exact ⟨Nat.one_pos, hkey⟩
    · intro k
      have := rotation_pos
      simp only [List.mem_singleton, exists_eq_left]
      refine ⟨fun hk => (by cases hk), fun ⟨_, he⟩ => ?_⟩
      omega

/-- The verdict on a token is that of the keys in use. -/
theorem TokenManager.validate_eq {hmac : Secret → List UInt8 → TokenBytes} {m m' : TokenManager}
    {drawn : Except TokenError Secret} {now : Nat} (hrot : m.rotate now drawn = .ok m') (ip : IpAddr)
    (token : TokenBytes) {verdict : Bool}
    (h : (m.validate hmac ip token now drawn).1 = .ok verdict) :
    verdict = true ↔ ∃ key, (m'.current = key ∨ m'.previous = some key) ∧
      mac hmac key ip = token := by
  unfold TokenManager.validate at h
  rw [hrot] at h
  cases h
  simp only [Bool.or_eq_true, decide_eq_true_eq, Option.any_eq_true]
  constructor
  · rintro (hcur | ⟨key, hprev, hmac⟩)
    · exact ⟨_, .inl rfl, hcur⟩
    · exact ⟨key, .inr hprev, hmac⟩
  · rintro ⟨key, rfl | hprev, hmac⟩
    · exact .inl hmac
    · exact .inr ⟨key, hprev, hmac⟩

/-- The keys in use were drawn. -/
theorem TokenRun.History.source_ok {source : Nat → Except TokenError Secret} {start : Nat}
    {s : TokenRun} {history : List KeyDraw} (h : TokenRun.History source start s history)
    {key : Secret} (hkey : s.manager.current = key ∨ s.manager.previous = some key) :
    ∃ i, source i = .ok key := by
  rcases hkey with rfl | hprev
  · obtain ⟨c, hc, hckey, -⟩ := h.current
    exact ⟨c.draw, hckey ▸ (h.drawn c (List.mem_of_mem_head? hc)).2⟩
  · obtain ⟨e, he, rfl, -⟩ := (h.previous key).1 hprev
    exact ⟨e.draw, (h.drawn e he).2⟩

/-- **Tokens live two windows.**  For a manager made at `start` with any key source that repeats no
key, and calls at non-decreasing times with draws that may fail, let a call issue a token to `ip` at
`t` and a later call judge it for `ip'` at `t'`.  The verdict depends on the addresses and the two
windows only: so a token is accepted for the rest of its window and the next one, and never 600
seconds after its issue.  A call that fails changes nothing. -/
theorem token_lifetime (hmac : Secret → List UInt8 → TokenBytes)
    (source : Nat → Except TokenError Secret) (start : Nat) (m : TokenManager)
    (hnew : TokenManager.withSource start (source 0) = .ok m)
    (hdistinct : ∀ i j key, source i = .ok key → source j = .ok key → i = j) :
    (∀ (pre mid : List TokenOp) ip ip' t t' token verdict,
      -- the MAC is injective in the keys drawn and the two addresses
      (∀ i j key key', source i = .ok key → source j = .ok key' →
        TokenManager.mac hmac key' ip' = TokenManager.mac hmac key ip → key' = key ∧ ip' = ip) →
      (start :: (pre ++ TokenOp.issue ip t :: (mid ++ [TokenOp.validate ip' token t'])).map
        TokenOp.time).Pairwise (· ≤ ·) →
      (TokenRun.run hmac source ⟨m, 1⟩ pre).issue hmac source ip t = .ok token →
      (TokenRun.run hmac source ⟨m, 1⟩ (pre ++ TokenOp.issue ip t :: mid)).validate hmac source ip'
        token t' = .ok verdict →
      (verdict = true ↔ ip' = ip ∧ window start t' - window start t ≤ 1) ∧
      (ip' = ip → t' < start + (window start t + 1) * ROTATION + ROTATION → verdict = true) ∧
      (t + 2 * ROTATION ≤ t' → verdict = false)) ∧
    ∀ (s : TokenRun) ip token now e,
      (s.issue hmac source ip now = .error e →
        (s.step hmac source (.issue ip now)).manager = s.manager) ∧
      (s.validate hmac source ip token now = .error e →
        (s.step hmac source (.validate ip token now)).manager = s.manager) := by
  have hepoch₀ : m.epoch = start := by
    obtain ⟨e, he, -, hepoch⟩ := (history_new hnew).current
    cases he
    simpa using hepoch
  refine ⟨?_, ?_⟩
  · intro pre mid ip ip' t t' token verdict hinjective htimes hissue hvalidate
    simp only [List.map_append, List.map_cons, TokenOp.time, List.map_nil] at htimes
    -- the keys when the token is issued
    have hpre : (m.epoch :: (pre.map TokenOp.time ++ [t])).Pairwise (· ≤ ·) := by
      rw [hepoch₀]
      refine htimes.sublist (List.Sublist.cons_cons _ (List.Sublist.append_left ?_ _))
      simp
    obtain ⟨h₁, H₁, hle₁⟩ := (history_new hnew).run hpre
    set s₁ := TokenRun.run hmac source ⟨m, 1⟩ pre with hs₁
    obtain ⟨m₁, hrot₁⟩ : ∃ m₁, s₁.manager.rotate t (source s₁.draws) = .ok m₁ := by
      unfold TokenRun.issue TokenManager.issue at hissue
      split at hissue
      · cases hissue
      · exact ⟨_, ‹_›⟩
    have htoken : token = TokenManager.mac hmac m₁.current ip := by
      unfold TokenRun.issue TokenManager.issue at hissue
      rw [hrot₁] at hissue
      exact (Except.ok.inj hissue).symm
    obtain ⟨h₂, H₂, hepoch₂⟩ := H₁.rotate hle₁ hrot₁
    obtain ⟨e, he, hekey, heepoch⟩ := H₂.current
    have hewindow : e.window = window start t :=
      Nat.eq_of_mul_eq_mul_right rotation_pos (Nat.add_left_cancel (heepoch.symm.trans hepoch₂))
    -- the keys when it is judged
    have hstep : TokenRun.run hmac source ⟨m, 1⟩ (pre ++ TokenOp.issue ip t :: mid) =
        TokenRun.run hmac source ⟨m₁, if s₁.manager.due t then s₁.draws + 1 else s₁.draws⟩ mid := by
      rw [TokenRun.run, List.foldl_append, List.foldl_cons]
      change TokenRun.run hmac source (TokenRun.step hmac source s₁ (.issue ip t)) mid = _
      rw [TokenRun.step_of_ok (show s₁.manager.rotate (TokenOp.issue ip t).time _ = _ from hrot₁)]
      rfl
    have hmid : (m₁.epoch :: (mid.map TokenOp.time ++ [t'])).Pairwise (· ≤ ·) := by
      have hsub := htimes.sublist
        ((List.sublist_append_right (pre.map TokenOp.time) _).trans (List.sublist_cons_self start _))
      obtain ⟨hfirst, hrest⟩ := List.pairwise_cons.1 hsub
      have hstart : start ≤ t := le_trans H₁.start_le hle₁
      refine List.pairwise_cons.2 ⟨fun x hx => le_trans ?_ (hfirst x hx), hrest⟩
      rw [hepoch₂]
      exact window_start_le hstart
    obtain ⟨h₃, H₃, hle₃⟩ := H₂.run hmid
    rw [hstep] at hvalidate
    set s₂ := TokenRun.run hmac source
      ⟨m₁, if s₁.manager.due t then s₁.draws + 1 else s₁.draws⟩ mid with hs₂
    obtain ⟨m₂, hrot₂⟩ : ∃ m₂, s₂.manager.rotate t' (source s₂.draws) = .ok m₂ := by
      unfold TokenRun.validate TokenManager.validate at hvalidate
      split at hvalidate
      · cases hvalidate
      · exact ⟨_, ‹_›⟩
    obtain ⟨h₄, H₄, hepoch₄⟩ := H₃.rotate hle₃ hrot₂
    have hmem : e ∈ h₄ ++ (h₃ ++ (h₂ ++ (h₁ ++ [⟨0, 0, m.current⟩]))) :=
      List.mem_append_right _ (List.mem_append_right _ (List.mem_of_mem_head? he))
    have haccepts := H₄.accepts hepoch₄ hdistinct hmem
    have hverdict : verdict = true ↔ ip' = ip ∧ window start t' ≤ window start t + 1 := by
      rw [TokenManager.validate_eq hrot₂ ip' token hvalidate, ← hewindow, ← haccepts]
      constructor
      · rintro ⟨key, hkey, hmac⟩
        obtain ⟨j, hj⟩ := H₄.source_ok hkey
        rw [htoken, show m₁.current = e.key from hekey.symm] at hmac
        obtain ⟨rfl, rfl⟩ := hinjective _ j _ _ (H₄.drawn e hmem).2 hj hmac
        exact ⟨rfl, hkey⟩
      · rintro ⟨rfl, hkey⟩
        exact ⟨e.key, hkey, by rw [htoken, hekey]⟩
    refine ⟨?_, ?_, ?_⟩
    · rw [hverdict, Nat.sub_le_iff_le_add, Nat.add_comm 1]
    · rintro rfl hlt
      refine hverdict.2 ⟨rfl, Nat.le_of_lt_succ ?_⟩
      refine Nat.div_lt_of_lt_mul ?_
      rw [Nat.mul_comm ROTATION, Nat.succ_mul]
      rw [Nat.add_assoc] at hlt
      have hpos := rotation_pos
      omega
    · intro hlate
      rw [Bool.eq_false_iff]
      intro htrue
      obtain ⟨-, hwin⟩ := hverdict.1 htrue
      have hstart : start ≤ t := le_trans H₁.start_le hle₁
      have hlow := window_start_le hstart
      have hhigh := @lt_window_end start t'
      have hmul := Nat.mul_le_mul_right ROTATION hwin
      rw [Nat.add_mul] at hhigh hmul
      omega
  · intro s ip token now e
    refine ⟨fun h => ?_, fun h => ?_⟩
    · unfold TokenRun.issue TokenManager.issue at h
      simp only [TokenRun.step, TokenManager.issue]
      split at h
      · rfl
      · cases h
    · unfold TokenRun.validate TokenManager.validate at h
      simp only [TokenRun.step, TokenManager.validate]
      split at h
      · rfl
      · cases h

/-- A source of two keys that then fails. -/
def twoKeys : Nat → Except TokenError Secret
  | 0 => .ok 1
  | 1 => .ok 2
  | _ => .error .keySource

/-- A token is still accepted at the start of the next window, which draws the second key. -/
theorem token_lifetime_next_window :
    (true = true ↔ IpAddr.v4 7 = IpAddr.v4 7 ∧ window 0 ROTATION - window 0 0 ≤ 1) := by
  have hdistinct : ∀ i j key, twoKeys i = .ok key → twoKeys j = .ok key → i = j := by
    intro i j key hi hj
    match i, j, hi, hj with
    | 0, 0, _, _ => rfl
    | 1, 1, _, _ => rfl
    | 0, 1, hi, hj => cases hi; cases hj
    | 1, 0, hi, hj => cases hi; cases hj
  have hinjective : ∀ i j key key', twoKeys i = .ok key → twoKeys j = .ok key' →
      TokenManager.mac (fun k _ => [UInt8.ofNat k.toNat]) key' (.v4 7) =
        TokenManager.mac (fun k _ => [UInt8.ofNat k.toNat]) key (.v4 7) →
      key' = key ∧ IpAddr.v4 7 = IpAddr.v4 7 := by
    intro i j key key' hi hj hmac
    match i, j, hi, hj with
    | 0, 0, hi, hj => cases hi; cases hj; exact ⟨rfl, rfl⟩
    | 1, 1, hi, hj => cases hi; cases hj; exact ⟨rfl, rfl⟩
    | 0, 1, hi, hj => cases hi; cases hj; cases hmac
    | 1, 0, hi, hj => cases hi; cases hj; cases hmac
  exact ((token_lifetime (fun k _ => [UInt8.ofNat k.toNat]) twoKeys 0 ⟨1, none, 0⟩ rfl
    hdistinct).1 [] [] (.v4 7) (.v4 7) 0 ROTATION [1] true hinjective (by decide) rfl rfl).1

end BtSniffer

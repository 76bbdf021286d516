import BtSniffer.Peer.Session

/-!
# Pieces of a transfer

* `Good` — what holds of the pieces at any time.
* `data_spec` — the three outcomes of `data`; none is a panic.
* `requestPieces_spec` — the loop of `request_pieces` ends, and leaves a request outstanding unless all
  pieces are complete.
* `Traced` — the buffer holds what the data messages of the session carried.
-/

set_option autoImplicit false

namespace BtSniffer.Peer

open Blocks

namespace Pieces

/-- The pieces of a buffer of `size` bytes, at any time of a transfer with a request window. -/
structure Good (size window : Nat) (p : Pieces) : Prop where
  bytes : p.bytes.length = size
  complete : p.complete.length = pieceCount size
  deadlines : p.deadlines.length = pieceCount size
  next : p.next ≤ pieceCount size
  received : p.received = p.complete.countP id
  below : ∀ i < p.next, (p.complete[i]? = some true ∧ p.deadlines[i]? = some none) ∨
    (p.complete[i]? = some false ∧ ∃ d, p.deadlines[i]? = some (some d))
  above : ∀ i, p.next ≤ i → i < pieceCount size →
    p.complete[i]? = some false ∧ p.deadlines[i]? = some none
  window : p.outstanding ≤ window

variable {size window : Nat} {p q : Pieces}

theorem start_lt {i : Nat} (h : i < pieceCount size) : i * BLOCK_SIZE < size := by
  unfold pieceCount BLOCK_SIZE at *
  omega

theorem outstanding_eq (p : Pieces) : p.outstanding = p.deadlines.countP Option.isSome := by
  unfold outstanding
  rw [List.length_filterMap_eq_countP]
  rfl

theorem new_good (size window : Nat) : (Pieces.new size).Good size window where
  bytes := List.length_replicate
  complete := List.length_replicate
  deadlines := List.length_replicate
  next := Nat.zero_le _
  received := by
    simp [new, List.countP_replicate]
  below i hi := absurd hi (Nat.not_lt_zero i)
  above i _ hi := by
    simp [new, hi]
  window := by
    rw [outstanding_eq]
    simp [new, List.countP_replicate]

/-! ## A data message -/

/-- The pieces after an accepted piece. -/
def accepted (p : Pieces) (piece : Nat) (data : Bytes) : Pieces :=
  { p with
    bytes := writeBlock BLOCK_SIZE p.bytes piece data
    complete := p.complete.set piece true
    deadlines := p.deadlines.set piece none
    received := p.received + 1 }

/-- The length of a piece. -/
def pieceLength (size piece : Nat) : Nat := min BLOCK_SIZE (size - piece * BLOCK_SIZE)

theorem pieceRange_ok {piece : Nat} (hsize : size < 2 ^ 63) (h : piece < pieceCount size) :
    pieceRange piece size = some (piece * BLOCK_SIZE, piece * BLOCK_SIZE + pieceLength size piece) := by
  have hstart := start_lt h
  have h1 : piece * BLOCK_SIZE < 2 ^ 64 := by omega
  have h2 : piece * BLOCK_SIZE + BLOCK_SIZE < 2 ^ 64 := by
    have hblock : BLOCK_SIZE = 16384 := rfl
    omega
  have hmin : min (piece * BLOCK_SIZE + BLOCK_SIZE) size =
      piece * BLOCK_SIZE + pieceLength size piece := by
    unfold pieceLength
    omega
  simp only [pieceRange, usize, h1, h2, if_true, Option.bind_eq_bind, Option.bind_some, hmin]
  rfl

/-- **The outcomes of `data`**: a refusal, a repeated piece, an accepted piece; the first two change
nothing. -/
theorem data_spec (h : p.Good size window) (hsize : size < 2 ^ 63) (piece total : Nat)
    (payload : Bytes) :
    (∃ kind, p.data piece total payload = (p, .error (.refused kind))) ∨
    (p.data piece total payload = (p, .ok ()) ∧ total = size ∧ p.complete[piece]? = some true ∧
      blockAt BLOCK_SIZE p.bytes piece = payload) ∨
    (p.data piece total payload = (p.accepted piece payload, .ok ()) ∧ total = size ∧
      piece < pieceCount size ∧ p.complete[piece]? = some false ∧
      (∃ d, p.deadlines[piece]? = some (some d)) ∧ payload.length = pieceLength size piece) := by
  unfold data
  split
  · exact .inl ⟨_, rfl⟩
  · rename_i hrange
    rw [not_or, not_not, not_le, h.bytes, h.complete] at hrange
    obtain ⟨rfl, hpiece⟩ := hrange
    have hstart := start_lt hpiece
    rw [pieceRange_ok hsize hpiece]
    dsimp only
    rw [if_neg (by omega), Nat.add_sub_cancel_left]
    have hstop : piece * BLOCK_SIZE + pieceLength total piece ≤ p.bytes.length := by
      rw [h.bytes]
      unfold pieceLength
      omega
    split
    · exact .inl ⟨_, rfl⟩
    · rename_i hlength
      rw [not_not] at hlength
      obtain ⟨done, hdone⟩ : ∃ done, p.complete[piece]? = some done :=
        ⟨_, List.getElem?_eq_getElem (by rw [h.complete]; exact hpiece)⟩
      rw [hdone]
      cases done with
      | true =>
        have hslice : slice p.bytes (piece * BLOCK_SIZE)
            (piece * BLOCK_SIZE + pieceLength total piece) =
              some (blockAt BLOCK_SIZE p.bytes piece) := by
          unfold slice
          rw [if_pos ⟨by omega, hstop⟩, Nat.add_sub_cancel_left]
          unfold blockAt pieceLength
          congr 1
          by_cases hfull : BLOCK_SIZE ≤ total - piece * BLOCK_SIZE
          · rw [min_eq_left hfull]
          · rw [min_eq_right (by omega), List.take_of_length_le, List.take_of_length_le]
            · rw [List.length_drop, h.bytes]
              omega
            · rw [List.length_drop, h.bytes]
        dsimp only
        rw [hslice]
        dsimp only
        split
        · exact .inl ⟨_, rfl⟩
        · rename_i hold
          rw [not_not] at hold
          exact .inr (.inl ⟨rfl, rfl, rfl, hold⟩)
      | false =>
        obtain ⟨d, hd⟩ : ∃ d, p.deadlines[piece]? = some d :=
          ⟨_, List.getElem?_eq_getElem (by rw [h.deadlines]; exact hpiece)⟩
        dsimp only
        rw [hd]
        cases d with
        | none => exact .inl ⟨_, rfl⟩
        | some d =>
          have hcount : p.received ≤ pieceCount total := by
            rw [h.received, ← h.complete]
            exact List.countP_le_length
          have haccept : p.accept piece (piece * BLOCK_SIZE)
              (piece * BLOCK_SIZE + pieceLength total piece) payload =
                some (p.accepted piece payload) := by
            have h1 : p.received + 1 < 2 ^ 64 := by
              have hle : pieceCount total ≤ total := by
                unfold pieceCount BLOCK_SIZE
                omega
              omega
            have hcopy : copyFromSlice p.bytes (piece * BLOCK_SIZE)
                (piece * BLOCK_SIZE + pieceLength total piece) payload =
                  some (writeBlock BLOCK_SIZE p.bytes piece payload) := by
              unfold copyFromSlice writeBlock
              rw [if_pos ⟨by omega, hstop, by omega⟩, hlength]
            simp only [accept, hcopy, setAt, h.complete, h.deadlines, hpiece, if_true, usize, h1,
              Option.bind_eq_bind, Option.bind_some]
            rfl
          dsimp only
          rw [haccept]
          exact .inr (.inr ⟨rfl, rfl, hpiece, rfl, ⟨d, rfl⟩, hlength⟩)

/-- An accepted piece was requested. -/
theorem Good.lt_next (h : p.Good size window) {piece : Nat} (hpiece : piece < pieceCount size)
    {d : Nat} (hd : p.deadlines[piece]? = some (some d)) : piece < p.next := by
  by_contra hge
  rw [(h.above piece (not_lt.1 hge) hpiece).2] at hd
  cases hd

theorem accepted_good (h : p.Good size window) {piece : Nat} {payload : Bytes}
    (hpiece : piece < pieceCount size) (hdone : p.complete[piece]? = some false)
    {d : Nat} (hd : p.deadlines[piece]? = some (some d))
    (hlength : payload.length = pieceLength size piece) :
    (p.accepted piece payload).Good size window := by
  have hc : piece < p.complete.length := by rw [h.complete]; exact hpiece
  have hdl : piece < p.deadlines.length := by rw [h.deadlines]; exact hpiece
  have hnext := h.lt_next hpiece hd
  have hstart := start_lt hpiece
  constructor
  case bytes =>
    show (writeBlock BLOCK_SIZE p.bytes piece payload).length = size
    rw [length_writeBlock, h.bytes]
    rw [h.bytes, hlength]
    unfold pieceLength
    omega
  case complete =>
    show (p.complete.set piece true).length = _
    rw [List.length_set, h.complete]
  case deadlines =>
    show (p.deadlines.set piece none).length = _
    rw [List.length_set, h.deadlines]
  case next => exact h.next
  case received =>
    show p.received + 1 = (p.complete.set piece true).countP id
    have hget : p.complete[piece] = false := by
      rw [List.getElem?_eq_getElem hc] at hdone
      exact Option.some.inj hdone
    rw [List.countP_set hc, hget, h.received]
    rfl
  case below =>
    intro i hi
    show (p.complete.set piece true)[i]? = some true ∧ (p.deadlines.set piece none)[i]? = some none ∨
      (p.complete.set piece true)[i]? = some false ∧
        ∃ d, (p.deadlines.set piece none)[i]? = some (some d)
    rw [List.getElem?_set, List.getElem?_set]
    by_cases he : piece = i
    · left
      rw [if_pos he, if_pos hc, if_pos he, if_pos hdl]
      exact ⟨rfl, rfl⟩
    · rw [if_neg he, if_neg he]
      exact h.below i hi
  case above =>
    intro i hi hcount
    have hne : piece ≠ i := by
      have : p.next ≤ i := hi
      omega
    show (p.complete.set piece true)[i]? = some false ∧ (p.deadlines.set piece none)[i]? = some none
    rw [List.getElem?_set, List.getElem?_set, if_neg hne, if_neg hne]
    exact h.above i hi hcount
  case window =>
    rw [outstanding_eq]
    show (p.deadlines.set piece none).countP Option.isSome ≤ window
    have hw := h.window
    rw [outstanding_eq] at hw
    rw [List.countP_set hdl]
    simp only [Option.isSome_none, Bool.false_eq_true, if_false]
    omega

/-! ## Requests -/

/-- A turn of `request_pieces`: the next piece is requested, or the loop ends. -/
theorem requestTurn_spec (h : p.Good size window) {config : MetadataConfig}
    (hwindow : config.requestWindow = window) (now : Nat) :
    (∃ q, p.requestTurn config now = .ok (some q) ∧ q.Good size window ∧ q.next = p.next + 1 ∧
      q.bytes = p.bytes ∧ q.complete = p.complete ∧ q.received = p.received) ∨
    (p.requestTurn config now = .ok none ∧
      (p.next = pieceCount size ∨ p.outstanding = window)) := by
  unfold requestTurn
  by_cases hcond : p.next < p.complete.length ∧ p.outstanding < config.requestWindow
  · left
    obtain ⟨hnext, hroom⟩ := hcond
    have hdl : p.next < p.deadlines.length := by
      rw [h.deadlines, ← h.complete]
      exact hnext
    rw [if_pos ⟨hnext, hroom⟩]
    unfold setAt
    rw [if_pos hdl]
    refine ⟨_, rfl, ?_, rfl, rfl, rfl, rfl⟩
    rw [h.complete] at hnext
    constructor
    case bytes => exact h.bytes
    case complete => exact h.complete
    case deadlines =>
      show (p.deadlines.set p.next _).length = _
      rw [List.length_set, h.deadlines]
    case next => exact hnext
    case received => exact h.received
    case below =>
      intro i hi
      show p.complete[i]? = some true ∧ (p.deadlines.set p.next _)[i]? = some none ∨
        p.complete[i]? = some false ∧ ∃ d, (p.deadlines.set p.next _)[i]? = some (some d)
      rw [List.getElem?_set]
      have hi : i < p.next + 1 := hi
      by_cases he : p.next = i
      · right
        rw [if_pos he, if_pos hdl, ← he]
        exact ⟨(h.above p.next le_rfl hnext).1, _, rfl⟩
      · rw [if_neg he]
        exact h.below i (by omega)
    case above =>
      intro i hi hcount
      have hi : p.next + 1 ≤ i := hi
      show p.complete[i]? = some false ∧ (p.deadlines.set p.next _)[i]? = some none
      rw [List.getElem?_set, if_neg (by omega)]
      exact h.above i (by omega) hcount
    case window =>
      rw [outstanding_eq]
      show (p.deadlines.set p.next _).countP Option.isSome ≤ window
      rw [outstanding_eq] at hroom
      have hget : p.deadlines[p.next] = none := by
        have := (h.above p.next le_rfl hnext).2
        rw [List.getElem?_eq_getElem hdl] at this
        exact Option.some.inj this
      rw [List.countP_set hdl, hget]
      simp only [Option.isSome_none, Option.isSome_some, Bool.false_eq_true, if_false, if_true]
      omega
  · right
    rw [if_neg hcond]
    refine ⟨rfl, ?_⟩
    rw [not_and_or, h.complete, hwindow] at hcond
    have h1 := h.next
    have h2 := h.window
    omega

/-- The complete pieces hold what the data messages carried; messages for one piece agree. -/
structure Traced (events : List Event) (p : Pieces) : Prop where
  sent : ∀ i total payload, Event.metadata (.data i total payload) ∈ events →
    p.complete[i]? = some true ∧ blockAt BLOCK_SIZE p.bytes i = payload ∧ total = p.bytes.length
  held : ∀ i, p.complete[i]? = some true →
    Event.metadata (.data i p.bytes.length (blockAt BLOCK_SIZE p.bytes i)) ∈ events

/-- An event that carries no data leaves the trace. -/
theorem Traced.other {events : List Event} (h : p.Traced events) {e : Event}
    (he : ∀ i total payload, e ≠ .metadata (.data i total payload)) (hbytes : q.bytes = p.bytes)
    (hcomplete : q.complete = p.complete) : q.Traced (events ++ [e]) where
  sent i total payload hmem := by
    rw [hbytes, hcomplete]
    rcases List.mem_append.1 hmem with hmem | hmem
    · exact h.sent i total payload hmem
    · exact absurd (List.mem_singleton.1 hmem).symm (he i total payload)
  held i hi := by
    rw [hbytes]
    rw [hcomplete] at hi
    exact List.mem_append_left _ (h.held i hi)

theorem Traced.repeated {events : List Event} (h : p.Traced events) {piece : Nat} {payload : Bytes}
    (hdone : p.complete[piece]? = some true) (hblock : blockAt BLOCK_SIZE p.bytes piece = payload) :
    p.Traced (events ++ [.metadata (.data piece p.bytes.length payload)]) where
  sent i total other hmem := by
    rcases List.mem_append.1 hmem with hmem | hmem
    · exact h.sent i total other hmem
    · cases List.mem_singleton.1 hmem
      exact ⟨hdone, hblock, rfl⟩
  held i hi := List.mem_append_left _ (h.held i hi)

theorem Traced.accepted {events : List Event} (h : p.Traced events) (hg : p.Good size window)
    {piece : Nat} {payload : Bytes} (hpiece : piece < pieceCount size)
    (hdone : p.complete[piece]? = some false) (hlength : payload.length = pieceLength size piece) :
    (p.accepted piece payload).Traced (events ++ [.metadata (.data piece size payload)]) := by
  have hstart := start_lt hpiece
  have hfits : piece * BLOCK_SIZE + payload.length ≤ p.bytes.length := by
    rw [hg.bytes, hlength]
    unfold pieceLength
    omega
  have hwhole : payload.length = BLOCK_SIZE ∨
      payload.length ≤ BLOCK_SIZE ∧ piece * BLOCK_SIZE + payload.length = p.bytes.length := by
    rw [hg.bytes, hlength]
    unfold pieceLength
    omega
  have hlen : (p.accepted piece payload).bytes.length = p.bytes.length := length_writeBlock hfits
  have hself : blockAt BLOCK_SIZE (p.accepted piece payload).bytes piece = payload :=
    blockAt_writeBlock hfits hwhole
  have hother : ∀ i, i ≠ piece →
      blockAt BLOCK_SIZE (p.accepted piece payload).bytes i = blockAt BLOCK_SIZE p.bytes i := by
    intro i hi
    exact blockAt_writeBlock_of_ne hfits (by omega) hi
  have hcomplete : ∀ i, (p.accepted piece payload).complete[i]? =
      if piece = i then some true else p.complete[i]? := by
    intro i
    show (p.complete.set piece true)[i]? = _
    rw [List.getElem?_set]
    by_cases he : piece = i
    · rw [if_pos he, if_pos he, if_pos (by rw [hg.complete]; exact hpiece)]
    · rw [if_neg he, if_neg he]
  constructor
  case sent =>
    intro i total other hmem
    rw [hlen, hcomplete]
    rcases List.mem_append.1 hmem with hmem | hmem
    · obtain ⟨hi, hblock, htotal⟩ := h.sent i total other hmem
      have hne : i ≠ piece := by
        rintro rfl
        rw [hdone] at hi
        cases hi
      rw [if_neg (Ne.symm hne), hother i hne]
      exact ⟨hi, hblock, htotal⟩
    · cases List.mem_singleton.1 hmem
      rw [if_pos rfl]
      exact ⟨rfl, hself, hg.bytes.symm⟩
  case held =>
    intro i hi
    rw [hcomplete] at hi
    rw [hlen]
    by_cases he : piece = i
    · rw [← he, hself, hg.bytes]
      exact List.mem_append_right _ (List.mem_singleton.2 rfl)
    · rw [if_neg he] at hi
      rw [hother i (Ne.symm he)]
      exact List.mem_append_left _ (h.held i hi)

end Pieces

end BtSniffer.Peer

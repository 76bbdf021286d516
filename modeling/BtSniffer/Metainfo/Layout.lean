import BtSniffer.Lib.Align
import BtSniffer.Metainfo.Tree

/-!
# Layouts and totals

* `hybridLoop_ok` — what the loop over the v1 files of a hybrid decides.
* `hybrid_layout` — a valid hybrid has one layout.
* `totals_ok` — the totals of the files.
* `parsed_totals` — the totals of a parsed torrent belong together.
-/

set_option autoImplicit false

namespace BtSniffer.Info

open Align (up blocks layoutEnd place start)

/-! ## Checked arithmetic -/

theorem checkedSum_ok {a b c : Nat} (h : checkedSum a b = .ok c) : c = a + b ∧ c < 2 ^ 64 := by
  unfold checkedSum at h
  split at h
  · rename_i hlt
    cases h
    exact ⟨rfl, hlt⟩
  · cases h

theorem alignUp_ok {pieceLength n m : Nat} (h : alignUp pieceLength n = .ok m) :
    m = up pieceLength n ∧ m < 2 ^ 64 :=
  checkedSum_ok h

theorem divCeil_eq (n d : Nat) : divCeil n d = blocks d n := rfl

theorem lengthSum_ok : ∀ {files : List File} {sum total : Nat}, lengthSum files sum = .ok total →
    total = sum + (files.map File.length).sum ∧ (sum < 2 ^ 64 → total < 2 ^ 64)
  | [], sum, total, h => by
    cases h
    exact ⟨rfl, fun hlt => hlt⟩
  | f :: rest, sum, total, h => by
    rw [lengthSum] at h
    obtain ⟨mid, hmid, h⟩ := except_bind_ok h
    obtain ⟨rfl, hlt⟩ := checkedSum_ok hmid
    obtain ⟨htotal, hbound⟩ := lengthSum_ok h
    refine ⟨?_, fun _ => hbound hlt⟩
    rw [htotal, List.map_cons, List.sum_cons]
    omega

/-- The hashes of the pieces count the blocks of all files. -/
theorem checkV1_ok {d : Dict} {files : List File} {pieceLength count : Nat}
    (h : checkV1 d files pieceLength = .ok count) :
    ∃ pieces, Dict.get d (key "pieces") = some (.bytes pieces) ∧ pieces.length % 20 = 0 ∧
      count = pieces.length / 20 ∧ count = blocks pieceLength (files.map File.length).sum ∧
      (files.map File.length).sum < 2 ^ 64 := by
  unfold checkV1 at h
  obtain ⟨v, hv, h⟩ := except_bind_ok h
  obtain ⟨pieces, hpieces, h⟩ := except_bind_ok h
  obtain ⟨total, htotal, h⟩ := except_bind_ok h
  obtain ⟨hsum, hlt⟩ := lengthSum_ok htotal
  rw [Nat.zero_add] at hsum
  subst hsum
  split at h
  · cases h
  · rename_i hcheck
    rw [not_or, not_not, not_not] at hcheck
    cases h
    have hvalue : v = .bytes pieces := by
      cases v with
      | bytes b =>
        cases hpieces
        rfl
      | _ => cases hpieces
    exact ⟨pieces, hvalue ▸ required_ok hv, hcheck.1, rfl, hcheck.2, hlt (by norm_num)⟩

/-! ## The hybrid layout -/

/-- The files that are not padding. -/
def regular (files : List File) : List File := files.filter (fun f => f.kind ≠ .padding)

/-- The lengths of files. -/
def lengths (files : List File) : List Nat := files.map File.length

/-- The fields that both layouts have to agree on. -/
def SameFile (f g : File) : Prop :=
  f.rawPath = g.rawPath ∧ f.length = g.length ∧ f.kind = g.kind ∧ f.rawTarget = g.rawTarget

theorem hybridPlace_ok {pieceLength offset e e' : Nat} {file : File}
    (h : hybridPlace pieceLength file offset e = .ok e') :
    e' = place pieceLength e file.length ∧ (0 < file.length → offset = up pieceLength e) := by
  unfold hybridPlace at h
  split at h
  · rename_i hpos
    obtain ⟨aligned, haligned, h⟩ := except_bind_ok h
    obtain ⟨rfl, -⟩ := alignUp_ok haligned
    split at h
    · cases h
    · rename_i heq
      obtain ⟨rfl, -⟩ := checkedSum_ok h
      refine ⟨?_, fun _ => not_not.1 heq⟩
      unfold place
      rw [if_pos hpos]
  · rename_i hzero
    cases h
    refine ⟨?_, fun hpos => absurd hpos hzero⟩
    unfold place
    rw [if_neg hzero]

/-- What the loop over the v1 files decides. -/
structure HybridLoop (pieceLength : Nat) (legacy v2 : List File) (offset e o' e' : Nat) : Prop where
  same : List.Forall₂ SameFile (regular legacy) (v2.take (regular legacy).length)
  total : o' = offset + (lengths legacy).sum
  layout : e' = layoutEnd pieceLength (lengths (regular legacy)) e
  starts : ∀ i f, legacy[i]? = some f → f.kind ≠ .padding → 0 < f.length →
    offset + (lengths (legacy.take i)).sum =
      up pieceLength (layoutEnd pieceLength (lengths (regular (legacy.take i))) e)
  above : e ≤ offset → e' ≤ o'
  bound : offset < 2 ^ 64 → o' < 2 ^ 64

theorem regular_cons_padding {f : File} {rest : List File} (h : f.kind = .padding) :
    regular (f :: rest) = regular rest := by
  simp [regular, h]

theorem regular_cons {f : File} {rest : List File} (h : f.kind ≠ .padding) :
    regular (f :: rest) = f :: regular rest := by
  simp [regular, h]

theorem hybridLoop_ok {pieceLength : Nat} : ∀ {legacy v2 : List File} {offset e : Nat}
    {r : Nat × Nat}, hybridLoop pieceLength legacy v2 offset e = .ok r →
    HybridLoop pieceLength legacy v2 offset e r.1 r.2
  | [], v2, offset, e, r, h => by
    rw [hybridLoop] at h
    cases h
    refine ⟨.nil, rfl, rfl, fun i f hf => ?_, fun hle => hle, fun hlt => hlt⟩
    simp at hf
  | file :: rest, v2, offset, e, r, h => by
    rw [hybridLoop.eq_def] at h
    simp only at h
    split at h
    · -- Padding moves the offset only.
      rename_i hkind
      obtain ⟨mid, hmid, h⟩ := except_bind_ok h
      obtain ⟨rfl, hlt⟩ := checkedSum_ok hmid
      have ih := hybridLoop_ok h
      have hreg := @regular_cons_padding file rest hkind
      refine ⟨hreg ▸ ih.same, ?_, ?_, ?_, fun hle => ih.above (by omega), fun _ => ih.bound hlt⟩
      · rw [ih.total]
        simp only [lengths, List.map_cons, List.sum_cons]
        omega
      · rw [ih.layout, hreg]
      · intro i f hf hnot hpos
        cases i with
        | zero =>
          cases hf
          exact absurd hkind hnot
        | succ i =>
          have hstart := ih.starts i f hf hnot hpos
          rw [List.take_succ_cons, regular_cons_padding hkind, ← hstart]
          simp only [lengths, List.map_cons, List.sum_cons]
          omega
    · rename_i hkind
      cases v2 with
      | nil => cases h
      | cons other others =>
        obtain ⟨mid, hmid, h⟩ := except_bind_ok h
        obtain ⟨rfl, hoffset⟩ := hybridPlace_ok hmid
        split at h
        · cases h
        · rename_i hagree
          simp only [not_or, not_not] at hagree
          obtain ⟨hpath, hlength, hk, htarget, -⟩ := hagree
          obtain ⟨next, hnext, h⟩ := except_bind_ok h
          obtain ⟨rfl, hlt⟩ := checkedSum_ok hnext
          have ih := hybridLoop_ok h
          have hreg := @regular_cons file rest hkind
          refine ⟨?_, ?_, ?_, ?_, fun hle => ih.above ?_, fun _ => ih.bound hlt⟩
          · rw [hreg, List.length_cons, List.take_succ_cons]
            exact .cons ⟨hpath, hlength, hk, htarget⟩ ih.same
          · rw [ih.total]
            simp only [lengths, List.map_cons, List.sum_cons]
            omega
          · rw [ih.layout, hreg]
            rfl
          · intro i f hf hnot hpos
            cases i with
            | zero =>
              cases hf
              simpa [lengths, regular, layoutEnd] using hoffset hpos
            | succ i =>
              have hstart := ih.starts i f hf hnot hpos
              rw [List.take_succ_cons, regular_cons hkind]
              simp only [lengths, List.map_cons, List.sum_cons, layoutEnd] at hstart ⊢
              omega
          · -- The end of the v2 layout does not pass the offset.
            unfold place
            split
            · rename_i hpos
              have := hoffset hpos
              omega
            · omega

theorem lengths_same {fs gs : List File} (h : List.Forall₂ SameFile fs gs) :
    lengths fs = lengths gs := by
  induction h with
  | nil => rfl
  | cons hfg _ ih =>
    simp only [lengths, List.map_cons] at ih ⊢
    rw [ih, hfg.2.1]

/-- The regular files among the first files are the first regular files. -/
theorem regular_take (files : List File) (i : Nat) :
    regular (files.take i) = (regular files).take (regular (files.take i)).length := by
  have hpre : regular (files.take i) <+: regular files := (List.take_prefix i files).filter _
  exact List.prefix_iff_eq_take.1 hpre

theorem lengths_take (files : List File) (i : Nat) :
    lengths (files.take i) = (lengths files).take i := List.map_take

theorem sum_take_le (l : List Nat) (i : Nat) : (l.take i).sum ≤ l.sum := by
  have h : (l.take i ++ l.drop i).sum = (l.take i).sum + (l.drop i).sum := List.sum_append
  rw [List.take_append_drop] at h
  omega

/-- A valid analysis has parsed the dictionary. -/
theorem analyze_valid {decoder : InfoDecoder} {info : Bytes}
    (h : (analyze decoder info).status = .valid ∨ (analyze decoder info).parsed.isSome = true) :
    ∃ d budget version p, parseRoot decoder info = .ok (d, budget) ∧
      parseVersion d = .ok version ∧ (analyze decoder info).format = formatOf d version ∧
      parseBody d (formatOf d version) budget = .ok p ∧ (analyze decoder info).parsed = some p := by
  have hrejected : ∀ format e, analyze decoder info ≠ rejected format e := by
    intro format e he
    rw [he] at h
    rcases h with h | h
    · unfold rejected at h
      simp only at h
      split at h <;> cases h
    · cases h
  obtain ⟨e, -, hrej⟩ | ⟨d, budget, version, hroot, hversion, hformat, hend⟩ :=
    analyze_cases decoder info
  · exact absurd hrej (hrejected _ _)
  · obtain ⟨e, -, hrej⟩ | ⟨p, hbody, hanalyze⟩ := hend
    · exact absurd hrej (hrejected _ _)
    · exact ⟨d, budget, version, p, hroot, hversion, hformat, hbody, by rw [hanalyze]⟩

theorem pieceLength_pos {format : TorrentFormat} {pieceLength : Nat}
    (h : pieceLengthOk format pieceLength = true) : 0 < pieceLength := by
  unfold pieceLengthOk at h
  rw [Bool.and_eq_true, decide_eq_true_eq] at h
  exact Nat.pos_of_ne_zero h.1

/-- The v1 files of a hybrid that is accepted. -/
theorem hybridFiles_ok {d : Dict} {files legacy : List File} {pieceLength budget : Nat}
    (h : hybridFiles d files pieceLength budget = .ok legacy) :
    ∃ count offset e, checkV1 d legacy pieceLength = .ok count ∧
      (regular legacy).length = files.length ∧
      HybridLoop pieceLength legacy files 0 0 offset e ∧ offset ≤ up pieceLength e ∧
      up pieceLength e < 2 ^ 64 := by
  unfold hybridFiles at h
  obtain ⟨r, -, h⟩ := except_bind_ok h
  obtain ⟨count, hcount, h⟩ := except_bind_ok h
  split at h
  · cases h
  · rename_i hlength
    obtain ⟨q, hq, h⟩ := except_bind_ok h
    obtain ⟨boundary, hboundary, h⟩ := except_bind_ok h
    obtain ⟨rfl, hlt⟩ := alignUp_ok hboundary
    split at h
    · cases h
    · rename_i hle
      cases h
      exact ⟨count, q.1, q.2, hcount, not_not.1 hlength, hybridLoop_ok hq, not_lt.1 hle, hlt⟩

/-- **A valid hybrid has one layout.** The v1 files that are not padding are the files of the file tree, in
order; every file that is not empty starts, among all v1 files, where the v2 layout has it; all numbers
that are compared are below `2 ^ 64`; and there are as many hashes of v1 pieces as pieces of v2 files. -/
theorem hybrid_layout (decoder : InfoDecoder) (info : Bytes)
    (hvalid : (analyze decoder info).status = .valid)
    (hformat : (analyze decoder info).format = .hybrid) :
    ∃ (p : Parsed) (d : Dict) (budget : Nat) (root : Value) (w : Walk) (pieces : Bytes),
      (analyze decoder info).parsed = some p ∧
      parseRoot decoder info = .ok (d, budget) ∧ Dict.get d (key "file tree") = some root ∧
      tree root ⟨[], [], budget⟩ = .ok w ∧
      List.Forall₂ SameFile (regular p.files) w.out ∧
      (∀ i f, p.files[i]? = some f → f.kind ≠ .padding → 0 < f.length →
        (lengths (p.files.take i)).sum =
          start p.pieceLength (lengths w.out) (regular (p.files.take i)).length) ∧
      (∀ i, (lengths (p.files.take i)).sum < 2 ^ 64) ∧
      (∀ j, layoutEnd p.pieceLength (lengths (w.out.take j)) 0 < 2 ^ 64 ∧
        start p.pieceLength (lengths w.out) j < 2 ^ 64) ∧
      Dict.get d (key "pieces") = some (.bytes pieces) ∧ pieces.length % 20 = 0 ∧
      pieces.length / 20 = ((lengths w.out).map (fun n => divCeil n p.pieceLength)).sum := by
  obtain ⟨d, budget, version, p, hroot, -, hf, hbody, hparsed⟩ := analyze_valid (.inl hvalid)
  rw [hformat] at hf
  rw [← hf] at hbody
  obtain ⟨t, -, hok, hfiles, -⟩ := parseBody_ok hbody
  have hpos := pieceLength_pos hok
  unfold parseFiles versionFiles at hfiles
  obtain ⟨r, hr, hfiles⟩ := except_bind_ok hfiles
  rw [if_neg (by decide)] at hr
  rw [if_pos rfl] at hfiles
  obtain ⟨root, w, htree, hw, hout⟩ := v2Files_ok hr
  obtain ⟨count, offset, e, hcheck, hlength, hloop, hle, hlt⟩ := hybridFiles_ok hfiles
  rw [hout] at hlength hloop
  obtain ⟨pieces, hpieces, hmod, hcount, hblocks, hsum⟩ := checkV1_ok hcheck
  have hsame : List.Forall₂ SameFile (regular p.files) w.out := by
    have h := hloop.same
    rw [hlength, List.take_length] at h
    exact h
  have hlengths := lengths_same hsame
  have hend : e = layoutEnd p.pieceLength (lengths w.out) 0 := by
    rw [hloop.layout, hlengths]
  refine ⟨p, d, budget, root, w, pieces, hparsed, hroot, htree, hw, hsame, ?_, ?_, ?_, hpieces, hmod,
    ?_⟩
  · intro i f hi hkind hne
    have h := hloop.starts i f hi hkind hne
    rw [Nat.zero_add] at h
    unfold start
    rw [h, regular_take p.files i, lengths_take, hlengths]
    rw [List.length_take, min_eq_left]
    rw [regular_take p.files i, List.length_take]
    exact min_le_right _ _
  · intro i
    rw [lengths_take]
    exact lt_of_le_of_lt (sum_take_le _ i) hsum
  · intro j
    have hmono : layoutEnd p.pieceLength ((lengths w.out).take j) 0 ≤ e :=
      hend ▸ Align.layoutEnd_take_le _ j 0
    have hup := lt_of_le_of_lt (Align.up_mono hpos hmono) hlt
    refine ⟨?_, hup⟩
    rw [lengths_take]
    exact lt_of_le_of_lt (Align.le_up _) hup
  · -- The files end after the v2 layout and before its last piece does.
    have htotal : offset = (lengths p.files).sum := by
      rw [hloop.total, Nat.zero_add]
    have habove := hloop.above le_rfl
    rw [← hcount, hblocks]
    have hbetween := Align.blocks_of_between hpos habove hle
    rw [htotal] at hbetween
    exact hbetween.trans (hend ▸ Align.blocks_layoutEnd hpos _)

/-- A hybrid with one file of one byte. -/
def smallHybrid : Bencode.Tree :=
  .dict [(key "file tree", .dict [([97], .dict [([], .dict
      [(key "length", .atom (.integer [49])),
        (key "pieces root", .atom (.bytes (List.replicate 32 0)))])])]),
    (key "length", .atom (.integer [49])), (key "meta version", .atom (.integer [50])),
    (key "name", .atom (.bytes [97])), (key "piece length", .atom (.integer (key "16384"))),
    (key "pieces", .atom (.bytes (List.replicate 20 0)))]

/-- A decoder that reads this one dictionary. -/
def smallDecoder (t : Bencode.Tree) : InfoDecoder where
  first _ := .ok (some (.ofTree t))
  follows _ := .ok false

theorem hybrid_layout_small :
    (analyze (smallDecoder smallHybrid) smallHybrid.encode).status = .valid ∧
      ∃ (p : Parsed) (w : Walk),
        (analyze (smallDecoder smallHybrid) smallHybrid.encode).parsed = some p ∧
        List.Forall₂ SameFile (regular p.files) w.out := by
  have hvalid : (analyze (smallDecoder smallHybrid) smallHybrid.encode).status = .valid := by
    decide +kernel
  have hformat : (analyze (smallDecoder smallHybrid) smallHybrid.encode).format = .hybrid := by
    decide +kernel
  obtain ⟨p, d, budget, root, w, pieces, hparsed, -, -, -, hsame, -⟩ :=
    hybrid_layout (smallDecoder smallHybrid) smallHybrid.encode hvalid hformat
  exact ⟨hvalid, p, w, hparsed, hsame⟩

/-! ## Totals -/

/-- The lengths of the padding. -/
def paddingSum (files : List File) : Nat :=
  ((files.filter (fun f => f.kind == .padding)).map File.length).sum

/-- The lengths of the other files. -/
def regularSum (files : List File) : Nat := (lengths (regular files)).sum

/-- The end of the files in the piece space of a format. -/
def spaceEnd (format : TorrentFormat) (pieceLength : Nat) (files : List File) (n : Nat) : Nat :=
  if format = .v2 then layoutEnd pieceLength (lengths files) n else n + (lengths files).sum

/-- What the totals of some files are. -/
structure TotalsOf (format : TorrentFormat) (pieceLength : Nat) (files : List File) (t t' : Totals) :
    Prop where
  total : t'.totalLength = t.totalLength + regularSum files
  padding : t'.paddingLength = t.paddingLength + paddingSum files
  space : t'.pieceSpaceLength = spaceEnd format pieceLength files t.pieceSpaceLength
  count : format = .v2 → t'.pieceCount = t.pieceCount + ((lengths files).map (blocks pieceLength)).sum
  bound : t.totalLength < 2 ^ 64 → t.paddingLength < 2 ^ 64 → t.pieceSpaceLength < 2 ^ 64 →
    t.pieceCount < 2 ^ 64 → t'.totalLength < 2 ^ 64 ∧ t'.paddingLength < 2 ^ 64 ∧
      t'.pieceSpaceLength < 2 ^ 64 ∧ t'.pieceCount < 2 ^ 64

theorem addIf_ok {condition : Bool} {a b c : Nat} (h : addIf condition a b = .ok c) :
    c = a + (if condition then b else 0) ∧ (a < 2 ^ 64 → c < 2 ^ 64) := by
  unfold addIf at h
  split at h
  · rename_i hc
    obtain ⟨rfl, hlt⟩ := checkedSum_ok h
    rw [if_pos hc]
    exact ⟨rfl, fun _ => hlt⟩
  · rename_i hc
    cases h
    rw [if_neg hc]
    exact ⟨rfl, fun hlt => hlt⟩

theorem fileStart_ok {format : TorrentFormat} {pieceLength n m : Nat} {file : File}
    (h : fileStart format pieceLength file n = .ok m) :
    m = if format = .v2 ∧ file.length > 0 then up pieceLength n else n := by
  unfold fileStart at h
  split at h
  · rename_i hc
    rw [if_pos hc]
    exact (alignUp_ok h).1
  · rename_i hc
    cases h
    rw [if_neg hc]

theorem addFile_ok {format : TorrentFormat} {pieceLength : Nat} (hpos : 0 < pieceLength)
    {t t' : Totals} {file : File} (h : addFile format pieceLength t file = .ok t') :
    TotalsOf format pieceLength [file] t t' := by
  unfold addFile at h
  obtain ⟨paddingLength, hpadding, h⟩ := except_bind_ok h
  obtain ⟨totalLength, htotal, h⟩ := except_bind_ok h
  obtain ⟨first, hfirst, h⟩ := except_bind_ok h
  obtain ⟨pieceCount, hcount, h⟩ := except_bind_ok h
  obtain ⟨space, hspace, h⟩ := except_bind_ok h
  cases h
  obtain ⟨hpadding, hpaddingLt⟩ := addIf_ok hpadding
  obtain ⟨htotal, htotalLt⟩ := addIf_ok htotal
  obtain ⟨hcount, hcountLt⟩ := addIf_ok hcount
  obtain ⟨hspace, hspaceLt⟩ := checkedSum_ok hspace
  have hfirst := fileStart_ok hfirst
  refine ⟨?_, ?_, ?_, fun hv2 => ?_, fun h1 h2 _ h4 =>
    ⟨htotalLt h1, hpaddingLt h2, hspaceLt, hcountLt h4⟩⟩
  · show totalLength = _
    rw [htotal]
    by_cases hk : file.kind = .padding <;> simp [regularSum, regular, lengths, hk]
  · show paddingLength = _
    rw [hpadding]
    by_cases hk : file.kind = .padding <;> simp [paddingSum, hk]
  · show space = _
    rw [hspace, hfirst]
    by_cases hv2 : format = .v2
    · by_cases hlen : file.length > 0
      · simp [spaceEnd, lengths, layoutEnd, place, hv2, hlen]
      · have hzero : file.length = 0 := by omega
        simp [spaceEnd, lengths, layoutEnd, place, hv2, hzero]
    · simp [spaceEnd, lengths, hv2]
  · show pieceCount = _
    rw [hcount, divCeil_eq]
    by_cases hlen : file.length > 0
    · simp [lengths, hv2, hlen]
    · have hzero : file.length = 0 := by omega
      simp [lengths, hzero, Align.blocks_zero hpos]

theorem TotalsOf.cons {format : TorrentFormat} {pieceLength : Nat} {file : File} {rest : List File}
    {t u v : Totals} (h : TotalsOf format pieceLength [file] t u)
    (k : TotalsOf format pieceLength rest u v) :
    TotalsOf format pieceLength (file :: rest) t v := by
  refine ⟨?_, ?_, ?_, fun hv2 => ?_, fun h1 h2 h3 h4 => ?_⟩
  · rw [k.total, h.total]
    by_cases hk : file.kind = .padding <;> simp [regularSum, regular, lengths, hk, Nat.add_assoc]
  · rw [k.padding, h.padding]
    by_cases hk : file.kind = .padding <;> simp [paddingSum, hk, Nat.add_assoc]
  · rw [k.space, h.space]
    by_cases hv2 : format = .v2 <;> simp [spaceEnd, lengths, layoutEnd, hv2, Nat.add_assoc]
  · rw [k.count hv2, h.count hv2]
    simp [lengths, Nat.add_assoc]
  · obtain ⟨b1, b2, b3, b4⟩ := h.bound h1 h2 h3 h4
    exact k.bound b1 b2 b3 b4

/-- **The totals of the files.** -/
theorem totals_ok {format : TorrentFormat} {pieceLength : Nat} (hpos : 0 < pieceLength) :
    ∀ {files : List File} {t t' : Totals}, totals format pieceLength files t = .ok t' →
    TotalsOf format pieceLength files t t'
  | [], t, t', h => by
    cases h
    refine ⟨rfl, rfl, ?_, fun _ => rfl, fun h1 h2 h3 h4 => ⟨h1, h2, h3, h4⟩⟩
    simp [spaceEnd, lengths, layoutEnd]
  | file :: rest, t, t', h => by
    rw [totals] at h
    obtain ⟨mid, hmid, h⟩ := except_bind_ok h
    exact (addFile_ok hpos hmid).cons (totals_ok hpos h)

theorem sum_lengths : ∀ files : List File,
    (lengths files).sum = regularSum files + paddingSum files
  | [] => rfl
  | file :: rest => by
    have ih := sum_lengths rest
    by_cases hk : file.kind = .padding
    · simp only [regularSum, paddingSum, regular, lengths] at ih ⊢
      simp [hk, ih]
      omega
    · simp only [regularSum, paddingSum, regular, lengths] at ih ⊢
      simp [hk, ih]
      omega

/-- **The totals of a parsed torrent belong together.** For every dictionary that is parsed: the totals are
the sums over its files, and below `2 ^ 64`; the number of pieces is that of the piece space; the files fit
into the piece space, and fill it for v1 and hybrid; for v2 the piece space is the end of the layout in
which every file that is not empty starts at a multiple of the piece length and has its pieces for
itself. -/
theorem parsed_totals (decoder : InfoDecoder) (info : Bytes) (p : Parsed)
    (h : (analyze decoder info).parsed = some p) :
    p.totalLength = regularSum p.files ∧ p.paddingLength = paddingSum p.files ∧
    p.fileCount = (regular p.files).length ∧
    p.totalLength < 2 ^ 64 ∧ p.paddingLength < 2 ^ 64 ∧ p.pieceSpaceLength < 2 ^ 64 ∧
    p.pieceCount < 2 ^ 64 ∧
    p.pieceCount = divCeil p.pieceSpaceLength p.pieceLength ∧
    p.totalLength + p.paddingLength ≤ p.pieceSpaceLength ∧
    (p.format ≠ .v2 → p.totalLength + p.paddingLength = p.pieceSpaceLength) ∧
    (p.format = .v2 →
      p.pieceSpaceLength = layoutEnd p.pieceLength (lengths p.files) 0 ∧
      (∀ i, start p.pieceLength (lengths p.files) i % p.pieceLength = 0) ∧
      (∀ i n, (lengths p.files)[i]? = some n → 0 < n →
        start p.pieceLength (lengths p.files) i + n ≤ p.pieceSpaceLength) ∧
      ∀ i j n, i < j → (lengths p.files)[i]? = some n →
        start p.pieceLength (lengths p.files) i / p.pieceLength + divCeil n p.pieceLength ≤
          start p.pieceLength (lengths p.files) j / p.pieceLength) := by
  obtain ⟨d, budget, version, q, -, -, -, hbody, hparsed⟩ :=
    analyze_valid (.inr (by rw [h]; rfl))
  rw [h] at hparsed
  cases hparsed
  obtain ⟨t, -, hok, -, htotals, hcount, -, hformat, htotal, hpadding, hspace, hfiles⟩ :=
    parseBody_ok hbody
  rw [← hformat] at hok htotals hcount
  have hpos := pieceLength_pos hok
  have ht := totals_ok hpos htotals
  obtain ⟨b1, b2, b3, b4⟩ := ht.bound (by norm_num) (by norm_num) (by norm_num) (by norm_num)
  have hsum := sum_lengths p.files
  have h1 : p.totalLength = regularSum p.files := by rw [htotal, ht.total, Nat.zero_add]
  have h2 : p.paddingLength = paddingSum p.files := by rw [hpadding, ht.padding, Nat.zero_add]
  have h3 : p.pieceSpaceLength = spaceEnd p.format p.pieceLength p.files 0 := by
    rw [hspace, ht.space]
  have hcountP : p.fileCount = (regular p.files).length := by
    rw [hfiles, List.countP_eq_length_filter]
    rfl
  by_cases hv2 : p.format = .v2
  · have hend : p.pieceSpaceLength = layoutEnd p.pieceLength (lengths p.files) 0 := by
      rw [h3]
      unfold spaceEnd
      rw [if_pos hv2]
    have hpieces : p.pieceCount = ((lengths p.files).map (blocks p.pieceLength)).sum := by
      unfold parsePieceCount at hcount
      rw [if_pos hv2] at hcount
      have hc := Except.ok.inj hcount
      rw [← hc, ht.count hv2, Nat.zero_add]
    have hlt : p.pieceCount < 2 ^ 64 := by
      rw [hpieces, ← Nat.zero_add ((lengths p.files).map (blocks p.pieceLength)).sum]
      exact (ht.count hv2) ▸ b4
    refine ⟨h1, h2, hcountP, htotal ▸ b1, hpadding ▸ b2, hspace ▸ b3, hlt, ?_, ?_,
      fun hne => absurd hv2 hne, fun _ => ⟨hend, ?_, ?_, ?_⟩⟩
    · rw [hpieces, hend, divCeil_eq, Align.blocks_layoutEnd hpos]
    · rw [h1, h2, ← hsum, hend]
      have hle := @Align.sum_le_layoutEnd p.pieceLength (lengths p.files) 0
      omega
    · intro i
      rw [Align.start_eq hpos, Nat.mul_mod_right]
    · intro i n hn hne
      rw [hend]
      exact Align.start_add_le hn hne
    · intro i j n hij hn
      have hle := Align.start_blocks hpos hij hn
      rw [divCeil_eq, Align.start_eq hpos, Align.start_eq hpos, Nat.mul_div_cancel_left _ hpos,
        Nat.mul_div_cancel_left _ hpos]
      rw [Align.start_eq hpos, Align.start_eq hpos, ← Nat.mul_add] at hle
      exact Nat.le_of_mul_le_mul_left hle hpos
  · have hend : p.pieceSpaceLength = (lengths p.files).sum := by
      rw [h3]
      unfold spaceEnd
      rw [if_neg hv2, Nat.zero_add]
    unfold parsePieceCount at hcount
    rw [if_neg hv2] at hcount
    obtain ⟨pieces, -, -, hnumber, hblocks, -⟩ := checkV1_ok hcount
    have hfill : p.totalLength + p.paddingLength = p.pieceSpaceLength := by
      rw [h1, h2, hend, hsum]
    have hpieces : p.pieceCount = divCeil p.pieceSpaceLength p.pieceLength := by
      rw [hblocks, divCeil_eq, hend]
      rfl
    have hlt : p.pieceCount < 2 ^ 64 := by
      rw [hpieces]
      exact lt_of_le_of_lt (Align.blocks_le hpos _) (hspace ▸ b3)
    exact ⟨h1, h2, hcountP, htotal ▸ b1, hpadding ▸ b2, hspace ▸ b3, hlt, hpieces, hfill.le,
      fun _ => hfill, fun hv => absurd hv hv2⟩

/-- The totals of the small hybrid. -/
theorem parsed_totals_small : ∃ p, (analyze (smallDecoder smallHybrid)
    smallHybrid.encode).parsed = some p ∧
      p.totalLength + p.paddingLength ≤ p.pieceSpaceLength := by
  have hsome : (analyze (smallDecoder smallHybrid) smallHybrid.encode).parsed.isSome = true := by
    decide +kernel
  obtain ⟨p, hp⟩ := Option.isSome_iff_exists.1 hsome
  exact ⟨p, hp, (parsed_totals _ _ p hp).2.2.2.2.2.2.2.2.1⟩

end BtSniffer.Info

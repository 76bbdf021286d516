import BtSniffer.Metainfo.Analyze

/-!
# Reasons of an analysis

The texts with which an analysis can end.

* `REASONS` — what the parser reports before it compares paths.
* `Reports` — every error of a computation is one of them; `parseBody_error` — only the check of the
  paths adds two.
* `analyze_cases` — the ways an analysis ends.
-/

set_option autoImplicit false

namespace BtSniffer.Info

/-- What is reported before the paths are compared. -/
def REASONS : List String :=
  ["semantic_capacity", "integer_range", "invalid_bencode", "duplicate_key", "dictionary_type",
    "bytes_type", "integer_type", "missing_field", "negative_length", "path_type", "empty_path",
    "invalid_path", "metadata_size", "missing_dictionary", "trailing_data",
    "unsupported_meta_version", "piece_length", "private_flag", "empty_file_tree", "hybrid_layout",
    "length_overflow", "file_attributes", "symlink_length", "file_sha1_length", "missing_path",
    "file_layout", "piece_count", "file_tree_conflict", "v2_padding_file", "pieces_root"]

/-- Every error is one of the reasons. -/
def Reports {α : Type} (x : Except String α) : Prop := ∀ e, x = .error e → e ∈ REASONS

section Rules

variable {α β : Type}

theorem reports_ok (a : α) : Reports (.ok a : Except String α) := fun _ h => by cases h

theorem reports_pure (a : α) : Reports (pure a : Except String α) := reports_ok a

theorem reports_error {e : String} (h : e ∈ REASONS) : Reports (.error e : Except String α) := by
  intro e' he
  cases he
  exact h

theorem Reports.bind {x : Except String α} {f : α → Except String β} (hx : Reports x)
    (hf : ∀ a, Reports (f a)) : Reports (x >>= f) := by
  cases x with
  | error e => exact reports_error (hx e rfl)
  | ok a => exact hf a

/-- The error of a sequence is the error of one part. -/
theorem except_bind_error {x : Except String α} {f : α → Except String β} {e : String}
    (h : (x >>= f) = .error e) : x = .error e ∨ ∃ a, x = .ok a ∧ f a = .error e := by
  cases x with
  | error e' =>
    cases h
    exact .inl rfl
  | ok a => exact .inr ⟨a, rfl, h⟩

theorem Reports.map {x : Except String α} (hx : Reports x) (f : α → β) : Reports (x.map f) := by
  cases x with
  | error e => exact reports_error (hx e rfl)
  | ok a => exact reports_ok _

theorem reports_ite {c : Prop} [Decidable c] {x y : Except String α} (hx : Reports x)
    (hy : Reports y) : Reports (if c then x else y) := by
  split
  · exact hx
  · exact hy

end Rules

/-! ## Accessors -/

theorem charge_reports (budget amount : Nat) : Reports (charge budget amount) :=
  reports_ite (reports_ok _) (reports_error (by simp [REASONS]))

theorem dictionary_reports (v : Value) : Reports (dictionary v) := by
  cases v with
  | dict d => exact reports_ok d
  | _ => exact reports_error (by simp [REASONS])

theorem bytes_reports (v : Value) : Reports (bytes v) := by
  cases v with
  | bytes b => exact reports_ok b
  | _ => exact reports_error (by simp [REASONS])

theorem integer_reports (v : Value) : Reports (integer v) := by
  cases v with
  | integer n => exact reports_ok n
  | _ => exact reports_error (by simp [REASONS])

theorem required_reports (d : Dict) (k : Bytes) : Reports (required d k) := by
  unfold required
  split
  · exact reports_ok _
  · exact reports_error (by simp [REASONS])

theorem length_reports (d : Dict) (k : Bytes) : Reports (length d k) :=
  (required_reports d k).bind (fun v => (integer_reports v).bind (fun _ =>
    reports_ite (reports_error (by simp [REASONS])) (reports_pure _)))

theorem optionalBytes_reports (d : Dict) (k : Bytes) : Reports (optionalBytes d k) := by
  unfold optionalBytes
  split
  · exact (bytes_reports _).map some
  · exact reports_ok _

theorem checkedSum_reports (a b : Nat) : Reports (checkedSum a b) :=
  reports_ite (reports_ok _) (reports_error (by simp [REASONS]))

/-! ## Values -/

mutual

theorem value_reports : ∀ (o : Object) (budget : Nat), Reports (value o budget)
  | .bytes content, budget => by
    rw [value]
    exact (charge_reports budget 96).bind (fun _ => reports_pure _)
  | .integer text, budget => by
    rw [value]
    refine (charge_reports budget 96).bind (fun left => ?_)
    split
    · exact reports_pure _
    · exact reports_error (by simp [REASONS])
  | .list items ended, budget => by
    rw [value]
    exact (charge_reports budget 96).bind (fun left =>
      (values_reports items ended left).bind (fun _ => reports_pure _))
  | .dict pairs ended, budget => by
    rw [value]
    exact (charge_reports budget 96).bind (fun left =>
      (entries_reports pairs ended [] left).bind (fun _ => reports_pure _))

theorem values_reports : ∀ (items : List Object) (ended : Bool) (budget : Nat),
    Reports (values items ended budget)
  | [], ended, budget => by
    rw [values]
    exact reports_ite (reports_ok _) (reports_error (by simp [REASONS]))
  | item :: rest, ended, budget => by
    rw [values]
    exact (value_reports item budget).bind (fun r =>
      (values_reports rest ended r.2).bind (fun _ => reports_pure _))

theorem entries_reports : ∀ (pairs : List (Bytes × Object)) (ended : Bool) (d : Dict) (budget : Nat),
    Reports (entries pairs ended d budget)
  | [], ended, d, budget => by
    rw [entries]
    exact reports_ite (reports_ok _) (reports_error (by simp [REASONS]))
  | (k, item) :: rest, ended, d, budget => by
    rw [entries]
    refine (value_reports item budget).bind (fun r => ?_)
    exact reports_ite (reports_error (by simp [REASONS])) (entries_reports rest ended _ r.2)

end

/-! ## Files -/

theorem segment_reports (b : Bytes) : Reports (segment b) :=
  reports_ite (reports_error (by simp [REASONS])) (reports_ok _)

theorem pathItems_reports : ∀ items : List Value, Reports (items.mapM pathItem)
  | [] => reports_ok _
  | item :: rest => by
    rw [List.mapM_cons]
    have hitem : Reports (pathItem item) := (bytes_reports item).bind (fun b =>
      (segment_reports b).bind (fun _ => reports_pure _))
    exact hitem.bind (fun _ => (pathItems_reports rest).bind (fun _ => reports_pure _))

theorem path_reports (v : Value) : Reports (path v) := by
  cases v with
  | list items => exact reports_ite (reports_error (by simp [REASONS])) (pathItems_reports items)
  | _ => exact reports_error (by simp [REASONS])

theorem optionalPath_reports (v : Option Value) : Reports (optionalPath v) := by
  cases v with
  | some v => exact (path_reports v).map some
  | none => exact reports_ok _

theorem file_reports (d : Dict) (rawPath : List Bytes) (shown : Option (List Bytes)) (budget : Nat) :
    Reports (file d rawPath shown budget) := by
  have hlength : ∀ kind, Reports (fileLength d kind) :=
    fun _ => reports_ite (reports_ok _) (length_reports d _)
  have htarget : ∀ kind, Reports (fileTarget d kind) := fun _ =>
    reports_ite ((required_reports d _).bind (fun v =>
      (path_reports v).bind (fun _ => reports_pure _))) (reports_ok _)
  have hsha1 : Reports (fileSha1 d) := by
    refine (optionalBytes_reports d _).bind (fun b => ?_)
    cases b with
    | some b => exact reports_ite (reports_pure _) (reports_error (by simp [REASONS]))
    | none => exact reports_pure _
  refine (optionalBytes_reports d _).bind (fun attr => ?_)
  refine reports_ite (reports_error (by simp [REASONS])) ((hlength _).bind (fun length => ?_))
  refine reports_ite (reports_error (by simp [REASONS])) ((htarget _).bind (fun rawTarget => ?_))
  exact hsha1.bind (fun _ => (charge_reports _ _).bind (fun _ =>
    (charge_reports _ _).bind (fun _ => reports_pure _)))

theorem v1Items_reports (displayName : Bytes) : ∀ (items : List Value) (budget : Nat),
    Reports (v1Items displayName items budget)
  | [], budget => reports_ok _
  | item :: rest, budget => by
    have hitem : Reports (v1Item displayName item budget) := by
      refine (dictionary_reports item).bind (fun f => ?_)
      refine (optionalBytes_reports f _).bind (fun attr => ?_)
      refine (optionalPath_reports _).bind (fun raw => ?_)
      exact reports_ite (reports_error (by simp [REASONS]))
        ((optionalPath_reports _).bind (fun _ => file_reports _ _ _ _))
    rw [v1Items]
    exact hitem.bind (fun f => (v1Items_reports displayName rest f.2).bind (fun _ => reports_pure _))

theorem v1Files_reports (d : Dict) (budget : Nat) : Reports (v1Files d budget) := by
  refine (required_reports d _).bind (fun v => (bytes_reports v).bind (fun rawName => ?_))
  refine (segment_reports rawName).bind (fun _ => ?_)
  refine (optionalBytes_reports d _).bind (fun utf8 => ?_)
  simp only
  split
  · exact reports_ite (v1Items_reports _ _ _) (reports_error (by simp [REASONS]))
  · exact reports_error (by simp [REASONS])
  · exact (file_reports _ _ _ _).bind (fun _ => reports_pure _)

theorem lengthSum_reports : ∀ (files : List File) (sum : Nat), Reports (lengthSum files sum)
  | [], sum => reports_ok _
  | f :: rest, sum => by
    rw [lengthSum]
    exact (checkedSum_reports _ _).bind (fun sum => lengthSum_reports rest sum)

theorem checkV1_reports (d : Dict) (files : List File) (pieceLength : Nat) :
    Reports (checkV1 d files pieceLength) :=
  (required_reports d _).bind (fun v => (bytes_reports v).bind (fun _ =>
    (lengthSum_reports files 0).bind (fun _ =>
      reports_ite (reports_error (by simp [REASONS])) (reports_pure _))))

theorem leaf_reports (properties : Dict) (path : List Bytes) (budget : Nat) :
    Reports (leaf properties path budget) :=
  (file_reports _ _ _ _).bind (fun f => reports_ite (reports_error (by simp [REASONS]))
    ((optionalBytes_reports _ _).bind (fun _ =>
      reports_ite (reports_error (by simp [REASONS])) (reports_pure _))))

mutual

theorem tree_reports : ∀ (v : Value) (w : Walk), Reports (tree v w)
  | .bytes _, w => by
    rw [tree]
    · exact reports_error (by simp [REASONS])
    · simp
  | .integer _, w => by
    rw [tree]
    · exact reports_error (by simp [REASONS])
    · simp
  | .list _, w => by
    rw [tree]
    · exact reports_error (by simp [REASONS])
    · simp
  | .dict d, w => by
    rw [tree]
    split
    · exact reports_ite (reports_error (by simp [REASONS]))
        ((dictionary_reports _).bind (fun properties =>
          (leaf_reports _ _ _).bind (fun _ => reports_pure _)))
    · exact treeEntries_reports d w

theorem treeEntries_reports : ∀ (es : List (Bytes × Value)) (w : Walk), Reports (treeEntries es w)
  | [], w => by
    rw [treeEntries]
    exact reports_ok w
  | (name, child) :: rest, w => by
    rw [treeEntries]
    exact (segment_reports name).bind (fun _ => (tree_reports child _).bind (fun mid =>
      treeEntries_reports rest _))

end

theorem v2Files_reports (d : Dict) (budget : Nat) : Reports (v2Files d budget) :=
  (required_reports d _).bind (fun root => (tree_reports root _).bind (fun w =>
    reports_ite (reports_error (by simp [REASONS])) (reports_pure _)))

/-! ## The analysis -/

theorem alignUp_reports (pieceLength n : Nat) : Reports (alignUp pieceLength n) :=
  checkedSum_reports _ _

theorem hybridLoop_reports (pieceLength : Nat) : ∀ (legacy v2 : List File) (offset v2End : Nat),
    Reports (hybridLoop pieceLength legacy v2 offset v2End)
  | [], v2, offset, v2End => by
    rw [hybridLoop]
    exact reports_ok _
  | file :: rest, v2, offset, v2End => by
    have hplace : Reports (hybridPlace pieceLength file offset v2End) :=
      reports_ite ((alignUp_reports _ _).bind (fun _ =>
        reports_ite (reports_error (by simp [REASONS])) (checkedSum_reports _ _))) (reports_ok _)
    rw [hybridLoop.eq_def]
    simp only
    refine reports_ite ((checkedSum_reports _ _).bind (fun offset =>
      hybridLoop_reports pieceLength rest v2 offset v2End)) ?_
    cases v2 with
    | nil => exact reports_error (by simp [REASONS])
    | cons other others =>
      refine hplace.bind (fun v2End => reports_ite (reports_error (by simp [REASONS])) ?_)
      exact (checkedSum_reports _ _).bind (fun offset =>
        hybridLoop_reports pieceLength rest others offset v2End)

theorem hybridFiles_reports (d : Dict) (files : List File) (pieceLength budget : Nat) :
    Reports (hybridFiles d files pieceLength budget) := by
  refine (v1Files_reports d budget).bind (fun legacy => ?_)
  refine (checkV1_reports d legacy.1 pieceLength).bind (fun _ => ?_)
  refine reports_ite (reports_error (by simp [REASONS])) ?_
  exact (hybridLoop_reports _ _ _ _ _).bind (fun _ => (alignUp_reports _ _).bind (fun _ =>
    reports_ite (reports_error (by simp [REASONS])) (reports_pure _)))

theorem totals_reports (format : TorrentFormat) (pieceLength : Nat) :
    ∀ (files : List File) (t : Totals), Reports (totals format pieceLength files t)
  | [], t => reports_ok t
  | file :: rest, t => by
    have haddIf : ∀ condition a b, Reports (addIf condition a b) :=
      fun _ _ _ => reports_ite (checkedSum_reports _ _) (reports_ok _)
    have hstart : ∀ n, Reports (fileStart format pieceLength file n) :=
      fun _ => reports_ite (alignUp_reports _ _) (reports_ok _)
    have hadd : Reports (addFile format pieceLength t file) :=
      (haddIf _ _ _).bind (fun _ => (haddIf _ _ _).bind (fun _ => (hstart _).bind (fun _ =>
        (haddIf _ _ _).bind (fun _ => (checkedSum_reports _ _).bind (fun _ => reports_pure _)))))
    rw [totals]
    exact hadd.bind (fun t => totals_reports format pieceLength rest t)

theorem parsePrivate_reports (d : Dict) : Reports (parsePrivate d) := by
  unfold parsePrivate
  split
  · exact reports_ok _
  · exact (integer_reports _).bind (fun _ => reports_ite (reports_pure _)
      (reports_ite (reports_pure _) (reports_error (by simp [REASONS]))))

theorem parseFiles_reports (d : Dict) (format : TorrentFormat) (pieceLength budget : Nat) :
    Reports (parseFiles d format pieceLength budget) := by
  have hversion : Reports (versionFiles d format budget) :=
    reports_ite (v1Files_reports d budget) (v2Files_reports d budget)
  exact hversion.bind (fun _ => reports_ite (hybridFiles_reports _ _ _ _) (reports_pure _))

theorem parseRoot_reports (decoder : InfoDecoder) (info : Bytes) :
    Reports (parseRoot decoder info) := by
  unfold parseRoot
  refine reports_ite (reports_error (by simp [REASONS])) ?_
  split
  · exact reports_error (by simp [REASONS])
  · exact reports_error (by simp [REASONS])
  · refine (value_reports _ _).bind (fun root => ?_)
    split
    · exact reports_error (by simp [REASONS])
    · exact reports_error (by simp [REASONS])
    · exact (dictionary_reports _).bind (fun _ => reports_pure _)

theorem parseVersion_reports (d : Dict) : Reports (parseVersion d) := by
  have hversion : Reports (metaVersion d) := by
    unfold metaVersion
    split
    · exact (integer_reports _).map some
    · exact reports_ok _
  exact hversion.bind (fun _ => reports_ite (reports_error (by simp [REASONS])) (reports_pure _))

/-- What `parseBody` computed when it succeeds. -/
theorem parseBody_ok {d : Dict} {format : TorrentFormat} {budget : Nat} {p : Parsed}
    (h : parseBody d format budget = .ok p) :
    ∃ t, length d (key "piece length") = .ok p.pieceLength ∧
      pieceLengthOk format p.pieceLength = true ∧
      parseFiles d format p.pieceLength budget = .ok p.files ∧
      totals format p.pieceLength p.files ⟨0, 0, 0, 0⟩ = .ok t ∧
      parsePieceCount d format p.files p.pieceLength t.pieceCount = .ok p.pieceCount ∧
      checkPaths p.files = .ok () ∧ p.format = format ∧ p.totalLength = t.totalLength ∧
      p.paddingLength = t.paddingLength ∧ p.pieceSpaceLength = t.pieceSpaceLength ∧
      p.fileCount = p.files.countP (fun f => f.kind ≠ .padding) := by
  unfold parseBody at h
  obtain ⟨utf8, -, h⟩ := except_bind_ok h
  obtain ⟨plain, -, h⟩ := except_bind_ok h
  obtain ⟨pieceLength, hlength, h⟩ := except_bind_ok h
  split at h
  · cases h
  · rename_i hok
    obtain ⟨isPrivate, -, h⟩ := except_bind_ok h
    obtain ⟨files, hfiles, h⟩ := except_bind_ok h
    obtain ⟨t, ht, h⟩ := except_bind_ok h
    obtain ⟨pieceCount, hcount, h⟩ := except_bind_ok h
    obtain ⟨u, hpaths, h⟩ := except_bind_ok h
    cases h
    exact ⟨t, hlength, by simpa using hok, hfiles, ht, hcount, hpaths, rfl, rfl, rfl, rfl, rfl⟩

/-- Where an error of `parseBody` comes from. -/
theorem parseBody_error {d : Dict} {format : TorrentFormat} {budget : Nat} {e : String}
    (h : parseBody d format budget = .error e) :
    e ∈ REASONS ∨ ∃ pieceLength files, parseFiles d format pieceLength budget = .ok files ∧
      checkPaths files = .error e := by
  unfold parseBody at h
  rcases except_bind_error h with h | ⟨utf8, -, h⟩
  · exact .inl (optionalBytes_reports d _ e h)
  rcases except_bind_error h with h | ⟨plain, -, h⟩
  · exact .inl (optionalBytes_reports d _ e h)
  rcases except_bind_error h with h | ⟨pieceLength, -, h⟩
  · exact .inl (length_reports d _ e h)
  split at h
  · cases h
    exact .inl (by simp [REASONS])
  rcases except_bind_error h with h | ⟨isPrivate, -, h⟩
  · exact .inl (parsePrivate_reports d e h)
  rcases except_bind_error h with h | ⟨files, hfiles, h⟩
  · exact .inl (parseFiles_reports d format pieceLength budget e h)
  rcases except_bind_error h with h | ⟨t, -, h⟩
  · exact .inl (totals_reports format pieceLength files _ e h)
  rcases except_bind_error h with h | ⟨pieceCount, -, h⟩
  · have hcount : Reports (parsePieceCount d format files pieceLength t.pieceCount) :=
      reports_ite (reports_ok _) (checkV1_reports d files pieceLength)
    exact .inl (hcount e h)
  rcases except_bind_error h with h | ⟨u, -, h⟩
  · exact .inr ⟨pieceLength, files, hfiles, h⟩
  · cases h

/-- The three ways an analysis can end after its format is known, or before. -/
theorem analyze_cases (decoder : InfoDecoder) (info : Bytes) :
    (∃ e, e ∈ REASONS ∧ analyze decoder info = rejected .unknown e) ∨
      ∃ d budget version, parseRoot decoder info = .ok (d, budget) ∧
        parseVersion d = .ok version ∧ (analyze decoder info).format = formatOf d version ∧
        ((∃ e, parseBody d (formatOf d version) budget = .error e ∧
            analyze decoder info = rejected (formatOf d version) e) ∨
          ∃ p, parseBody d (formatOf d version) budget = .ok p ∧
            analyze decoder info = ⟨formatOf d version, .valid, none, some p⟩) := by
  unfold analyze
  cases hroot : parseRoot decoder info with
  | error e => exact .inl ⟨e, parseRoot_reports decoder info e hroot, rfl⟩
  | ok r =>
    obtain ⟨d, budget⟩ := r
    simp only
    cases hversion : parseVersion d with
    | error e => exact .inl ⟨e, parseVersion_reports d e hversion, rfl⟩
    | ok version =>
      refine .inr ⟨d, budget, version, rfl, hversion, ?_⟩
      simp only
      cases hbody : parseBody d (formatOf d version) budget with
      | error e => exact ⟨rfl, .inl ⟨e, rfl, rfl⟩⟩
      | ok p => exact ⟨rfl, .inr ⟨p, rfl, rfl⟩⟩

end BtSniffer.Info

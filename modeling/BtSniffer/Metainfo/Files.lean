import BtSniffer.Metainfo.Value

/-!
# Files of an info dictionary

Reference model of `path`, `segment`, `display`, `file`, `v1_files`, `check_v1` and `tree` in
`src/collection/metainfo.rs`.

* `utf8Chunk` is a step of `String::from_utf8_lossy`: the bytes of one character, or the longest start of
  one, which a replacement character stands for.
* `tree` passes its path stack, its output and its budget; a budget that is used up is an error.
-/

set_option autoImplicit false

namespace BtSniffer.Info

open Bencode

/-! ## Text -/

/-- A continuation byte. -/
def continuation (b : UInt8) : Bool := decide (0x80 ≤ b.toNat ∧ b.toNat ≤ 0xBF)

/-- The second byte fits a first byte of a sequence of three. -/
def secondOfThree (a b : Nat) : Bool :=
  decide ((a = 0xE0 ∧ 0xA0 ≤ b ∧ b ≤ 0xBF) ∨ (0xE1 ≤ a ∧ a ≤ 0xEC ∧ 0x80 ≤ b ∧ b ≤ 0xBF) ∨
    (a = 0xED ∧ 0x80 ≤ b ∧ b ≤ 0x9F) ∨ (0xEE ≤ a ∧ a ≤ 0xEF ∧ 0x80 ≤ b ∧ b ≤ 0xBF))

/-- The second byte fits a first byte of a sequence of four. -/
def secondOfFour (a b : Nat) : Bool :=
  decide ((a = 0xF0 ∧ 0x90 ≤ b ∧ b ≤ 0xBF) ∨ (0xF1 ≤ a ∧ a ≤ 0xF3 ∧ 0x80 ≤ b ∧ b ≤ 0xBF) ∨
    (a = 0xF4 ∧ 0x80 ≤ b ∧ b ≤ 0x8F))

/-- The first character of a text, `none` if its bytes are not one, and how many bytes it takes. -/
def utf8Chunk : Bytes → Option Char × Nat
  | [] => (none, 0)
  | a :: rest =>
    let n := a.toNat
    if n < 0x80 then (some (Char.ofNat n), 1)
    else if 0xC2 ≤ n ∧ n ≤ 0xDF then
      match rest with
      | b :: _ =>
        if continuation b then (some (Char.ofNat (n % 32 * 64 + b.toNat % 64)), 2) else (none, 1)
      | [] => (none, 1)
    else if 0xE0 ≤ n ∧ n ≤ 0xEF then
      match rest with
      | b :: c :: _ =>
        if !secondOfThree n b.toNat then (none, 1)
        else if !continuation c then (none, 2)
        else (some (Char.ofNat (n % 16 * 4096 + b.toNat % 64 * 64 + c.toNat % 64)), 3)
      | [b] => (none, if secondOfThree n b.toNat then 2 else 1)
      | [] => (none, 1)
    else if 0xF0 ≤ n ∧ n ≤ 0xF4 then
      match rest with
      | b :: c :: d :: _ =>
        if !secondOfFour n b.toNat then (none, 1)
        else if !continuation c then (none, 2)
        else if !continuation d then (none, 3)
        else (some (Char.ofNat
          (n % 8 * 262144 + b.toNat % 64 * 4096 + c.toNat % 64 * 64 + d.toNat % 64)), 4)
      | [b, c] => (none, if secondOfFour n b.toNat then (if continuation c then 3 else 2) else 1)
      | [b] => (none, if secondOfFour n b.toNat then 2 else 1)
      | [] => (none, 1)
    else (none, 1)

/-- The characters of a text, `none` where there is a replacement; `fuel` is its length. -/
def utf8Chars : Nat → Bytes → List (Option Char)
  | _, [] => []
  | 0, _ :: _ => []
  | fuel + 1, b :: rest =>
    let r := utf8Chunk (b :: rest)
    r.1 :: utf8Chars fuel ((b :: rest).drop r.2)

/-- `std::str::from_utf8(bytes).is_ok()`. -/
def validUtf8 (content : Bytes) : Bool := (utf8Chars content.length content).all Option.isSome

/-- `char::is_control`. -/
def isControl (c : Char) : Bool := decide (c.toNat < 0x20 ∨ (0x7F ≤ c.toNat ∧ c.toNat ≤ 0x9F))

/-- A character as `display` writes it. -/
def displayChar (c : Char) : List Char :=
  if isControl c then ['\\', 'u', '{'] ++ Nat.toDigits 16 c.toNat ++ ['}'] else [c]

/-- `display`. -/
def display (content : Bytes) : String × Bool :=
  (String.ofList ((utf8Chars content.length content).flatMap
    (fun c => displayChar (c.getD (Char.ofNat 0xFFFD)))), !validUtf8 content)

/-- `display_path`. -/
def displayPath (parts : List Bytes) : String × Bool :=
  ("/".intercalate (parts.map (fun part => (display part).1)),
    parts.any (fun part => (display part).2))

/-- `observation::hex`. -/
def hex (content : Bytes) : String :=
  String.ofList (content.flatMap (fun b =>
    [Nat.digitChar (b.toNat / 16), Nat.digitChar (b.toNat % 16)]))

/-! ## Paths -/

/-- `segment`. -/
def segment (b : Bytes) : Except String Unit :=
  if b = [] ∨ b = [46] ∨ b = [46, 46] ∨ 47 ∈ b ∨ 92 ∈ b ∨ 0 ∈ b then .error "invalid_path" else .ok ()

/-- One item of a path. -/
def pathItem (v : Value) : Except String Bytes := do
  let b ← bytes v
  segment b
  pure b

/-- `path`. -/
def path : Value → Except String (List Bytes)
  | .list items => if items.isEmpty then .error "empty_path" else items.mapM pathItem
  | _ => .error "path_type"

/-- `d.get(key).map(path).transpose()`. -/
def optionalPath (v : Option Value) : Except String (Option (List Bytes)) :=
  match v with
  | some v => (path v).map some
  | none => .ok none

/-! ## Files -/

/-- The `kind` of a file. -/
inductive FileKind where
  | padding
  | symlink
  | file
  deriving DecidableEq, Repr

/-- `TorrentFile`. -/
structure File where
  path : Option String
  length : Nat
  encodingLossy : Bool
  kind : FileKind
  hidden : Bool
  executable : Bool
  symlinkPath : Option String
  sha1 : Option String
  rawPath : List Bytes
  rawTarget : Option (List Bytes)
  deriving DecidableEq, Repr

/-- The kind that `attr` gives. -/
def kindOf (attr : Bytes) : FileKind :=
  if 112 ∈ attr then .padding else if 108 ∈ attr then .symlink else .file

/-- The length of a file; a symlink need not have one. -/
def fileLength (d : Dict) (kind : FileKind) : Except String Nat :=
  if kind = .symlink ∧ !d.containsKey (key "length") then .ok 0 else length d (key "length")

/-- The target of a symlink. -/
def fileTarget (d : Dict) (kind : FileKind) : Except String (Option (List Bytes)) :=
  if kind = .symlink then do
    let target ← path (← required d (key "symlink path"))
    pure (some target)
  else .ok none

/-- The SHA-1 of a file, in hexadecimal digits. -/
def fileSha1 (d : Dict) : Except String (Option String) := do
  match ← optionalBytes d (key "sha1") with
  | some b => if b.length = 20 then pure (some (hex b)) else .error "file_sha1_length"
  | none => pure none

/-- The number of bytes of a path. -/
def pathSize (p : List Bytes) : Nat := (p.map List.length).sum

/-- What `file` charges. -/
def fileCost (rawPath : List Bytes) (rawTarget : Option (List Bytes)) : Nat :=
  256 + rawPath.length * 32 + pathSize rawPath * 8 + (rawTarget.map (fun p => pathSize p * 8)).getD 0

/-- What `file` charges for the shown path. -/
def shownCost (shown : Option (List Bytes)) : Nat :=
  (shown.map (fun p => (p.map (fun s => s.length + 1)).sum * 2)).getD 0

/-- `file`. -/
def file (d : Dict) (rawPath : List Bytes) (shown : Option (List Bytes)) (budget : Nat) :
    Except String (File × Nat) := do
  let attr := (← optionalBytes d (key "attr")).getD []
  let kind := kindOf attr
  if 112 ∈ attr ∧ 108 ∈ attr then .error "file_attributes"
  else
    let length ← fileLength d kind
    if kind = .symlink ∧ length ≠ 0 then .error "symlink_length"
    else
      let rawTarget ← fileTarget d kind
      let sha1 ← fileSha1 d
      let budget ← charge budget (fileCost rawPath rawTarget)
      let budget ← charge budget (shownCost shown)
      pure ({ path := shown.map (fun p => (displayPath p).1)
              length := length
              encodingLossy := (shown.map (fun p => (displayPath p).2)).getD false
              kind := kind
              hidden := decide (104 ∈ attr)
              executable := decide (120 ∈ attr)
              symlinkPath := rawTarget.map (fun p => (displayPath p).1)
              sha1 := sha1
              rawPath := rawPath
              rawTarget := rawTarget }, budget)

/-- One item of `files`. -/
def v1Item (displayName : Bytes) (item : Value) (budget : Nat) : Except String (File × Nat) := do
  let f ← dictionary item
  let padding := (← optionalBytes f (key "attr")).any (fun a => decide (112 ∈ a))
  let raw ← optionalPath ((f.get (key "path")).or (f.get (key "path.utf-8")))
  if raw.isNone ∧ !padding then .error "missing_path"
  else
    let utf8 ← optionalPath (f.get (key "path.utf-8"))
    let preferred := (utf8.filter (fun p => p.all validUtf8)).or raw
    file f (raw.getD []) (preferred.map (fun p => displayName :: p)) budget

/-- The loop of `v1_files`. -/
def v1Items (displayName : Bytes) : List Value → Nat → Except String (List File × Nat)
  | [], budget => .ok ([], budget)
  | item :: rest, budget => do
    let f ← v1Item displayName item budget
    let r ← v1Items displayName rest f.2
    pure (f.1 :: r.1, r.2)

/-- `v1_files`. -/
def v1Files (d : Dict) (budget : Nat) : Except String (List File × Nat) := do
  let rawName ← bytes (← required d (key "name"))
  segment rawName
  let displayName := ((← optionalBytes d (key "name.utf-8")).filter validUtf8).getD rawName
  match d.get (key "files") with
  | some (.list items) =>
    if !d.containsKey (key "length") ∧ !items.isEmpty then v1Items displayName items budget
    else .error "file_layout"
  | some _ => .error "file_layout"
  | none => do
    let r ← file d [rawName] (some [displayName]) budget
    pure ([r.1], r.2)

/-- `u64::checked_add`. -/
def checkedSum (a b : Nat) : Except String Nat :=
  if a + b < 2 ^ 64 then .ok (a + b) else .error "length_overflow"

/-- The sum of the lengths in `check_v1`. -/
def lengthSum : List File → Nat → Except String Nat
  | [], sum => .ok sum
  | f :: rest, sum => do
    let sum ← checkedSum sum f.length
    lengthSum rest sum

/-- `u64::div_ceil`. -/
def divCeil (n d : Nat) : Nat := (n + d - 1) / d

/-- `check_v1`. -/
def checkV1 (d : Dict) (files : List File) (pieceLength : Nat) : Except String Nat := do
  let pieces ← bytes (← required d (key "pieces"))
  let total ← lengthSum files 0
  if pieces.length % 20 ≠ 0 ∨ pieces.length / 20 ≠ divCeil total pieceLength then
    .error "piece_count"
  else pure (pieces.length / 20)

/-! ## The file tree -/

/-- A leaf of `tree`: the file of its properties. -/
def leaf (properties : Dict) (path : List Bytes) (budget : Nat) : Except String (File × Nat) := do
  let f ← file properties path (some path) budget
  if f.1.kind = .padding then .error "v2_padding_file"
  else
    let root ← optionalBytes properties (key "pieces root")
    if (f.1.length > 0 ∧ root.isNone) ∨ root.any (fun r => r.length != 32) then
      .error "pieces_root"
    else pure f

/-- The state of `tree`: its path stack, its output and its budget. -/
structure Walk where
  path : List Bytes
  out : List File
  budget : Nat

mutual

/-- `tree`, on a value that has to be a dictionary. -/
def tree : Value → Walk → Except String Walk
  | .dict d, w =>
    match Dict.get d [] with
    | some properties =>
      if w.path = [] ∨ d.length ≠ 1 then .error "file_tree_conflict"
      else do
        let f ← leaf (← dictionary properties) w.path w.budget
        pure { w with out := w.out ++ [f.1], budget := f.2 }
    | none => treeEntries d w
  | _, _ => .error "dictionary_type"

/-- The loop of `tree` over the entries of a directory. -/
def treeEntries : List (Bytes × Value) → Walk → Except String Walk
  | [], w => .ok w
  | (name, child) :: rest, w => do
    segment name
    let w ← tree child { w with path := w.path ++ [name] }
    treeEntries rest { w with path := w.path.dropLast }

end

/-! ## What a file is -/

/-- The file that `file` makes of what it read. -/
def fileOf (attr : Bytes) (length : Nat) (rawTarget : Option (List Bytes)) (sha1 : Option String)
    (rawPath : List Bytes) (shown : Option (List Bytes)) : File where
  path := shown.map (fun p => (displayPath p).1)
  length := length
  encodingLossy := (shown.map (fun p => (displayPath p).2)).getD false
  kind := kindOf attr
  hidden := decide (104 ∈ attr)
  executable := decide (120 ∈ attr)
  symlinkPath := rawTarget.map (fun p => (displayPath p).1)
  sha1 := sha1
  rawPath := rawPath
  rawTarget := rawTarget

/-- What `file` read when it succeeds; none of it depends on the budget. -/
theorem file_ok {d : Dict} {rawPath : List Bytes} {shown : Option (List Bytes)} {budget : Nat}
    {r : File × Nat} (h : file d rawPath shown budget = .ok r) :
    ∃ attr length rawTarget sha1, optionalBytes d (key "attr") = .ok attr ∧
      fileLength d (kindOf (attr.getD [])) = .ok length ∧
      fileTarget d (kindOf (attr.getD [])) = .ok rawTarget ∧ fileSha1 d = .ok sha1 ∧
      r.1 = fileOf (attr.getD []) length rawTarget sha1 rawPath shown := by
  unfold file at h
  obtain ⟨attr, hattr, h⟩ := except_bind_ok h
  simp only at h
  split at h
  · cases h
  · obtain ⟨length, hlength, h⟩ := except_bind_ok h
    split at h
    · cases h
    · obtain ⟨rawTarget, htarget, h⟩ := except_bind_ok h
      obtain ⟨sha1, hsha1, h⟩ := except_bind_ok h
      obtain ⟨left, -, h⟩ := except_bind_ok h
      obtain ⟨rest, -, h⟩ := except_bind_ok h
      cases h
      exact ⟨attr, length, rawTarget, sha1, hattr, hlength, htarget, hsha1, rfl⟩

theorem file_rawPath {d : Dict} {rawPath : List Bytes} {shown : Option (List Bytes)} {budget : Nat}
    {r : File × Nat} (h : file d rawPath shown budget = .ok r) : r.1.rawPath = rawPath := by
  obtain ⟨attr, length, rawTarget, sha1, -, -, -, -, hr⟩ := file_ok h
  rw [hr]
  rfl

/-- The budget does not change the file. -/
theorem file_same {d : Dict} {rawPath : List Bytes} {shown : Option (List Bytes)} {b c : Nat}
    {r q : File × Nat} (hr : file d rawPath shown b = .ok r) (hq : file d rawPath shown c = .ok q) :
    r.1 = q.1 := by
  obtain ⟨attr, length, rawTarget, sha1, hattr, hlength, htarget, hsha1, hr⟩ := file_ok hr
  obtain ⟨attr', length', rawTarget', sha1', hattr', hlength', htarget', hsha1', hq⟩ := file_ok hq
  cases hattr.symm.trans hattr'
  cases hlength.symm.trans hlength'
  cases htarget.symm.trans htarget'
  cases hsha1.symm.trans hsha1'
  rw [hr, hq]

/-- A leaf that is accepted is a file with this path, and no padding. -/
theorem leaf_ok {properties : Dict} {path : List Bytes} {budget : Nat} {r : File × Nat}
    (h : leaf properties path budget = .ok r) :
    file properties path (some path) budget = .ok r ∧ r.1.kind ≠ .padding := by
  unfold leaf at h
  obtain ⟨f, hf, h⟩ := except_bind_ok h
  split at h
  · cases h
  · rename_i hkind
    obtain ⟨root, -, h⟩ := except_bind_ok h
    split at h
    · cases h
    · cases h
      exact ⟨hf, hkind⟩

end BtSniffer.Info

import BtSniffer.Metainfo.Files

/-!
# Analysis of an info dictionary

Reference model of `analyze` and `is_v2` in `src/collection/metainfo.rs`.

* Bendy is a parameter: the first object of the input, and whether another one follows it.
* `parseRoot` and `parseVersion` are the code before the format is known; `parseBody` is the code after
  it.
* `infoMetainfo` gives the functions of the raw bytes that the store is built on.
-/

set_option autoImplicit false

namespace BtSniffer.Info

open Bencode

/-- `MAX_BYTES`. -/
def MAX_BYTES : Nat := 4 * 1024 * 1024

/-- `PARSE_BUDGET`. -/
def PARSE_BUDGET : Nat := 64 * 1024 * 1024

/-- `Decoder::new(info).with_max_depth(64)`. -/
structure InfoDecoder where
  /-- The first `next_object`. -/
  first : Bytes → Except Unit (Option Object)
  /-- The second `next_object`: whether there is one. -/
  follows : Bytes → Except Unit Bool

/-- `ParsedInfo`. -/
structure Parsed where
  format : TorrentFormat
  name : String
  totalLength : Nat
  pieceSpaceLength : Nat
  paddingLength : Nat
  fileCount : Nat
  pieceLength : Nat
  pieceCount : Nat
  isPrivate : Option Bool
  files : List File
  encodingLossy : Bool
  deriving DecidableEq, Repr

/-- `Analysis`, with the files as they were parsed. -/
structure InfoAnalysis where
  format : TorrentFormat
  status : SemanticStatus
  reason : Option String
  parsed : Option Parsed
  deriving DecidableEq, Repr

/-! ## Root and version -/

/-- The root dictionary and the rest of the budget. -/
def parseRoot (decoder : InfoDecoder) (info : Bytes) : Except String (Dict × Nat) :=
  if info = [] ∨ info.length > MAX_BYTES then .error "metadata_size"
  else
    match decoder.first info with
    | .error _ => .error "invalid_bencode"
    | .ok none => .error "missing_dictionary"
    | .ok (some object) => do
      let root ← value object PARSE_BUDGET
      match decoder.follows info with
      | .error _ => .error "invalid_bencode"
      | .ok true => .error "trailing_data"
      | .ok false => do
        let d ← dictionary root.1
        pure (d, root.2)

/-- `d.get(b"meta version").map(integer).transpose()`. -/
def metaVersion (d : Dict) : Except String (Option Int) :=
  match d.get (key "meta version") with
  | some v => (integer v).map some
  | none => .ok none

/-- The `meta version`, if it is known. -/
def parseVersion (d : Dict) : Except String (Option Int) := do
  let version ← metaVersion d
  if version.any (fun v => v != 2) then .error "unsupported_meta_version" else pure version

/-- The format of a dictionary with a known version. -/
def formatOf (d : Dict) (version : Option Int) : TorrentFormat :=
  if version = some 2 then if d.containsKey (key "pieces") then .hybrid else .v2 else .v1

/-! ## Files of the formats -/

/-- The `private` flag. -/
def parsePrivate (d : Dict) : Except String (Option Bool) :=
  match d.get (key "private") with
  | none => .ok none
  | some v => do
    let n ← integer v
    if n = 0 then pure (some false) else if n = 1 then pure (some true) else .error "private_flag"

/-- The files of the file tree. -/
def v2Files (d : Dict) (budget : Nat) : Except String (List File × Nat) := do
  let root ← required d (key "file tree")
  let w ← tree root ⟨[], [], budget⟩
  if w.out.isEmpty then .error "empty_file_tree" else pure (w.out, w.budget)

/-- `n` and the distance to the next multiple of the piece length. -/
def alignUp (pieceLength n : Nat) : Except String Nat :=
  checkedSum n ((pieceLength - n % pieceLength) % pieceLength)

/-- Where a file of the hybrid layout has to start, and the end of the v2 layout after it. -/
def hybridPlace (pieceLength : Nat) (file : File) (offset v2End : Nat) : Except String Nat :=
  if file.length > 0 then do
    let aligned ← alignUp pieceLength v2End
    if offset ≠ aligned then .error "hybrid_layout" else checkedSum aligned file.length
  else .ok v2End

/-- The loop over the v1 files: the offset and the end of the v2 layout. The v2 files that are left are
as many as the files that are not padding. -/
def hybridLoop (pieceLength : Nat) :
    List File → List File → Nat → Nat → Except String (Nat × Nat)
  | [], _, offset, v2End => .ok (offset, v2End)
  | file :: rest, v2, offset, v2End =>
    if file.kind = .padding then do
      let offset ← checkedSum offset file.length
      hybridLoop pieceLength rest v2 offset v2End
    else
      match v2 with
      | [] => .error "hybrid_layout"
      | other :: others => do
        let v2End ← hybridPlace pieceLength file offset v2End
        if file.rawPath ≠ other.rawPath ∨ file.length ≠ other.length ∨ file.kind ≠ other.kind ∨
            file.rawTarget ≠ other.rawTarget ∨ (file.length > 0 ∧ offset % pieceLength ≠ 0) then
          .error "hybrid_layout"
        else do
          let offset ← checkedSum offset file.length
          hybridLoop pieceLength rest others offset v2End

/-- The v1 files of a hybrid, if both layouts agree. -/
def hybridFiles (d : Dict) (files : List File) (pieceLength budget : Nat) :
    Except String (List File) := do
  let legacy ← v1Files d budget
  let _ ← checkV1 d legacy.1 pieceLength
  if (legacy.1.filter (fun f => f.kind ≠ .padding)).length ≠ files.length then
    .error "hybrid_layout"
  else do
    let r ← hybridLoop pieceLength legacy.1 files 0 0
    let boundary ← alignUp pieceLength r.2
    if r.1 > boundary then .error "hybrid_layout" else pure legacy.1

/-! ## Totals -/

/-- The totals of a torrent. -/
structure Totals where
  totalLength : Nat
  paddingLength : Nat
  pieceSpaceLength : Nat
  pieceCount : Nat
  deriving DecidableEq, Repr

/-- A checked addition under a condition. -/
def addIf (condition : Bool) (a b : Nat) : Except String Nat :=
  if condition then checkedSum a b else .ok a

/-- Where the next file starts: aligned in the v2 layout, if it is not empty. -/
def fileStart (format : TorrentFormat) (pieceLength : Nat) (file : File) (n : Nat) :
    Except String Nat :=
  if format = .v2 ∧ file.length > 0 then alignUp pieceLength n else .ok n

/-- The totals after one more file. -/
def addFile (format : TorrentFormat) (pieceLength : Nat) (t : Totals) (file : File) :
    Except String Totals := do
  let paddingLength ← addIf (file.kind == .padding) t.paddingLength file.length
  let totalLength ← addIf (file.kind != .padding) t.totalLength file.length
  let start ← fileStart format pieceLength file t.pieceSpaceLength
  let pieceCount ← addIf (format == .v2 && decide (file.length > 0)) t.pieceCount
    (divCeil file.length pieceLength)
  let pieceSpaceLength ← checkedSum start file.length
  pure ⟨totalLength, paddingLength, pieceSpaceLength, pieceCount⟩

/-- The loop over the files. -/
def totals (format : TorrentFormat) (pieceLength : Nat) : List File → Totals → Except String Totals
  | [], t => .ok t
  | file :: rest, t => do
    let t ← addFile format pieceLength t file
    totals format pieceLength rest t

/-! ## Paths and links -/

/-- The position of a path in the order of `Vec<Vec<u8>>`. -/
def pathRank (p : List Bytes) : List (List Nat) := p.map Tree.keyRank

/-- `paths.sort_unstable()`; equal paths cannot be told apart. -/
def sortPaths (paths : List (List Bytes)) : List (List Bytes) :=
  paths.insertionSort (fun a b => pathRank a ≤ pathRank b)

/-- The raw paths of the files that are not padding. -/
def regularPaths (files : List File) : List (List Bytes) :=
  (files.filter (fun f => f.kind ≠ .padding)).map File.rawPath

/-- `paths.windows(2).any(|pair| pair[1].starts_with(pair[0]))`. -/
def adjacentPrefix : List (List Bytes) → Bool
  | a :: b :: rest => a.isPrefixOf b || adjacentPrefix (b :: rest)
  | _ => false

/-- `paths.binary_search(target)` of a sorted list: the position of the target, or the position where it
would be inserted. -/
def binarySearch (paths : List (List Bytes)) (target : List Bytes) : Except Nat Nat :=
  match paths.findIdx? (fun p => p == target) with
  | some i => .ok i
  | none => .error (paths.countP (fun p => pathRank p < pathRank target))

/-- The target of a link is a file or a directory. -/
def targetExists (paths : List (List Bytes)) (target : List Bytes) : Bool :=
  match binarySearch paths target with
  | .ok _ => true
  | .error index => (paths[index]?).any (fun p => target.isPrefixOf p)

/-- The checks of the paths and of the links. -/
def checkPaths (files : List File) : Except String Unit :=
  let paths := sortPaths (regularPaths files)
  if adjacentPrefix paths then .error "path_conflict"
  else if files.all (fun f => f.rawTarget.all (targetExists paths)) then .ok ()
  else .error "dangling_symlink"

/-! ## The analysis -/

/-- The piece length is allowed. -/
def pieceLengthOk (format : TorrentFormat) (pieceLength : Nat) : Bool :=
  decide (pieceLength ≠ 0) &&
    (format == .v1 || (decide (16384 ≤ pieceLength) && decide (2 ^ pieceLength.log2 = pieceLength)))

/-- The files of the version. -/
def versionFiles (d : Dict) (format : TorrentFormat) (budget : Nat) :
    Except String (List File × Nat) :=
  if format = .v1 then v1Files d budget else v2Files d budget

/-- The files of a format. -/
def parseFiles (d : Dict) (format : TorrentFormat) (pieceLength budget : Nat) :
    Except String (List File) := do
  let files ← versionFiles d format budget
  if format = .hybrid then hybridFiles d files.1 pieceLength files.2 else pure files.1

/-- The number of pieces: that of the layout, or that of the hashes. -/
def parsePieceCount (d : Dict) (format : TorrentFormat) (files : List File)
    (pieceLength count : Nat) : Except String Nat :=
  if format = .v2 then .ok count else checkV1 d files pieceLength

/-- The code after the format is known. -/
def parseBody (d : Dict) (format : TorrentFormat) (budget : Nat) : Except String Parsed := do
  let utf8 ← optionalBytes d (key "name.utf-8")
  let plain ← optionalBytes d (key "name")
  let name := display (((utf8.filter validUtf8).or plain).getD [])
  let pieceLength ← length d (key "piece length")
  if !pieceLengthOk format pieceLength then .error "piece_length"
  else do
    let isPrivate ← parsePrivate d
    let files ← parseFiles d format pieceLength budget
    let t ← totals format pieceLength files ⟨0, 0, 0, 0⟩
    let pieceCount ← parsePieceCount d format files pieceLength t.pieceCount
    checkPaths files
    pure { format := format
           name := name.1
           totalLength := t.totalLength
           pieceSpaceLength := t.pieceSpaceLength
           paddingLength := t.paddingLength
           fileCount := files.countP (fun f => f.kind ≠ .padding)
           pieceLength := pieceLength
           pieceCount := pieceCount
           isPrivate := isPrivate
           files := files
           encodingLossy := name.2 || files.any File.encodingLossy }

/-- The analysis that ends with a reason. -/
def rejected (format : TorrentFormat) (reason : String) : InfoAnalysis :=
  ⟨format, if reason = "unsupported_meta_version" then .unsupported else .invalid, some reason, none⟩

/-- `analyze`. -/
def analyze (decoder : InfoDecoder) (info : Bytes) : InfoAnalysis :=
  match parseRoot decoder info with
  | .error reason => rejected .unknown reason
  | .ok (d, budget) =>
    match parseVersion d with
    | .error reason => rejected .unknown reason
    | .ok version =>
      match parseBody d (formatOf d version) budget with
      | .error reason => rejected (formatOf d version) reason
      | .ok parsed => ⟨formatOf d version, .valid, none, some parsed⟩

/-! ## The version probe -/

mutual

/-- The iterators of the object and of everything in it end without an error. -/
def Object.complete : Object → Bool
  | .bytes _ => true
  | .integer _ => true
  | .list items ended => ended && Object.completeItems items
  | .dict pairs ended => ended && Object.completePairs pairs

def Object.completeItems : List Object → Bool
  | [] => true
  | item :: rest => Object.complete item && Object.completeItems rest

def Object.completePairs : List (Bytes × Object) → Bool
  | [] => true
  | (_, item) :: rest => Object.complete item && Object.completePairs rest

end

/-- The loop of `is_v2`; an object that is passed over is consumed, and its error ends the loop. -/
def versionLoop : List (Bytes × Object) → Bool
  | [] => false
  | (k, object) :: rest =>
    if k = key "meta version" then
      match object with
      | .integer text => text == key "2"
      | _ => false
    else object.complete && versionLoop rest

/-- `is_v2`. -/
def isV2 (decoder : InfoDecoder) (info : Bytes) : Bool :=
  match decoder.first info with
  | .ok (some (.dict pairs _)) => versionLoop pairs
  | _ => false

/-! ## The functions of the store -/

/-- The parts of an analysis that the catalog reads. -/
def InfoAnalysis.catalog (a : InfoAnalysis) : Analysis where
  format := a.format
  status := a.status
  reason := a.reason
  parsed := a.parsed.map (fun p =>
    { name := p.name
      totalLength := p.totalLength
      pieceSpaceLength := p.pieceSpaceLength
      paddingLength := p.paddingLength
      fileCount := p.fileCount
      pieceLength := p.pieceLength
      pieceCount := p.pieceCount
      isPrivate := p.isPrivate
      files := p.files.map (fun f => ⟨f.path, f.kind == .padding⟩)
      encodingLossy := p.encodingLossy })

/-- The functions of the raw bytes, with the parser above. -/
def infoMetainfo (decoder : InfoDecoder) (sha1 : Bytes → BitVec 160) (sha256 : Bytes → BitVec 256)
    (dictionaryPrefix : Bytes → Nat → Option Nat) : Metainfo where
  sha1 := sha1
  sha256 := sha256
  isV2 := isV2 decoder
  dictionaryPrefix := dictionaryPrefix
  analyze info := (analyze decoder info).catalog

end BtSniffer.Info

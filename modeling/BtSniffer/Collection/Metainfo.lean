import BtSniffer.Storage.Schema

/-!
# Torrent identities and catalog text

Reference model of `match_identity` and `identities` (`src/collection/metainfo.rs`), of
`from_parsed` and `truncate_display` (`src/collection/catalog/parser.rs`).

The digests, the bencode decoder and the semantic parser are the fields of `Metainfo`: arbitrary
functions of the raw bytes, so that nothing below depends on collision freedom or on the parser.

* `matchIdentity_swarmKey` — the matched identity has the requested key;
* `mem_identities`, `source_mem_identities` — which identities a dictionary has.
-/

set_option autoImplicit false

namespace BtSniffer

/-- The fields of `TorrentFile` that the catalog reads. -/
structure TorrentFile where
  path : Option String
  isPadding : Bool
  deriving DecidableEq, Repr

/-- `metainfo::ParsedInfo`. -/
structure ParsedInfo where
  name : String
  totalLength : Nat
  pieceSpaceLength : Nat
  paddingLength : Nat
  fileCount : Nat
  pieceLength : Nat
  pieceCount : Nat
  isPrivate : Option Bool
  files : List TorrentFile
  encodingLossy : Bool
  deriving DecidableEq, Repr

/-- `Analysis`. -/
structure Analysis where
  format : TorrentFormat
  status : SemanticStatus
  reason : Option String
  parsed : Option ParsedInfo
  deriving DecidableEq, Repr

/-- The functions of the raw bytes the store is built on: `Sha1::digest`, `Sha256::digest`,
`is_v2`, `dictionary_prefix` (the length of the prefix, `none` for an error) and `analyze`. -/
structure Metainfo where
  sha1 : Bytes → BitVec 160
  sha256 : Bytes → BitVec 256
  isV2 : Bytes → Bool
  dictionaryPrefix : Bytes → Nat → Option Nat
  analyze : Bytes → Analysis

namespace Metainfo

variable (M : Metainfo)

/-- `match_identity`. -/
def matchIdentity (info : Bytes) (key : SwarmKey) : Option TorrentIdentity :=
  if M.sha1 info = key then some (.v1 (M.sha1 info))
  else if M.isV2 info ∧ (TorrentIdentity.v2 (M.sha256 info)).swarmKey = key then
    some (.v2 (M.sha256 info))
  else none

/-- `analysis.status == "valid" && analysis.format == "hybrid"`. -/
def validHybrid (info : Bytes) : Bool :=
  (M.analyze info).status == .valid && (M.analyze info).format == .hybrid

/-- `identities`. -/
def identities (info : Bytes) (source : TorrentIdentity) : List TorrentIdentity :=
  if M.validHybrid info then [.v1 (M.sha1 info), .v2 (M.sha256 info)] else [source]

/-- `digest_kind(info)`: the identity of a given kind that the bytes have. -/
def digest (info : Bytes) : IdentityKind → TorrentIdentity
  | .v1 => .v1 (M.sha1 info)
  | .v2 => .v2 (M.sha256 info)

/-- The functions as they act on the empty dictionary `de` and on no bytes at all; used where a
concrete run needs them. -/
def ofEmptyDictionary : Metainfo where
  sha1 _ := 0x600ccd1b71569232d01d110bc63e906beab04d8c
  sha256 _ := 0x959a45d44e6fcf58361ed004681556fe50129f2109e817dec098c00c9e5d2578
  isV2 _ := false
  dictionaryPrefix info _ := if info = [0x64, 0x65] then some 2 else none
  analyze info :=
    if info = [] then ⟨.unknown, .invalid, some "metadata_size", none⟩
    else ⟨.v1, .invalid, some "missing_field", none⟩

variable {M}

theorem matchIdentity_some {info : Bytes} {key : SwarmKey} {source : TorrentIdentity}
    (h : M.matchIdentity info key = some source) :
    source = M.digest info source.kind ∧ source.swarmKey = key := by
  unfold matchIdentity at h
  split at h
  · rename_i hk
    cases h
    exact ⟨rfl, hk⟩
  · split at h
    · rename_i hk
      cases h
      exact ⟨rfl, hk.2⟩
    · cases h

theorem matchIdentity_swarmKey {info : Bytes} {key : SwarmKey} {source : TorrentIdentity}
    (h : M.matchIdentity info key = some source) : source.swarmKey = key :=
  (matchIdentity_some h).2

/-- The identities of a dictionary are digests of it. -/
theorem mem_identities {info : Bytes} {key : SwarmKey} {source i : TorrentIdentity}
    (h : M.matchIdentity info key = some source) (hi : i ∈ M.identities info source) :
    i = M.digest info i.kind := by
  unfold identities at hi
  split at hi
  · simp only [List.mem_cons, List.not_mem_nil, or_false] at hi
    rcases hi with rfl | rfl <;> rfl
  · rw [List.mem_singleton] at hi
    subst hi
    exact (matchIdentity_some h).1

/-- The matched identity is one of them. -/
theorem source_mem_identities {info : Bytes} {key : SwarmKey} {source : TorrentIdentity}
    (h : M.matchIdentity info key = some source) : source ∈ M.identities info source := by
  unfold identities
  split
  · rw [(matchIdentity_some h).1]
    cases source.kind <;> simp [digest]
  · exact List.mem_singleton.2 rfl

theorem identities_ne_nil (info : Bytes) (source : TorrentIdentity) :
    M.identities info source ≠ [] := by
  unfold identities
  split <;> simp

end Metainfo

/-! ## Catalog text -/

/-- `SEARCH_TEXT_BYTES`. -/
def SEARCH_TEXT_BYTES : Nat := 12 * 1024 * 1024

/-- `DISPLAY_TEXT_BYTES`. -/
def DISPLAY_TEXT_BYTES : Nat := 4096

/-- The loop of `from_parsed` over the files: the text and whether it was cut. -/
def appendPaths : List TorrentFile → String → String × Bool
  | [], text => (text, false)
  | file :: rest, text =>
    if file.isPadding then appendPaths rest text
    else
      match file.path with
      | none => appendPaths rest text
      | some path =>
        if text.utf8ByteSize + 1 + path.utf8ByteSize > SEARCH_TEXT_BYTES then (text, true)
        else appendPaths rest (text ++ "\n" ++ path)

/-- `from_parsed`: the search text and `search_truncated`. -/
def searchText (info : ParsedInfo) : String × Bool :=
  if info.name.utf8ByteSize > SEARCH_TEXT_BYTES then ("", true)
  else appendPaths info.files info.name

/-- The longest initial segment of whole characters within a byte budget. -/
def takeBytes : List Char → Nat → List Char
  | [], _ => []
  | c :: cs, budget => if c.utf8Size ≤ budget then c :: takeBytes cs (budget - c.utf8Size) else []

/-- `truncate_display`. -/
def truncateDisplay (value : String) : String × Bool :=
  if value.utf8ByteSize ≤ DISPLAY_TEXT_BYTES then (value, false)
  else
    let ellipsis := '…'
    (String.ofList (takeBytes value.toList (DISPLAY_TEXT_BYTES - ellipsis.utf8Size) ++ [ellipsis]),
      true)

/-- `i64::try_from(n).unwrap_or(i64::MAX)`. -/
def saturatingI64 (n : Nat) : Int := min n (2 ^ 63 - 1)

/-- The values `ensure_catalog` computes from the analysis: the display columns and
`search_incomplete`. -/
def catalogFields (analysis : Analysis) : CatalogFields × Bool :=
  match analysis.parsed with
  | some parsed =>
    let (name, nameTruncated) := truncateDisplay parsed.name
    let (text, searchTruncated) := searchText parsed
    ({ parseStatus := .parsed
       name := some name
       nameTruncated := nameTruncated
       encodingLossy := parsed.encodingLossy
       totalLength := some (toString parsed.totalLength)
       fileCount := some (saturatingI64 parsed.fileCount)
       pieceLength := some (toString parsed.pieceLength)
       pieceCount := some (saturatingI64 parsed.pieceCount)
       isPrivate := parsed.isPrivate
       searchText := text }, searchTruncated)
  | none => (⟨.unavailable, none, false, false, none, none, none, none, none, ""⟩, true)

/-- The values of the second update of `ensure_catalog`. -/
def semanticFields (analysis : Analysis) : SemanticFields where
  format := analysis.format
  status := analysis.status
  reason := analysis.reason
  pieceSpaceLength := analysis.parsed.map (fun p => toString p.pieceSpaceLength)
  paddingLength := analysis.parsed.map (fun p => toString p.paddingLength)

end BtSniffer

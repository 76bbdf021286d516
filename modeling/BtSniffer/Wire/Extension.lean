import BtSniffer.Wire.InspectionSpec
import BtSniffer.Dht.Ordering

/-!
# Extension handshakes

Reference model of `parse_extension` in `src/collection/peer/wire/mod.rs`, of
`src/collection/peer/wire/extension_ordering.rs` and of the errors in
`src/collection/peer/wire/error.rs`.

* Bendy is a parameter: what a decoder reports as the next object, what the raw scan of a dictionary
  returns, and the pairs that `next_pair` walks through.  `ScansDictionaries` says what the source
  relies on.
* Only the kinds of errors that a handshake can have are listed.
-/

set_option autoImplicit false

namespace BtSniffer

open Bencode

/-! ## Bendy -/

/-- An object, with the pairs of a dictionary up to its end or to the error that stops the walk. -/
inductive BendyValue (β : Type) where
  | bytes (content : List UInt8)
  | integer (text : List UInt8)
  | list
  | dict (pairs : List (List UInt8 × BendyValue β)) (stop : Option β)

/-- The kind of an object. -/
def BendyValue.object {β : Type} : BendyValue β → BendyObject
  | .bytes content => .bytes content
  | .integer text => .integer text
  | .list => .list
  | .dict _ _ => .dict

/-- Bendy's decoder. -/
structure Bendy (β : Type) where
  /-- `Decoder::new(input).next_object()`. -/
  next : NextObject β
  /-- `Decoder::new(input).with_max_depth(depth).next_object()`. -/
  nextWithin : Nat → NextObject β
  /-- `into_raw` of the dictionary at the start of the input. -/
  intoRaw : Nat → List UInt8 → Except β (List UInt8)
  /-- What `next_pair` returns for the dictionary at the start of the input. -/
  pairs : Nat → List UInt8 → List (List UInt8 × BendyValue β) × Option β
  /-- The error of `try_into_dictionary` for another object. -/
  notDictionary : BendyObject → β
  /-- The error of `try_into_integer` for another object. -/
  notInteger : BendyObject → β
  /-- The text of an error. -/
  display : β → List Char

/-- A `d` opens a dictionary, and the raw scan accepts exactly the complete dictionaries with strictly
increasing keys at every level within the depth limit. -/
structure ScansDictionaries {β : Type} (decoder : Bendy β) : Prop where
  opens : ∀ depth rest, 0 < depth → decoder.nextWithin depth (100 :: rest) = .ok (some .dict)
  raw : ∀ depth input raw, decoder.intoRaw depth input = .ok raw ↔ ∃ es rest,
    (Tree.dict es).Canonical ∧ (Tree.dict es).Sorted ∧ (Tree.dict es).Within depth ∧
      raw = (Tree.dict es).encode ∧ input = raw ++ rest

/-! ## Errors -/

/-- `WireErrorKind`. -/
inductive WireErrorKind where
  | malformedBencode
  | missingDictionary
  | dictionaryRoot
  | invalidDictionary
  | integerType
  | integerOverflow
  | extensionTooLarge
  | extensionTrailing
  | extensionMalformed
  | extensionMapType
  | extensionMapMalformed
  | extensionIdRange
  | metadataSizeRange
  deriving DecidableEq, Repr

/-- `WireDetail`. -/
structure WireDetail where
  text : List Char
  truncated : Bool
  deriving DecidableEq, Repr

/-- `WireError`. -/
structure WireError where
  kind : WireErrorKind
  detail : Option WireDetail
  inspection : Option KeyInspection
  deriving DecidableEq, Repr

/-- `char::is_control`. -/
def isControl (ch : Char) : Bool := ch.toNat < 32 || (127 ≤ ch.toNat && ch.toNat < 160)

/-- `char::escape_default` of a control character. -/
def escapeDefault (ch : Char) : List Char :=
  let backslash := Char.ofNat 92
  if ch.toNat = 9 then [backslash, 't']
  else if ch.toNat = 10 then [backslash, 'n']
  else if ch.toNat = 13 then [backslash, 'r']
  else [backslash, 'u', Char.ofNat 123] ++ Nat.toDigits 16 ch.toNat ++ [Char.ofNat 125]

/-- `LimitedText::write_str`: stop before the first character that does not fit into 256. -/
def writeLimited : List Char → WireDetail → WireDetail
  | [], detail => detail
  | ch :: text, detail =>
    let escaped := if isControl ch then escapeDefault ch else [ch]
    if detail.text.length + escaped.length > 256 then { detail with truncated := true }
    else writeLimited text { detail with text := detail.text ++ escaped }

/-- `bounded_detail`. -/
def boundedDetail (text : List Char) : WireDetail := writeLimited text ⟨[], false⟩

theorem length_writeLimited : ∀ (text : List Char) (detail : WireDetail),
    detail.text.length ≤ 256 → (writeLimited text detail).text.length ≤ 256
  | [], detail, h => h
  | ch :: text, detail, h => by
    rw [writeLimited]
    generalize (if isControl ch then escapeDefault ch else [ch]) = escaped
    split
    · exact h
    · apply length_writeLimited text
      simp only [List.length_append]
      omega

/-- The text of an error is bounded. -/
theorem length_boundedDetail (text : List Char) : (boundedDetail text).text.length ≤ 256 :=
  length_writeLimited text _ (by simp)

/-- `WireErrorKind::into`. -/
def WireError.of (kind : WireErrorKind) : WireError := ⟨kind, none, none⟩

section

variable {β : Type} (decoder : Bendy β)

/-- `WireError::decoder`. -/
def WireError.bendy (kind : WireErrorKind) (error : β) : WireError :=
  ⟨kind, some (boundedDetail (decoder.display error)), none⟩

/-! ## Key order -/

/-- The reader of `extension_ordering.rs` has one error. -/
def orderingRefusals (β : Type) : Refusals β Unit where
  nesting := ()
  key := ()
  duplicate := ()
  start := ()
  decode := fun _ => ()
  atom := ()

/-- `extension_ordering::normalize`. -/
def extensionNormalize (input : List UInt8) (headerLimit depth : Nat) :
    Except (Fault Unit) (List UInt8) :=
  if input.length > min headerLimit 4096 ∨ input.head? ≠ some 100 then .error (.refused ())
  else normalizeWith decoder.next (orderingRefusals β) (min depth 64) () input

/-! ## Handshakes -/

/-- `dictionary_prefix`. -/
def dictionaryPrefix (bytes : List UInt8) (depth : Nat) : Except WireError (List UInt8) :=
  match decoder.nextWithin depth bytes with
  | .error e => .error (.bendy decoder .malformedBencode e)
  | .ok none => .error (.of .missingDictionary)
  | .ok (some .dict) =>
    match decoder.intoRaw depth bytes with
    | .error e => .error (.bendy decoder .invalidDictionary e)
    | .ok raw => .ok raw
  | .ok (some object) => .error (.bendy decoder .dictionaryRoot (decoder.notDictionary object))

/-- `str::parse::<i64>`. -/
def parseI64 (text : List UInt8) : Option Int :=
  let digits := match text with
    | 45 :: digits => digits
    | 43 :: digits => digits
    | digits => digits
  if digits = [] ∨ !digits.all isDigit then none
  else
    let number : Int := digits.foldl (fun n b => n * 10 + (b.toNat - 48)) 0
    let number := if text.head? = some 45 then -number else number
    if -(2 ^ 63) ≤ number ∧ number < 2 ^ 63 then some number else none

/-- `integer`. -/
def integer (object : BendyValue β) : Except WireError Int :=
  match object with
  | .integer text =>
    match parseI64 text with
    | some number => .ok number
    | none => .error (.of .integerOverflow)
  | _ => .error (.bendy decoder .integerType (decoder.notInteger object.object))

/-- `ExtensionMode`. -/
inductive ExtensionMode where
  | strict
  | unsortedCompatible
  deriving DecidableEq, Repr

/-- `ExtensionUpdate`. -/
structure ExtensionUpdate where
  mode : ExtensionMode := .strict
  metadataId : Option Nat := none
  metadataSize : Option Nat := none
  deriving DecidableEq, Repr

/-- `u8::try_from(integer(value)?)`. -/
def extensionId (value : BendyValue β) : Except WireError Nat := do
  let number ← integer decoder value
  if 0 ≤ number ∧ number < 256 then .ok number.toNat else .error (.of .extensionIdRange)

/-- `usize::try_from(integer(value)?)`. -/
def metadataSize (value : BendyValue β) : Except WireError Nat := do
  let number ← integer decoder value
  if 0 ≤ number then .ok number.toNat else .error (.of .metadataSizeRange)

/-- What `next_pair` returns after the last pair: the end of the dictionary, or an error. -/
def endOfPairs (kind : WireErrorKind) (stop : Option β) (update : ExtensionUpdate) :
    Except WireError ExtensionUpdate :=
  match stop with
  | none => .ok update
  | some e => .error (.bendy decoder kind e)

/-- One pair of `m`. -/
def readExtension (name : List UInt8) (value : BendyValue β) (update : ExtensionUpdate) :
    Except WireError ExtensionUpdate :=
  -- `ut_metadata`
  if name = [117, 116, 95, 109, 101, 116, 97, 100, 97, 116, 97] then do
    let id ← extensionId decoder value
    .ok { update with metadataId := some id }
  else .ok update

/-- The loop over the pairs of `m`. -/
def readExtensions (stop : Option β) :
    List (List UInt8 × BendyValue β) → ExtensionUpdate → Except WireError ExtensionUpdate
  | [], update => endOfPairs decoder .extensionMapMalformed stop update
  | (name, value) :: rest, update => do
    let update ← readExtension decoder name value update
    readExtensions stop rest update

/-- One pair of the handshake. -/
def readField (key : List UInt8) (value : BendyValue β) (update : ExtensionUpdate) :
    Except WireError ExtensionUpdate :=
  -- `m`
  if key = [109] then
    match value with
    | .dict pairs stop => readExtensions decoder stop pairs update
    | _ => .error (.bendy decoder .extensionMapType (decoder.notDictionary value.object))
  -- `metadata_size`
  else if key = [109, 101, 116, 97, 100, 97, 116, 97, 95, 115, 105, 122, 101] then do
    let size ← metadataSize decoder value
    .ok { update with metadataSize := some size }
  else .ok update

/-- The loop over the pairs of the handshake. -/
def readHandshake (stop : Option β) :
    List (List UInt8 × BendyValue β) → ExtensionUpdate → Except WireError ExtensionUpdate
  | [], update => endOfPairs decoder .extensionMalformed stop update
  | (key, value) :: rest, update => do
    let update ← readField decoder key value update
    readHandshake stop rest update

/-- The second pass of `parse_extension_strict`, over the raw dictionary. -/
def readFields (raw : List UInt8) (depth : Nat) : Except WireError ExtensionUpdate :=
  match decoder.nextWithin depth raw with
  | .error e => .error (.bendy decoder .extensionMalformed e)
  | .ok none => .error (.of .missingDictionary)
  | .ok (some .dict) => readHandshake decoder (decoder.pairs depth raw).2 (decoder.pairs depth raw).1 {}
  | .ok (some object) => .error (.bendy decoder .dictionaryRoot (decoder.notDictionary object))

/-- The error of `parse_extension_strict` for a refused prefix: an invalid dictionary is inspected. -/
def inspected (bytes : List UInt8) (headerLimit depth : Nat) (error : WireError) :
    Fault WireError :=
  if error.kind = .invalidDictionary then
    match inspect decoder.next bytes headerLimit depth with
    | .ok inspection => .refused { error with inspection := some inspection }
    | .error .panic => .panic
    | .error _ => .fuel
  else .refused error

/-- `parse_extension_strict`. -/
def parseExtensionStrict (bytes : List UInt8) (headerLimit depth : Nat) :
    Except (Fault WireError) ExtensionUpdate :=
  if bytes.length > headerLimit then .error (.refused (.of .extensionTooLarge))
  else
    match dictionaryPrefix decoder bytes depth with
    | .error error => .error (inspected decoder bytes headerLimit depth error)
    | .ok raw =>
      if raw.length ≠ bytes.length then .error (.refused (.of .extensionTrailing))
      else (readFields decoder raw depth).mapError .refused

/-- The compatible path of `parse_extension`, with the error of the strict one. -/
def parseCompatible (bytes : List UInt8) (headerLimit depth : Nat) (error : WireError) :
    Except (Fault WireError) ExtensionUpdate :=
  match extensionNormalize decoder bytes headerLimit depth with
  | .ok normalized =>
    match parseExtensionStrict decoder normalized headerLimit depth with
    | .ok update => .ok { update with mode := .unsortedCompatible }
    | .error (.refused _) => .error (.refused error)
    | .error fault => .error fault
  | .error (.refused _) => .error (.refused error)
  | .error .panic => .error .panic
  | .error .fuel => .error .fuel

/-- `parse_extension`. -/
def parseExtension (bytes : List UInt8) (headerLimit depth : Nat) :
    Except (Fault WireError) ExtensionUpdate :=
  match parseExtensionStrict decoder bytes headerLimit depth with
  | .ok update => .ok update
  | .error (.refused error) =>
    if error.kind = .invalidDictionary then parseCompatible decoder bytes headerLimit depth error
    else .error (.refused error)
  | .error fault => .error fault

end

end BtSniffer

import NixCache.Core.Lookup
import NixCache.Lib.Lines
import NixCache.Lib.Number
/-!
# The narinfo parser

`nixcache-core/src/narinfo.rs`.  The text is read line by line into a record of the local variables
of `NarInfo::parse`, which the end of the function turns into metadata.
-/

namespace NixCache.Core

open NixCache.Lib NixCache.Lib.Result
open NixCache.Lib.Str (IntErrorKind)

inductive NarInfoParseError where
  | missingRequiredField (field : String)
  | invalidNumber (field : String) (source : IntErrorKind)
  | invalidStorePath (raw : String)
  | invalidUrl (raw : String)
  | invalidReference (raw : String)
  | invalidField (field details : String)
  | emptyField (field : String)
  | duplicateField (field : String)
  | invalidHash (field : String) (source : TypeError)
  | nonPositiveSize (field : String)
  | malformedLine (raw : String)
  | emptyContent
deriving DecidableEq, Repr

/-! ## Fields -/

/-- The keys `parse` knows. -/
inductive NarInfoKey where
  | storePath
  | url
  | compression
  | fileHash
  | fileSize
  | narHash
  | narSize
  | references
  | deriver
  | sig
  | ca
deriving DecidableEq, Repr

namespace NarInfoKey

def all : List NarInfoKey :=
  [storePath, url, compression, fileHash, fileSize, narHash, narSize, references, deriver, sig, ca]

def name : NarInfoKey → String
  | storePath => "StorePath"
  | url => "URL"
  | compression => "Compression"
  | fileHash => "FileHash"
  | fileSize => "FileSize"
  | narHash => "NarHash"
  | narSize => "NarSize"
  | references => "References"
  | deriver => "Deriver"
  | sig => "Sig"
  | ca => "CA"

/-- `match key`, with `none` for `_`. -/
def ofName (s : String) : Option NarInfoKey := all.find? fun key => key.name = s

end NarInfoKey

/-- The local variables of `parse`. -/
@[ext] structure NarInfoFields where
  storePath : Option String
  narBasename : Option String
  compression : Option String
  fileHash : Option String
  fileSize : Option UInt64
  narHash : Option String
  narSize : Option UInt64
  references : List String
  deriver : Option String
  signatures : List String
  ca : Option String
  seenFields : List NarInfoKey
deriving DecidableEq, Repr

def NarInfoFields.empty : NarInfoFields where
  storePath := none
  narBasename := none
  compression := none
  fileHash := none
  fileSize := none
  narHash := none
  narSize := none
  references := []
  deriver := none
  signatures := []
  ca := none
  seenFields := []

/-! ## Values -/

/-- `value.is_empty()` of a field that must not be. -/
def nonEmptyField (key : NarInfoKey) (value : String) : Except NarInfoParseError Unit :=
  ensure (¬ Str.isEmpty value) (.emptyField key.name)

def readStorePath (value : String) : Except NarInfoParseError String := do
  nonEmptyField .storePath value
  let _ ← mapErr (fun _ => .invalidStorePath value) (validateStorePath value)
  pure value

def parseNarUrl (value : String) : Except NarInfoParseError String := do
  nonEmptyField .url value
  ensure (¬ ((value.toList.any fun c => Str.isControl c || Str.isWhitespace c) ∨
      Str.containsChar value '\\'))
    (.invalidUrl value)
  ensure (¬ (value.toList.splitOn '/').any fun part => part = ['.'] ∨ part = ['.', '.'])
    (.invalidUrl value)
  let basename := extractNarBasename value
  mapErr (fun _ => .invalidUrl value) (validateNarBasename basename)
  pure basename

/-- The field stays `None` for `none`. -/
def readCompression (value : String) : Except NarInfoParseError (Option String) := do
  nonEmptyField .compression value
  pure (if value ≠ "none" then some value else none)

/-- `FileHash` and `NarHash`. -/
def readHash (key : NarInfoKey) (value : String) : Except NarInfoParseError String := do
  nonEmptyField key value
  mapErr (.invalidHash key.name) (validateNixHash value)
  pure value

/-- `FileSize` and `NarSize`. -/
def readSize (key : NarInfoKey) (value : String) : Except NarInfoParseError UInt64 := do
  nonEmptyField key value
  let parsed ← mapErr (.invalidNumber key.name) (Str.parseU64 value)
  ensure (parsed ≠ 0) (.nonPositiveSize key.name)
  pure parsed

def readReferences (value : String) : Except NarInfoParseError (List String) :=
  collect (fun token => mapErr (fun _ => .invalidReference token) (normalizeStoreReference token))
    (Str.splitWhitespace value)

def readDeriver (value : String) : Except NarInfoParseError String := do
  nonEmptyField .deriver value
  let normalized ← mapErr
    (fun _ => .invalidField "Deriver" "must be a valid StorePath basename or full path")
    (normalizeStoreReference value)
  ensure (Str.endsWith normalized ".drv") (.invalidField "Deriver" "must end with .drv")
  pure normalized

/-- An empty `Sig` falls through to `_`. -/
def readSig (value : String) : Option String := if Str.isEmpty value then none else some value

def readCa (value : String) : Except NarInfoParseError String := do
  nonEmptyField .ca value
  pure value

/-! ## The loop -/

namespace NarInfoFields

/-- `match key` over the value. -/
def set (fields : NarInfoFields) (key : NarInfoKey) (value : String) :
    Except NarInfoParseError NarInfoFields :=
  match key with
  | .storePath => return { fields with storePath := some (← readStorePath value) }
  | .url => return { fields with narBasename := some (← parseNarUrl value) }
  | .compression => do
      let compression ← readCompression value
      -- `none` leaves the variable as it was
      pure { fields with compression := compression <|> fields.compression }
  | .fileHash => return { fields with fileHash := some (← readHash .fileHash value) }
  | .fileSize => return { fields with fileSize := some (← readSize .fileSize value) }
  | .narHash => return { fields with narHash := some (← readHash .narHash value) }
  | .narSize => return { fields with narSize := some (← readSize .narSize value) }
  | .references =>
      return { fields with references := fields.references ++ (← readReferences value) }
  | .deriver => return { fields with deriver := some (← readDeriver value) }
  | .sig => return { fields with signatures := fields.signatures ++ (readSig value).toList }
  | .ca => return { fields with ca := some (← readCa value) }

/-- `seen_fields.insert(field)` of a field that may occur once. -/
def see (fields : NarInfoFields) (key : NarInfoKey) : Except NarInfoParseError NarInfoFields :=
  if key = .sig then .ok fields
  else do
    ensure (key ∉ fields.seenFields) (.duplicateField key.name)
    pure { fields with seenFields := fields.seenFields ++ [key] }

def read (fields : NarInfoFields) (field : NarInfoKey × String) :
    Except NarInfoParseError NarInfoFields := do
  let fields ← fields.see field.1
  fields.set field.1 field.2

end NarInfoFields

/-- `line.split_once(':')`, both sides trimmed. -/
def keyValue (line : String) : Option (String × String) :=
  (Str.splitOnce line ':').map fun p => (Str.trim p.1, Str.trim p.2)

/-- The field of a line; `none` for a line that is skipped or whose key is unknown. -/
def lineField (line : String) : Except NarInfoParseError (Option (NarInfoKey × String)) :=
  let line := Str.trim line
  if Str.isEmpty line ∨ Str.startsWith line "#" then .ok none
  else do
    let (key, value) ← okOr (.malformedLine line) (keyValue line)
    pure ((NarInfoKey.ofName key).map (·, value))

def NarInfoFields.readLine (fields : NarInfoFields) (line : String) :
    Except NarInfoParseError NarInfoFields := do
  match ← lineField line with
  | some field => fields.read field
  | none => pure fields

@[ext] structure NarInfo where
  narinfoMeta : NarInfoMeta
  narSize : UInt64
deriving DecidableEq, Repr

/-- The end of `parse`. -/
def NarInfoFields.finish (fields : NarInfoFields) : Except NarInfoParseError NarInfo := do
  let storePath ← okOr (.missingRequiredField "StorePath") fields.storePath
  let narBasename ← okOr (.missingRequiredField "URL") fields.narBasename
  let narHash ← okOr (.missingRequiredField "NarHash") fields.narHash
  let narSize ← okOr (.missingRequiredField "NarSize") fields.narSize
  let info : NarInfoMeta :=
    { storePath, narBasename, narHash
      compression := fields.compression
      fileHash := fields.fileHash
      fileSize := fields.fileSize
      references := fields.references
      deriver := fields.deriver
      signatures := fields.signatures
      ca := fields.ca }
  mapErr (fun error => .invalidField "NarInfo" error.text) info.validateStructure
  pure ⟨info, narSize⟩

namespace NarInfo

def parse (content : String) : Except NarInfoParseError NarInfo := do
  ensure (¬ Str.isEmpty (Str.trim content)) .emptyContent
  let fields ← foldM NarInfoFields.readLine .empty (Str.lines content)
  fields.finish

/-- `to_narinfo_string`. -/
def toNarinfoString (info : NarInfo) : String := info.narinfoMeta.render info.narSize

/-- `url`. -/
def url (info : NarInfo) : String := "nar/" ++ info.narinfoMeta.narBasename

end NarInfo

end NixCache.Core

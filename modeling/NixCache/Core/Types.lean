import NixCache.Core.Error
import NixCache.Lib.Str
/-!
# Store hashes, digests, systems and index entries

The data model of `nixcache-core/src/types.rs` up to `IndexEntry`, with its parsers and structural
checks.  Hashes of the `sha2` crate and the timestamps of the `chrono` crate are parameters.
-/

namespace NixCache.Core

open NixCache.Lib NixCache.Lib.Result

/-- `[u8; 32]`. -/
@[ext] structure DigestBytes where
  bytes : List UInt8
  size : bytes.length = 32
deriving DecidableEq

/-- The functions of third-party crates the core calls: `Sha256::digest`, and
`DateTime::parse_from_rfc3339` as the instant in nanoseconds. -/
structure Crates where
  sha256 : List UInt8 → DigestBytes
  parseFromRfc3339 : String → Option Int

/-! ## Store hashes and NAR digests -/

/-- `StoreHash(String)`; `new_unchecked` builds one from any text. -/
@[ext] structure StoreHash where
  val : String
deriving DecidableEq, Repr

namespace StoreHash

instance : LT StoreHash := ⟨fun a b => a.val < b.val⟩
instance : LE StoreHash := ⟨fun a b => a.val ≤ b.val⟩
instance : DecidableLT StoreHash := fun a b => inferInstanceAs (Decidable (a.val < b.val))
instance : DecidableLE StoreHash := fun a b => inferInstanceAs (Decidable (a.val ≤ b.val))

/-- `'0'..='9' | 'a'..='d' | 'f'..='n' | 'p'..='s' | 'v'..='z'`. -/
def isBase32 (c : Char) : Bool :=
  ('0' ≤ c ∧ c ≤ '9') ∨ ('a' ≤ c ∧ c ≤ 'd') ∨ ('f' ≤ c ∧ c ≤ 'n') ∨ ('p' ≤ c ∧ c ≤ 's') ∨
    ('v' ≤ c ∧ c ≤ 'z')

def checkChars (cs : List Char) : Except TypeError Unit :=
  checkAll (fun p => ensure (isBase32 p.1) (.storeHashInvalidChar p.1 p.2)) cs.zipIdx

def parse (s : String) : Except TypeError StoreHash := do
  let trimmed := Str.trim s
  ensure (Str.len trimmed = 32) (.storeHashInvalidLength (Str.len trimmed))
  checkChars trimmed.toList
  pure ⟨trimmed⟩

end StoreHash

@[ext] structure NarDigest where
  val : String
deriving DecidableEq, Repr

namespace NarDigest

def checkHex (cs : List Char) : Except TypeError Unit :=
  checkAll (fun p => ensure (Str.isAsciiHexdigit p.1) (.narDigestInvalidHexChar p.1 p.2)) cs.zipIdx

def parse (s : String) : Except TypeError NarDigest := do
  let (algo, hex) ← okOr (.narDigestMissingPrefix s) (Str.splitOnce (Str.trim s) ':')
  ensure (algo = "sha256") (.narDigestInvalidAlgorithm algo)
  ensure (Str.len hex = 64) (.narDigestInvalidHexLength (Str.len hex))
  checkHex hex.toList
  pure ⟨"sha256:" ++ Str.toAsciiLowercase hex⟩

end NarDigest

/-! ## System architectures -/

inductive SystemArch where
  | x86_64Linux
  | aarch64Linux
  | x86_64Darwin
  | aarch64Darwin
  | i686Linux
  | armv7lLinux
  | armv6lLinux
  | riscv64Linux
  | aarch64Freebsd
  | x86_64Freebsd
  | i686Freebsd
  | x86_64Netbsd
  | x86_64Openbsd
  | mips64elLinux
  | powerpc64leLinux
  | s390xLinux
  | wasm32Wasi
  | unknown
deriving DecidableEq, Repr

namespace SystemArch

/-- `SystemArch::all`: the variants in declaration order, `Unknown` left out. -/
def all : List SystemArch :=
  [x86_64Linux, aarch64Linux, x86_64Darwin, aarch64Darwin, i686Linux, armv7lLinux, armv6lLinux,
    riscv64Linux, aarch64Freebsd, x86_64Freebsd, i686Freebsd, x86_64Netbsd, x86_64Openbsd,
    mips64elLinux, powerpc64leLinux, s390xLinux, wasm32Wasi]

def isKnown (system : SystemArch) : Bool := system ≠ unknown

def asStr : SystemArch → String
  | x86_64Linux => "x86_64-linux"
  | aarch64Linux => "aarch64-linux"
  | x86_64Darwin => "x86_64-darwin"
  | aarch64Darwin => "aarch64-darwin"
  | i686Linux => "i686-linux"
  | armv7lLinux => "armv7l-linux"
  | armv6lLinux => "armv6l-linux"
  | riscv64Linux => "riscv64-linux"
  | aarch64Freebsd => "aarch64-freebsd"
  | x86_64Freebsd => "x86_64-freebsd"
  | i686Freebsd => "i686-freebsd"
  | x86_64Netbsd => "x86_64-netbsd"
  | x86_64Openbsd => "x86_64-openbsd"
  | mips64elLinux => "mips64el-linux"
  | powerpc64leLinux => "powerpc64le-linux"
  | s390xLinux => "s390x-linux"
  | wasm32Wasi => "wasm32-wasi"
  | unknown => "unknown"

/-- `From<&str>`: the known system with that name after trimming, else `Unknown`. -/
def ofStr (s : String) : SystemArch :=
  (all.find? fun system => system.asStr = Str.trim s).getD unknown

/-- `(os, architecture, variant)`. -/
def toOciPlatformTuple : SystemArch → String × String × Option String
  | x86_64Linux => ("linux", "amd64", none)
  | aarch64Linux => ("linux", "arm64", none)
  | x86_64Darwin => ("darwin", "amd64", none)
  | aarch64Darwin => ("darwin", "arm64", none)
  | i686Linux => ("linux", "386", none)
  | armv7lLinux => ("linux", "arm", some "v7")
  | armv6lLinux => ("linux", "arm", some "v6")
  | riscv64Linux => ("linux", "riscv64", none)
  | aarch64Freebsd => ("freebsd", "arm64", none)
  | x86_64Freebsd => ("freebsd", "amd64", none)
  | i686Freebsd => ("freebsd", "386", none)
  | x86_64Netbsd => ("netbsd", "amd64", none)
  | x86_64Openbsd => ("openbsd", "amd64", none)
  | mips64elLinux => ("linux", "mips64le", none)
  | powerpc64leLinux => ("linux", "ppc64le", none)
  | s390xLinux => ("linux", "s390x", none)
  | wasm32Wasi => ("wasip1", "wasm", none)
  | unknown => ("unknown", "unknown", none)

/-- `from_oci`, after trimming and lower-casing; the rows are tried in order. -/
def fromOci (os architecture : String) (variant : Option String) : SystemArch :=
  let os := Str.toAsciiLowercase (Str.trim os)
  let arch := Str.toAsciiLowercase (Str.trim architecture)
  let variant := variant.map fun v => Str.toAsciiLowercase (Str.trim v)
  if os = "linux" ∧ (arch = "amd64" ∨ arch = "x86_64") then x86_64Linux
  else if os = "linux" ∧ (arch = "arm64" ∨ arch = "aarch64") then aarch64Linux
  else if os = "darwin" ∧ (arch = "amd64" ∨ arch = "x86_64") then x86_64Darwin
  else if os = "darwin" ∧ (arch = "arm64" ∨ arch = "aarch64") then aarch64Darwin
  else if os = "linux" ∧ (arch = "386" ∨ arch = "i686" ∨ arch = "i386") then i686Linux
  else if os = "linux" ∧
      (arch = "arm" ∧ (variant = some "v7" ∨ variant = some "7") ∨ arch = "armv7l") then
    armv7lLinux
  else if os = "linux" ∧
      (arch = "arm" ∧ (variant = some "v6" ∨ variant = some "6") ∨ arch = "armv6l") then
    armv6lLinux
  else if os = "linux" ∧ arch = "riscv64" then riscv64Linux
  else if os = "freebsd" ∧ (arch = "arm64" ∨ arch = "aarch64") then aarch64Freebsd
  else if os = "freebsd" ∧ (arch = "amd64" ∨ arch = "x86_64") then x86_64Freebsd
  else if os = "freebsd" ∧ (arch = "386" ∨ arch = "i686" ∨ arch = "i386") then i686Freebsd
  else if os = "netbsd" ∧ (arch = "amd64" ∨ arch = "x86_64") then x86_64Netbsd
  else if os = "openbsd" ∧ (arch = "amd64" ∨ arch = "x86_64") then x86_64Openbsd
  else if os = "linux" ∧ (arch = "mips64le" ∨ arch = "mips64el") then mips64elLinux
  else if os = "linux" ∧ (arch = "ppc64le" ∨ arch = "powerpc64le") then powerpc64leLinux
  else if os = "linux" ∧ arch = "s390x" then s390xLinux
  else if (os = "wasi" ∨ os = "wasip1") ∧ (arch = "wasm" ∨ arch = "wasm32") then wasm32Wasi
  else unknown

theorem mem_all (system : SystemArch) : system ∈ all ↔ system.isKnown = true := by
  cases system <;> decide

theorem asStr_injective : Function.Injective asStr := by
  intro a b h
  revert h
  cases a <;> cases b <;> decide

theorem ofStr_asStr (system : SystemArch) : ofStr system.asStr = system := by
  cases system <;> decide

theorem fromOci_toOciPlatformTuple (system : SystemArch) :
    fromOci system.toOciPlatformTuple.1 system.toOciPlatformTuple.2.1
      system.toOciPlatformTuple.2.2 = system := by
  cases system <;> decide

end SystemArch

/-! ## Store paths and Nix hashes -/

def validateStorePathBasename (value : String) : Except TypeError StoreHash := do
  let (hash, name) ← okOr (.invalidStorePathFormat value) (Str.splitOnce value '-')
  ensure (¬ (Str.isEmpty name ∨ Str.containsChar name '/' ∨ Str.containsChar name '\\' ∨
      name.toList.any fun c => Str.isControl c || Str.isWhitespace c))
    (.invalidStorePathFormat value)
  StoreHash.parse hash

def validateStorePath (value : String) : Except TypeError StoreHash := do
  let basename ← okOr (.invalidStorePathFormat value) (Str.stripPrefix value "/nix/store/")
  ensure (¬ (Str.isEmpty basename ∨ Str.containsChar basename '/' ∨
      Str.containsChar basename '\\'))
    (.invalidStorePathFormat value)
  validateStorePathBasename basename

def normalizeStoreReference (value : String) : Except TypeError String :=
  match Str.stripPrefix value "/nix/store/" with
  | some basename => do
      let _ ← validateStorePath value
      pure basename
  | none => do
      ensure (¬ (Str.containsChar value '/' ∨ Str.containsChar value '\\'))
        (.invalidStorePathFormat value)
      let _ ← validateStorePathBasename value
      pure value

def validateNarBasename (value : String) : Except TypeError Unit :=
  ensure (¬ (Str.isEmpty value ∨ value = "." ∨ value = ".." ∨ Str.containsStr value ".." ∨
      Str.containsChar value '/' ∨ Str.containsChar value '\\' ∨
      value.toList.any fun c => Str.isControl c || Str.isWhitespace c))
    (.invalidNarBasename value)

def isBase64Byte (b : UInt8) : Bool :=
  Str.isAsciiAlphanumeric (Char.ofNat b.toNat) ∨ b = '+'.toUInt8 ∨ b = '/'.toUInt8

/-- The algorithm, the separator and the encoded text: `:` is tried before `-`. -/
def splitNixHash (value : String) : Option (String × Char × String) :=
  match Str.splitOnce value ':' with
  | some (algorithm, encoded) => some (algorithm, ':', encoded)
  | none => (Str.splitOnce value '-').map fun p => (p.1, '-', p.2)

def validateNixHash (value : String) : Except TypeError Unit := do
  let (algorithm, separator, encoded) ← okOr (.nixHashInvalidAlgorithm "") (splitNixHash value)
  ensure (algorithm = "sha256") (.nixHashInvalidAlgorithm algorithm)
  let bytes := Str.asBytes encoded
  if separator = '-' ∧ bytes.length = 44 ∧ bytes.getD 43 0 = '='.toUInt8 ∧
      (bytes.take 43).all isBase64Byte then
    pure ()
  else if bytes.length = 52 then
    checkAll
      (fun p => ensure (StoreHash.isBase32 (Char.ofNat p.1.toNat))
        (.nixHashInvalidChar (Char.ofNat p.1.toNat) p.2))
      bytes.zipIdx
  else
    ensure (bytes.length = 64 ∧ bytes.all fun b => Str.isLowerHexDigit (Char.ofNat b.toNat))
      (.nixHashInvalidLength
        "52 Nix base32, 64 lowercase hexadecimal, or 44 base64 characters" bytes.length)

/-! ## Narinfo metadata -/

@[ext] structure NarInfoMeta where
  storePath : String
  narBasename : String
  compression : Option String
  fileHash : Option String
  fileSize : Option UInt64
  narHash : String
  references : List String
  deriver : Option String
  signatures : List String
  ca : Option String
deriving DecidableEq, Repr

namespace NarInfoMeta

/-- The check of an optional field, skipped when it is absent. -/
def whenSome {α : Type} (field : Option α) (check : α → Except CoreError Unit) :
    Except CoreError Unit :=
  match field with
  | some value => check value
  | none => .ok ()

def validateReference (reference : String) : Except CoreError Unit := do
  let _ ← mapErr
    (fun error => CoreError.invalidEntry ("reference '" ++ reference ++ "': " ++ error.text))
    (normalizeStoreReference reference)
  pure ()

def validateDeriver (deriver : String) : Except CoreError Unit := do
  let normalized ← mapErr
    (fun error => CoreError.invalidEntry ("Deriver '" ++ deriver ++ "': " ++ error.text))
    (normalizeStoreReference deriver)
  ensure (Str.endsWith normalized ".drv")
    (.invalidEntry ("Deriver '" ++ deriver ++ "' must end with .drv"))

def validateStructure (info : NarInfoMeta) : Except CoreError Unit := do
  let _ ← mapErr (fun error => CoreError.invalidEntry ("StorePath: " ++ error.text))
    (validateStorePath info.storePath)
  mapErr (fun error => CoreError.invalidEntry ("NAR basename: " ++ error.text))
    (validateNarBasename info.narBasename)
  whenSome info.fileHash fun fileHash => do
    ensure (¬ Str.isEmpty fileHash) (.invalidEntry "FileHash must not be empty")
    mapErr (fun error => CoreError.invalidEntry ("FileHash: " ++ error.text))
      (validateNixHash fileHash)
  ensure (¬ info.compression.any Str.isEmpty) (.invalidEntry "Compression must not be empty")
  ensure (¬ info.ca.any Str.isEmpty) (.invalidEntry "CA must not be empty")
  ensure (info.fileSize ≠ some 0) (.invalidEntry "FileSize must be greater than zero")
  mapErr (fun error => CoreError.invalidEntry ("NarHash: " ++ error.text))
    (validateNixHash info.narHash)
  checkAll validateReference info.references
  whenSome info.deriver validateDeriver

/-- `store_hash`. -/
def storeHash (info : NarInfoMeta) : Option StoreHash := (validateStorePath info.storePath).toOption

def referenceHash (reference : String) : Except TypeError StoreHash := do
  let normalized ← normalizeStoreReference reference
  let (hash, _) ← okOr (.invalidStorePathFormat reference) (Str.splitOnce normalized '-')
  StoreHash.parse hash

/-- `reference_hashes`. -/
def referenceHashes (info : NarInfoMeta) : Except TypeError (List StoreHash) :=
  collect referenceHash info.references

end NarInfoMeta

/-! ## Index entries -/

@[ext] structure OriginMetadata where
  runId : Option UInt64
  jobId : Option String
deriving DecidableEq, Repr

def OriginMetadata.validateStructure (origin : OriginMetadata) : Except TypeError Unit := do
  ensure (¬ (origin.runId = none ∧ origin.jobId = none)) .originMissingFields
  ensure (¬ origin.jobId.any fun jobId => Str.isEmpty (Str.trim jobId)) .emptyOriginJobId

@[ext] structure IndexEntry where
  name : String
  system : Option SystemArch
  narinfoMeta : NarInfoMeta
  narDigest : NarDigest
  narSize : UInt64
  added : String
  origin : Option OriginMetadata
deriving DecidableEq, Repr

namespace IndexEntry

def validateStructure (X : Crates) (entry : IndexEntry) : Except CoreError Unit := do
  ensure (¬ Str.isEmpty entry.name) (.invalidEntry "entry name must not be empty")
  ensure (entry.system ≠ some .unknown) (.invalidEntry "entry system must be known")
  entry.narinfoMeta.validateStructure
  let _ ← mapErr (fun error => CoreError.invalidEntry ("NAR digest: " ++ error.text))
    (NarDigest.parse entry.narDigest.val)
  ensure (entry.narSize ≠ 0) (.invalidEntry "NAR size must be greater than zero")
  ensure (¬ Str.isEmpty (Str.trim entry.added) ∧ (X.parseFromRfc3339 entry.added).isSome)
    (.invalidEntry "added must be a valid RFC3339 timestamp")
  NarInfoMeta.whenSome entry.origin fun origin => liftType origin.validateStructure

/-- `store_hash`. -/
def storeHash (entry : IndexEntry) : Option StoreHash := entry.narinfoMeta.storeHash

end IndexEntry

end NixCache.Core

import NixCache.Lib.Result
import NixCache.Lib.Str
/-!
# Registry endpoints

`nixcache-oci/src/backend/endpoint.rs`.  The parser of the `http` crate is a parameter; IP addresses
are read as `std::net` reads them.
-/

namespace NixCache.Oci

open NixCache.Lib NixCache.Lib.Result

/-- What the client reads of an `http::Uri`. -/
structure Uri where
  authority : Option String
  path : String
  query : Option String
deriving DecidableEq, Repr

inductive RegistryScheme where
  | http
  | https
deriving DecidableEq, Repr

def RegistryScheme.asStr : RegistryScheme → String
  | http => "http"
  | https => "https"

inductive RegistryEndpointError where
  | empty
  | unsupportedScheme (input scheme : String)
  | missingAuthority (input : String)
  | userInfo (input : String)
  | queryOrFragment (input : String)
  | invalidAuthority (input details : String)
  | invalidLocation (input details : String)
deriving DecidableEq, Repr

/-- The text that `thiserror` derives. -/
def RegistryEndpointError.text : RegistryEndpointError → String
  | empty => "registry endpoint is empty"
  | unsupportedScheme input scheme =>
      "registry endpoint '" ++ input ++ "' has unsupported scheme '" ++ scheme ++ "'"
  | missingAuthority input => "registry endpoint '" ++ input ++ "' has no authority"
  | userInfo input => "registry endpoint '" ++ input ++ "' contains userinfo"
  | queryOrFragment input => "registry endpoint '" ++ input ++ "' contains a query or fragment"
  | invalidAuthority input details =>
      "registry endpoint '" ++ input ++ "' has invalid authority: " ++ details
  | invalidLocation input details =>
      "registry location '" ++ input ++ "' is invalid: " ++ details

/-! ## IP addresses -/

namespace Ip

/-- The parts between occurrences of `sep`. -/
def splitOn (sep : Char) (cs : List Char) : List (List Char) := cs.splitOn sep

/-- A decimal octet without leading zeros. -/
def octet (cs : List Char) : Option Nat :=
  if cs.all Str.isAsciiDigit ∧ (cs.length = 1 ∨ (cs.length ∈ [2, 3] ∧ cs.head? ≠ some '0')) ∧
      Str.decimalValue cs < 256 then
    some (Str.decimalValue cs)
  else none

/-- `Ipv4Addr::from_str`. -/
def parseV4 (cs : List Char) : Option (List Nat) :=
  let parts := splitOn '.' cs
  if parts.length = 4 then parts.mapM octet else none

def hexDigitValue (c : Char) : Nat :=
  if Str.isAsciiDigit c then c.toNat - '0'.toNat
  else (Str.lowerAscii c).toNat - 'a'.toNat + 10

/-- A group of one to four hexadecimal digits. -/
def group (cs : List Char) : Option (List Nat) :=
  if 1 ≤ cs.length ∧ cs.length ≤ 4 ∧ cs.all Str.isAsciiHexdigit then
    some [cs.foldl (fun value c => 16 * value + hexDigitValue c) 0]
  else none

/-- The last part may be an IPv4 address, which stands for two groups. -/
def lastGroup (cs : List Char) : Option (List Nat) :=
  match parseV4 cs with
  | some [a, b, c, d] => some [256 * a + b, 256 * c + d]
  | _ => group cs

def groups (last : List Char → Option (List Nat)) (cs : List Char) : Option (List Nat) :=
  if cs.isEmpty then some []
  else
    let parts := splitOn ':' cs
    do
      let front ← (parts.dropLast).mapM group
      let back ← last (parts.getLastD [])
      pure (front.flatten ++ back)

/-- `Ipv6Addr::from_str`: eight groups, or fewer around one `::`. -/
def parseV6 (cs : List Char) : Option (List Nat) :=
  match Str.splitOnceListChars [':', ':'] cs with
  | some (head, tail) => do
      let front ← groups group head
      let back ← groups lastGroup tail
      if front.length + back.length ≤ 7 then
        some (front ++ List.replicate (8 - (front.length + back.length)) 0 ++ back)
      else none
  | none => do
      let all ← groups lastGroup cs
      if all.length = 8 then some all else none

/-- `IpAddr::from_str`, then `is_loopback() || is_unspecified()`. -/
def isLocal (host : String) : Bool :=
  match parseV4 host.toList with
  | some octets => octets.head? = some 127 ∨ octets = [0, 0, 0, 0]
  | none =>
      match parseV6 host.toList with
      | some all => all = [0, 0, 0, 0, 0, 0, 0, 1] ∨ all = List.replicate 8 0
      | none => false

end Ip

/-! ## Endpoints -/

structure RegistryEndpoint where
  scheme : RegistryScheme
  host : String
  port : Option UInt16
  authority : String
  basePath : String
deriving DecidableEq, Repr

def parseScheme (input scheme : String) : Except RegistryEndpointError RegistryScheme :=
  let lower := Str.toAsciiLowercase scheme
  if lower = "http" then .ok .http
  else if lower = "https" then .ok .https
  else .error (.unsupportedScheme input scheme)

def parsePort (input port : String) : Except RegistryEndpointError UInt16 := do
  ensure (¬ Str.isEmpty port ∧ port.toList.all Str.isAsciiDigit)
    (.invalidAuthority input "port must be a decimal number")
  let value ← okOr (.invalidAuthority input "port is outside the valid range")
    (Str.parseBelow 65536 port)
  pure (UInt16.ofNat value)

/-- The host and port of a bracketed IPv6 literal. -/
def parseBracketed (input authority : String) :
    Except RegistryEndpointError (String × Option UInt16) := do
  let (bracketed, suffix) ← okOr (.invalidAuthority input "unterminated IPv6 literal")
    (Str.splitOnce authority ']')
  let host := String.ofList (bracketed.toList.drop 1)
  ensure (Ip.parseV6 host.toList).isSome (.invalidAuthority input "invalid IPv6 literal")
  let port ←
    if Str.isEmpty suffix then pure none
    else do
      let port ← okOr
        (.invalidAuthority input "characters after IPv6 literal must be a port")
        (Str.stripPrefix suffix ":")
      some <$> parsePort input port
  pure (Str.toAsciiLowercase host, port)

def parsePlain (input authority : String) :
    Except RegistryEndpointError (String × Option UInt16) := do
  ensure (¬ (Str.containsChar authority '[' ∨ Str.containsChar authority ']' ∨
      1 < authority.toList.count ':'))
    (.invalidAuthority input "IPv6 literals must be enclosed in brackets")
  match Str.rsplitOnce authority ':' with
  | some (host, port) => do
      let port ← parsePort input port
      pure (Str.toAsciiLowercase host, some port)
  | none => pure (Str.toAsciiLowercase authority, none)

/-- `char::is_ascii_whitespace`. -/
def isAsciiWhitespace (c : Char) : Bool :=
  c = ' ' ∨ c = '\t' ∨ c = '\n' ∨ c = '\r' ∨ c = Char.ofNat 12

def parseAuthority (input authority : String) :
    Except RegistryEndpointError (String × Option UInt16) := do
  ensure (¬ Str.isEmpty authority) (.missingAuthority input)
  let (host, port) ←
    if Str.startsWith authority "[" then parseBracketed input authority
    else parsePlain input authority
  ensure (¬ (Str.isEmpty host ∨
      host.toList.any fun c => isAsciiWhitespace c || c == '/' || c == '?' || c == '#'))
    (.invalidAuthority input "host is empty or contains an invalid character")
  pure (host, port)

def formatAuthority (host : String) (port : Option UInt16) : String :=
  let host := if Str.containsChar host ':' then "[" ++ host ++ "]" else host
  match port with
  | some port => host ++ ":" ++ toString port.toNat
  | none => host

def normalizeBasePath (path : String) : String :=
  let path := Str.trimMatches path '/'
  if Str.isEmpty path then "" else "/" ++ path

def isLocalHost (host : String) : Bool := host = "localhost" ∨ Ip.isLocal host

namespace RegistryEndpoint

section

variable (parseUri : String → Except String Uri)

def parseWithScheme (input : String) (scheme : RegistryScheme) (authorityAndPath : String) :
    Except RegistryEndpointError RegistryEndpoint := do
  ensure (¬ (Str.isEmpty authorityAndPath ∨ Str.startsWith authorityAndPath "/"))
    (.missingAuthority input)
  let uri ← mapErr (fun error => RegistryEndpointError.invalidAuthority input error)
    (parseUri (scheme.asStr ++ "://" ++ authorityAndPath))
  let authority ← okOr (.missingAuthority input) uri.authority
  ensure (¬ Str.containsChar authority '@') (.userInfo input)
  ensure (uri.query = none) (.queryOrFragment input)
  let (host, port) ← parseAuthority input authority
  pure ⟨scheme, host, port, formatAuthority host port, normalizeBasePath uri.path⟩

/-- `RegistryEndpoint::parse`. -/
def parse (input : String) : Except RegistryEndpointError RegistryEndpoint := do
  let trimmed := Str.trim input
  ensure (¬ Str.isEmpty trimmed) .empty
  ensure (¬ Str.containsChar trimmed '#') (.queryOrFragment trimmed)
  match Str.splitOnceStr trimmed "://" with
  | some (rawScheme, rest) => do
      let scheme ← parseScheme trimmed rawScheme
      parseWithScheme parseUri trimmed scheme rest
  | none => do
      let provisional ← parseWithScheme parseUri trimmed .https trimmed
      if isLocalHost provisional.host then parseWithScheme parseUri trimmed .http trimmed
      else pure provisional

end

def origin (endpoint : RegistryEndpoint) : String :=
  endpoint.scheme.asStr ++ "://" ++ endpoint.authority

def apiUrl (endpoint : RegistryEndpoint) (path : String) : String :=
  endpoint.origin ++ endpoint.basePath ++ "/" ++ Str.trimStartMatches path '/'

/-- An absolute `Location`. -/
def resolveAbsolute (parseUri : String → Except String Uri) (location rawScheme rest : String) :
    Except RegistryEndpointError String := do
  let scheme ← mapErr (fun error => .invalidLocation location (RegistryEndpointError.text error))
    (parseScheme location rawScheme)
  let uri ← mapErr (fun error => RegistryEndpointError.invalidLocation location error)
    (parseUri location)
  let authority ← okOr (.invalidLocation location "absolute location has no authority")
    uri.authority
  ensure (¬ Str.containsChar authority '@') (.invalidLocation location "userinfo is not allowed")
  let _ ← mapErr (fun error => .invalidLocation location (RegistryEndpointError.text error))
    (parseAuthority location authority)
  pure (scheme.asStr ++ "://" ++ rest)

/-- `resolve_location`. -/
def resolveLocation (parseUri : String → Except String Uri) (endpoint : RegistryEndpoint)
    (location : String) : Except RegistryEndpointError String := do
  let location := Str.trim location
  ensure (¬ Str.isEmpty location) (.invalidLocation location "location is empty")
  ensure (¬ Str.containsChar location '#')
    (.invalidLocation location "fragments are not valid request targets")
  match Str.splitOnceStr location "://" with
  | some (rawScheme, rest) => resolveAbsolute parseUri location rawScheme rest
  | none => do
      ensure (¬ Str.startsWith location "//")
        (.invalidLocation location "network-path references are not supported")
      let resolved :=
        if Str.startsWith location "/" then endpoint.origin ++ location
        else endpoint.origin ++ endpoint.basePath ++ "/" ++ Str.trimStartMatches location '/'
      let _ ← mapErr (fun error => RegistryEndpointError.invalidLocation location error)
        (parseUri resolved)
      pure resolved

def replaceHost (endpoint : RegistryEndpoint) (host : String) : RegistryEndpoint :=
  let host := Str.toAsciiLowercase host
  { endpoint with host := host, authority := formatAuthority host endpoint.port }

end RegistryEndpoint

end NixCache.Oci

import NixCache.Lib.Json
/-!
# Documents read as values

`serde_json::Value`: an object keeps the last of the fields with one name, so that a document read
as a value first has no duplicate fields.
-/

namespace NixCache.Lib.Json

mutual

/-- The document as a `Value`. -/
def asValue : Json → Json
  | arr items => arr (asValues items)
  | obj fields => obj (asFields fields)
  | json => json

def asValues : List Json → List Json
  | [] => []
  | item :: items => asValue item :: asValues items

/-- A later field replaces an earlier one with its name. -/
def asFields : List (String × Json) → List (String × Json)
  | [] => []
  | (name, value) :: fields =>
      let rest := asFields fields
      if name ∈ rest.map Prod.fst then rest else (name, asValue value) :: rest

end

/-- `Value::get` with a name. -/
def get (name : String) : Json → Option Json
  | obj fields => fields.lookup name
  | _ => none

/-- `Value::as_u64`. -/
def asU64 : Json → Option UInt64
  | int value =>
      if 0 ≤ value ∧ value < 18446744073709551616 then some (UInt64.ofNat value.toNat) else none
  | _ => none

/-- `Value::as_str`. -/
def asStr : Json → Option String
  | str value => some value
  | _ => none

end NixCache.Lib.Json

import NixCache.Lib.Str
/-!
# Environment variables

`nixcache-utils/src/env.rs`, as far as the selector arguments use it.
-/

namespace NixCache.Cli

open NixCache.Lib

/-- `std::env::var(key).ok()` of every key. -/
abbrev Environment := String → Option String

namespace Env

/-- `non_empty_str`. -/
def nonEmptyStr (s : String) : Option String :=
  if Str.isEmpty (Str.trim s) then none else some (Str.trim s)

def get (env : Environment) (key : String) : Option String := (env key).bind nonEmptyStr

def getFirst (env : Environment) (keys : List String) : Option String := keys.findSome? (get env)

/-- `get_bool`; `toLowercase` is `str::to_lowercase`. -/
def getBool (toLowercase : String → String) (env : Environment) (key : String) : Option Bool :=
  (get env key).bind fun s =>
    if toLowercase s ∈ ["1", "true", "yes", "on"] then some true
    else if toLowercase s ∈ ["0", "false", "no", "off"] then some false
    else none

end Env

end NixCache.Cli

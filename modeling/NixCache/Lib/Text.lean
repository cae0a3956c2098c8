import Mathlib.Data.List.Induction
import NixCache.Lib.Str
/-!
# Trimming, suffixes and escapes

Laws of the text operations that build and take apart paths.
-/

namespace NixCache.Lib.Str

/-! ## Trimming -/

theorem asBytes_ofList (cs : List Char) :
    asBytes (String.ofList cs) = cs.flatMap String.utf8EncodeChar := by
  rw [asBytes, String.toUTF8_eq_toByteArray, String.toByteArray_ofList]
  induction cs with
  | nil => rfl
  | cons c cs ih =>
      rw [List.utf8Encode_cons, ByteArray.data_append, Array.toList_append, ih,
        List.utf8Encode_singleton, List.flatMap_cons]
      simp

theorem endsWith_iff {s suffix : String} :
    endsWith s suffix = true ↔ ∃ init, s.toList = init ++ suffix.toList := by
  rw [endsWith, List.isSuffixOf_iff_suffix]
  constructor
  · rintro ⟨init, h⟩
    exact ⟨init, h.symm⟩
  · rintro ⟨init, h⟩
    exact ⟨init, h.symm⟩

/-- `str::replace` of a `char`. -/
def replaceChar (s : String) (c : Char) (by_ : String) : String :=
  String.ofList (s.toList.flatMap fun d => if d = c then by_.toList else [d])

end NixCache.Lib.Str

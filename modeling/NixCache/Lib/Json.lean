import NixCache.Lib.HashMap
import NixCache.Lib.Result
/-!
# JSON documents and derived decoders

A document after the text has been read, and the decoders that `serde` derives: a record takes its
declared fields from an object by name or from an array by position, ignores what it does not know
and refuses a field given twice.  Which of several faults is reported first is left open.
-/

namespace NixCache.Lib

open Result

inductive Json where
  | null
  | bool (value : Bool)
  | int (value : Int)
  | float (text : String)
  | str (value : String)
  | arr (items : List Json)
  | obj (fields : List (String × Json))

inductive JsonError where
  | malformed
  | invalidType
  | invalidValue
  | invalidLength (actual : Nat)
  | missingField (name : String)
  | duplicateField (name : String)
  | noVariant
  | custom (message : String)
deriving DecidableEq, Repr

namespace Json

variable {α κ : Type}

abbrev Decoder (α : Type) := Json → Except JsonError α

def text : Decoder String
  | str value => .ok value
  | _ => .error .invalidType

/-- An unsigned integer below `bound`. -/
def natBelow (bound : Nat) : Decoder Nat
  | int value =>
      if 0 ≤ value ∧ value < bound then .ok value.toNat else .error .invalidValue
  | _ => .error .invalidType

def u16 : Decoder UInt16 := fun json => UInt16.ofNat <$> natBelow 65536 json

def u32 : Decoder UInt32 := fun json => UInt32.ofNat <$> natBelow 4294967296 json

def u64 : Decoder UInt64 := fun json => UInt64.ofNat <$> natBelow 18446744073709551616 json

def list (decode : Decoder α) : Decoder (List α)
  | arr items => collect decode items
  | _ => .error .invalidType

def option (decode : Decoder α) : Decoder (Option α)
  | null => .ok none
  | json => some <$> decode json

/-- A map: a later field replaces an earlier one with its key. -/
def map [DecidableEq κ] (key : String → Except JsonError κ) (decode : Decoder α) :
    Decoder (HashMap κ α)
  | obj fields => do
      let pairs ← collect
        (fun field => do
          let k ← key field.1
          let value ← decode field.2
          pure (k, value))
        fields
      pure (HashMap.ofList pairs)
  | _ => .error .invalidType

/-- The declared fields of a record, by name. -/
def record (names : List String) : Decoder (String → Option Json)
  | obj fields => do
      checkAll
        (fun name => ensure ((fields.filter fun field => field.1 = name).length ≤ 1)
          (JsonError.duplicateField name))
        names
      pure fun name => fields.lookup name
  | arr items => do
      ensure (items.length = names.length) (JsonError.invalidLength items.length)
      pure fun name => (names.zip items).lookup name
  | _ => .error .invalidType

/-- A field without a default. -/
def field (fields : String → Option Json) (name : String) (decode : Decoder α) :
    Except JsonError α := do
  let json ← okOr (.missingField name) (fields name)
  decode json

/-- A field of type `Option`: an absent one is `None`. -/
def optionField (fields : String → Option Json) (name : String) (decode : Decoder α) :
    Except JsonError (Option α) :=
  match fields name with
  | some json => option decode json
  | none => .ok none

/-- The document of an `Option` field. -/
def ofOption (encode : α → Json) : Option α → Json
  | some value => encode value
  | none => null

/-- The document of a map, in iteration order. -/
def ofMap (key : κ → String) (encode : α → Json) (m : HashMap κ α) : Json :=
  obj (m.toList.map fun pair => (key pair.1, encode pair.2))

/-! ## What is decoded again -/

@[simp] theorem text_str (value : String) : text (str value) = .ok value := rfl

@[simp] theorem natBelow_int {bound n : Nat} (h : n < bound) : natBelow bound (int n) = .ok n := by
  have hrange : 0 ≤ (n : Int) ∧ (n : Int) < bound := by omega
  simp only [natBelow, hrange, and_self, if_true, Int.toNat_natCast]

@[simp] theorem u16_int (value : UInt16) : u16 (int value.toNat) = .ok value := by
  simp [u16, natBelow_int value.toNat_lt]

@[simp] theorem u32_int (value : UInt32) : u32 (int value.toNat) = .ok value := by
  simp [u32, natBelow_int value.toNat_lt]

@[simp] theorem u64_int (value : UInt64) : u64 (int value.toNat) = .ok value := by
  simp [u64, natBelow_int value.toNat_lt]

theorem list_arr {decode : Decoder α} {encode : α → Json} {values : List α}
    (h : ∀ value ∈ values, decode (encode value) = .ok value) :
    list decode (arr (values.map encode)) = .ok values := by
  unfold list
  rw [collect_eq_ok, List.forall₂_map_left_iff, List.forall₂_same]
  exact h

theorem option_ofOption {decode : Decoder α} {encode : α → Json} {value : Option α}
    (hnull : ∀ v, encode v ≠ null) (h : ∀ v ∈ value, decode (encode v) = .ok v) :
    option decode (ofOption encode value) = .ok value := by
  cases value with
  | none => rfl
  | some v =>
      rw [ofOption, option]
      · rw [h v rfl]
        rfl
      · exact hnull v

@[simp] theorem list_text (values : List String) : list text (arr (values.map str)) = .ok values :=
  list_arr fun value _ => text_str value

@[simp] theorem option_text (value : Option String) :
    option text (ofOption str value) = .ok value :=
  option_ofOption (by simp) fun v _ => text_str v

@[simp] theorem option_u64 (value : Option UInt64) :
    option u64 (ofOption (fun v => int v.toNat) value) = .ok value :=
  option_ofOption (by simp) fun v _ => u64_int v

theorem map_ofMap [DecidableEq κ] {key : String → Except JsonError κ} {decode : Decoder α}
    {name : κ → String} {encode : α → Json} {m : HashMap κ α}
    (h : ∀ k v, m.lookup k = some v → key (name k) = .ok k ∧ decode (encode v) = .ok v) :
    map key decode (ofMap name encode m) = .ok m := by
  have hpairs : collect
      (fun field : String × Json => do
        let k ← key field.1
        let value ← decode field.2
        pure (k, value))
      (m.toList.map fun pair => (name pair.1, encode pair.2)) = .ok m.toList := by
    rw [collect_eq_ok, List.forall₂_map_left_iff, List.forall₂_same]
    rintro ⟨k, v⟩ hmem
    obtain ⟨hkey, hvalue⟩ := h k v (HashMap.mem_toList_iff.mp hmem)
    simp [hkey, hvalue]
  unfold map ofMap
  simp only [hpairs, bind_eq_ok, Except.ok.injEq, exists_eq_left', pure_eq_ok]
  exact HashMap.ofList_toList m

/-- An object with every declared field once. -/
theorem record_obj {names : List String} {fields : List (String × Json)}
    (h : (fields.map Prod.fst).Nodup) :
    record names (obj fields) = .ok fun name => fields.lookup name := by
  unfold record
  simp only [bind_eq_ok, checkAll_eq_ok, ensure_eq_ok, pure_eq_ok]
  refine ⟨(), ?_, trivial⟩
  intro name _
  have hcount : (fields.map Prod.fst).count name ≤ 1 := List.nodup_iff_count_le_one.mp h name
  rw [List.count_eq_countP, List.countP_map, List.countP_eq_length_filter] at hcount
  simpa only [Function.comp_def, beq_eq_decide] using hcount

end Json

end NixCache.Lib

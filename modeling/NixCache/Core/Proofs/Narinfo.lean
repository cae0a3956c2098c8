import NixCache.Core.Narinfo
/-!
# What the narinfo parser accepts

The loop of `NarInfo::parse` threads twelve variables.  What it leaves in each of them depends only
on the values of one key, so a text is accepted with a result exactly when each field of the result
is what the values of its key say.
-/

namespace NixCache.Core

open NixCache.Lib NixCache.Lib.Result

/-! ## Fields of a text -/

/-- The fields of the lines that have a known key. -/
def fieldsOf (text : String) : List (NarInfoKey × String) :=
  (Str.lines text).filterMap fun line => (lineField line).toOption.join

/-- The values of a key, in the order of their lines. -/
def valuesOf (key : NarInfoKey) (fields : List (NarInfoKey × String)) : List String :=
  fields.filterMap fun field => if field.1 = key then some field.2 else none

theorem mem_valuesOf {key : NarInfoKey} {fields : List (NarInfoKey × String)} {value : String} :
    value ∈ valuesOf key fields ↔ (key, value) ∈ fields := by
  simp [valuesOf, List.mem_filterMap]

theorem valuesOf_append (key : NarInfoKey) (front back : List (NarInfoKey × String)) :
    valuesOf key (front ++ back) = valuesOf key front ++ valuesOf key back :=
  List.filterMap_append

theorem valuesOf_concat_self (key : NarInfoKey) (value : String)
    (fields : List (NarInfoKey × String)) :
    valuesOf key (fields ++ [(key, value)]) = valuesOf key fields ++ [value] := by
  simp [valuesOf]

theorem valuesOf_concat_of_ne {key other : NarInfoKey} (h : other ≠ key) (value : String)
    (fields : List (NarInfoKey × String)) :
    valuesOf key (fields ++ [(other, value)]) = valuesOf key fields := by
  simp [valuesOf, h]

namespace NarInfoKey

theorem mem_all (key : NarInfoKey) : key ∈ all := by cases key <;> decide

theorem ofName_name (key : NarInfoKey) : ofName key.name = some key := by cases key <;> rfl

theorem name_of_ofName {s : String} {key : NarInfoKey} (h : ofName s = some key) :
    key.name = s := by
  simpa using List.find?_some h

theorem ofName_eq_some {s : String} {key : NarInfoKey} : ofName s = some key ↔ key.name = s := by
  constructor
  · exact name_of_ofName
  · rintro rfl
    exact ofName_name key

end NarInfoKey

/-- The line carries the field. -/
theorem lineField_eq_some {line : String} {key : NarInfoKey} {value : String} :
    lineField line = .ok (some (key, value)) ↔
      (Str.trim line).toList ≠ [] ∧ Str.startsWith (Str.trim line) "#" = false ∧
        keyValue (Str.trim line) = some (key.name, value) := by
  unfold lineField
  by_cases hskip : Str.isEmpty (Str.trim line) = true ∨ Str.startsWith (Str.trim line) "#" = true
  · rw [if_pos hskip]
    simp only [Except.ok.injEq, reduceCtorEq, false_iff]
    rintro ⟨hne, hcomment, -⟩
    rcases hskip with hempty | hcomment'
    · exact hne (List.isEmpty_iff.mp hempty)
    · rw [hcomment] at hcomment'
      cases hcomment'
  · rw [if_neg hskip]
    obtain ⟨hempty, hcomment⟩ := not_or.mp hskip
    have hne : (Str.trim line).toList ≠ [] := fun h => hempty (List.isEmpty_iff.mpr h)
    simp only [bind_eq_ok, okOr_eq_ok, pure_eq_ok, Option.map_eq_some_iff, Prod.mk.injEq,
      Prod.exists, Bool.not_eq_true] at hcomment ⊢
    constructor
    · rintro ⟨name, value', hsplit, key', hname, rfl, rfl⟩
      rw [NarInfoKey.ofName_eq_some] at hname
      exact ⟨hne, hcomment, hname ▸ hsplit⟩
    · rintro ⟨-, -, hsplit⟩
      exact ⟨_, _, hsplit, key, key.ofName_name, rfl, rfl⟩

/-- A value is trimmed, and taken from its line. -/
theorem of_keyValue_eq_some {line key value : String} (h : keyValue line = some (key, value)) :
    Str.Trimmed value.toList ∧ ∀ c ∈ value.toList, c ∈ line.toList := by
  obtain ⟨⟨before, after⟩, hsplit, hp⟩ := Option.map_eq_some_iff.mp h
  obtain ⟨⟨front, back⟩, hchars, hq⟩ := Option.map_eq_some_iff.mp hsplit
  cases hp
  cases hq
  refine ⟨Str.trimmed_trim _, fun c hc => ?_⟩
  have hback := Str.mem_of_mem_trim hc
  rw [String.toList_ofList] at hback
  rw [(Str.splitOnceChars_eq_some.mp hchars).1]
  simp [hback]

theorem mem_fieldsOf {text : String} {key : NarInfoKey} {value : String} :
    (key, value) ∈ fieldsOf text ↔
      ∃ line ∈ Str.lines text, lineField line = .ok (some (key, value)) := by
  rw [fieldsOf, List.mem_filterMap]
  constructor
  · rintro ⟨line, hline, hfield⟩
    refine ⟨line, hline, ?_⟩
    cases hread : lineField line with
    | error error => simp [hread, Except.toOption] at hfield
    | ok field => simpa [hread, Except.toOption] using hfield
  · rintro ⟨line, hline, hfield⟩
    exact ⟨line, hline, by simp [hfield, Except.toOption]⟩

/-- A text without `\n` at its ends that stays on its line. -/
structure IsValue (value : String) : Prop where
  trimmed : Str.Trimmed value.toList
  oneLine : '\n' ∉ value.toList

theorem isValue_of_mem_fieldsOf {text : String} {key : NarInfoKey} {value : String}
    (h : (key, value) ∈ fieldsOf text) : IsValue value := by
  obtain ⟨line, hline, hfield⟩ := mem_fieldsOf.mp h
  obtain ⟨htrimmed, hmem⟩ := of_keyValue_eq_some (lineField_eq_some.mp hfield).2.2
  refine ⟨htrimmed, fun hnewline => ?_⟩
  exact Str.newline_not_mem_of_mem_lines hline (Str.mem_of_mem_trim (hmem _ hnewline))

theorem isValue_of_mem_valuesOf {text : String} {key : NarInfoKey} {value : String}
    (h : value ∈ valuesOf key (fieldsOf text)) : IsValue value :=
  isValue_of_mem_fieldsOf (mem_valuesOf.mp h)

/-! ## One key -/

/-- The variable holds what is read from the one value, or nothing without a value. -/
def Single {α : Type} (read : String → Except NarInfoParseError α) (values : List String)
    (held : Option α) : Prop :=
  List.Forall₂ (fun value result => read value = .ok result) values held.toList

namespace Single

variable {α : Type} {read : String → Except NarInfoParseError α} {values : List String}

theorem nil_iff {held : Option α} : Single read [] held ↔ held = none := by
  cases held <;> simp [Single]

theorem singleton_iff {value : String} {held : Option α} :
    Single read [value] held ↔ ∃ result, read value = .ok result ∧ held = some result := by
  cases held with
  | none => simp [Single]
  | some result => simp [Single]

theorem some_iff {result : α} :
    Single read values (some result) ↔ ∃ value, values = [value] ∧ read value = .ok result := by
  rw [Single, Option.toList_some, List.forall₂_cons_right_iff]
  constructor
  · rintro ⟨value, rest, hread, hrest, rfl⟩
    rw [List.forall₂_nil_right_iff.mp hrest]
    exact ⟨value, rfl, hread⟩
  · rintro ⟨value, rfl, hread⟩
    exact ⟨value, [], hread, .nil, rfl⟩

theorem exists_of_mem {held : Option α} (h : Single read values held) {result : α}
    (hresult : result ∈ held) : ∃ value, values = [value] ∧ read value = .ok result :=
  some_iff.mp (Option.mem_def.mp hresult ▸ h)

theorem exists_of_mem_values {held : Option α} (h : Single read values held) {value : String}
    (hvalue : value ∈ values) : ∃ result, held = some result ∧ read value = .ok result := by
  cases held with
  | none =>
      rw [Single, Option.toList_none, List.forall₂_nil_right_iff] at h
      simp [h] at hvalue
  | some result =>
      obtain ⟨value', rfl, hresult⟩ := some_iff.mp h
      rw [List.mem_singleton.mp hvalue]
      exact ⟨result, rfl, hresult⟩

theorem length_le {held : Option α} (h : Single read values held) :
    values.length ≤ 1 := by
  have hlength := List.Forall₂.length_eq h
  cases held <;> simp_all

theorem unique {first second : Option α} (hfirst : Single read values first)
    (hsecond : Single read values second) : first = second := by
  cases values with
  | nil => rw [nil_iff.mp hfirst, nil_iff.mp hsecond]
  | cons value rest =>
      obtain rfl : rest = [] := by
        have hlength := hfirst.length_le
        rw [List.length_cons] at hlength
        exact List.length_eq_zero_iff.mp (by omega)
      obtain ⟨result, hread, rfl⟩ := singleton_iff.mp hfirst
      obtain ⟨result', hread', rfl⟩ := singleton_iff.mp hsecond
      rw [hread] at hread'
      cases hread'
      rfl

end Single

namespace NarInfoFields

/-- The variable of a key holds what the values of the key say. -/
def Holds (fields : NarInfoFields) (values : List String) : NarInfoKey → Prop
  | .storePath => Single readStorePath values fields.storePath
  | .url => Single parseNarUrl values fields.narBasename
  | .compression => ∃ part, Single readCompression values part ∧ fields.compression = part.join
  | .fileHash => Single (readHash .fileHash) values fields.fileHash
  | .fileSize => Single (readSize .fileSize) values fields.fileSize
  | .narHash => Single (readHash .narHash) values fields.narHash
  | .narSize => Single (readSize .narSize) values fields.narSize
  | .references => ∃ part, Single readReferences values part ∧ fields.references = part.getD []
  | .deriver => Single readDeriver values fields.deriver
  | .sig => fields.signatures = values.filterMap readSig
  | .ca => Single readCa values fields.ca

theorem holds_empty (key : NarInfoKey) : Holds .empty [] key := by
  cases key with
  | compression => exact ⟨none, Single.nil_iff.mpr rfl, rfl⟩
  | references => exact ⟨none, Single.nil_iff.mpr rfl, rfl⟩
  | sig => rfl
  | storePath | url | fileHash | fileSize | narHash | narSize | deriver | ca =>
      exact Single.nil_iff.mpr rfl

theorem Holds.length_le {fields : NarInfoFields} {values : List String} {key : NarInfoKey}
    (h : Holds fields values key) (hkey : key ≠ .sig) : values.length ≤ 1 := by
  cases key with
  | sig => exact absurd rfl hkey
  | compression | references =>
      obtain ⟨part, hpart, -⟩ := h
      exact hpart.length_le
  | storePath | url | fileHash | fileSize | narHash | narSize | deriver | ca =>
      exact Single.length_le h

/-- The value can be read for the key. -/
def Accepts (key : NarInfoKey) (value : String) : Prop :=
  ∃ fields, set .empty key value = .ok fields

/-- Whether a value can be read does not depend on the variables. -/
theorem exists_set_iff (fields : NarInfoFields) (key : NarInfoKey) (value : String) :
    (∃ fields', fields.set key value = .ok fields') ↔ Accepts key value := by
  cases key <;> simp [Accepts, set]

theorem Holds.accepts {fields : NarInfoFields} {values : List String} {key : NarInfoKey}
    (h : Holds fields values key) {value : String} (hvalue : value ∈ values) :
    Accepts key value := by
  cases key with
  | sig => simp [Accepts, set]
  | compression | references =>
      obtain ⟨part, hpart, -⟩ := h
      obtain ⟨result, -, hresult⟩ := hpart.exists_of_mem_values hvalue
      simp [Accepts, set, hresult]
  | storePath | url | fileHash | fileSize | narHash | narSize | deriver | ca =>
      obtain ⟨result, -, hresult⟩ := Single.exists_of_mem_values h hvalue
      simp [Accepts, set, hresult]

/-! ## One line -/

/-- The first value of a key, or a further signature. -/
theorem holds_set_self {fields fields' : NarInfoFields} {key : NarInfoKey} {value : String}
    {values : List String} (hset : fields.set key value = .ok fields')
    (hholds : Holds fields values key) (hfirst : key ≠ .sig → values = []) :
    Holds fields' (values ++ [value]) key := by
  cases key with
  | sig =>
      simp only [set, pure_eq_ok] at hset
      subst hset
      rw [Holds] at hholds ⊢
      rw [hholds, List.filterMap_append]
      cases hsig : readSig value <;> simp [hsig]
  | compression =>
      obtain rfl := hfirst (by decide)
      obtain ⟨part, hpart, hnone⟩ := hholds
      rw [Single.nil_iff.mp hpart, Option.join_none] at hnone
      simp only [set, bind_eq_ok, pure_eq_ok] at hset
      obtain ⟨compression, hread, rfl⟩ := hset
      refine ⟨some compression, Single.singleton_iff.mpr ⟨_, hread, rfl⟩, ?_⟩
      cases compression <;> simp [hnone]
  | references =>
      obtain rfl := hfirst (by decide)
      obtain ⟨part, hpart, hnone⟩ := hholds
      rw [Single.nil_iff.mp hpart, Option.getD_none] at hnone
      simp only [set, bind_eq_ok, pure_eq_ok] at hset
      obtain ⟨references, hread, rfl⟩ := hset
      exact ⟨some references, Single.singleton_iff.mpr ⟨_, hread, rfl⟩, by simp [hnone]⟩
  | storePath | url | fileHash | fileSize | narHash | narSize | deriver | ca =>
      obtain rfl := hfirst (by decide)
      simp only [set, bind_eq_ok, pure_eq_ok] at hset
      obtain ⟨result, hread, rfl⟩ := hset
      exact Single.singleton_iff.mpr ⟨_, hread, rfl⟩

/-- The other variables stay. -/
theorem holds_set_of_ne {fields fields' : NarInfoFields} {key other : NarInfoKey} {value : String}
    {values : List String} (hset : fields.set key value = .ok fields')
    (hholds : Holds fields values other) (hne : key ≠ other) : Holds fields' values other := by
  cases key with
  | sig =>
      simp only [set, pure_eq_ok] at hset
      subst hset
      cases other with
      | sig => exact absurd rfl hne
      | _ => exact hholds
  | _ =>
      simp only [set, bind_eq_ok, pure_eq_ok] at hset
      obtain ⟨result, -, rfl⟩ := hset
      cases other <;> first | exact absurd rfl hne | exact hholds

theorem seenFields_set {fields fields' : NarInfoFields} {key : NarInfoKey} {value : String}
    (hset : fields.set key value = .ok fields') : fields'.seenFields = fields.seenFields := by
  cases key <;> simp only [set, bind_eq_ok, pure_eq_ok] at hset
  case sig => rw [← hset]
  all_goals
    obtain ⟨result, -, rfl⟩ := hset
    rfl

theorem see_eq_ok {fields fields' : NarInfoFields} {key : NarInfoKey} :
    fields.see key = .ok fields' ↔ (key ≠ .sig → key ∉ fields.seenFields) ∧
      fields' = { fields with
        seenFields := if key = .sig then fields.seenFields else fields.seenFields ++ [key] } := by
  unfold see
  by_cases hsig : key = .sig
  · simp only [hsig, if_true, Except.ok.injEq, ne_eq, not_true_eq_false, false_implies, true_and]
    exact eq_comm
  · simp only [hsig, if_false, bind_eq_ok, ensure_eq_ok, pure_eq_ok, ne_eq, not_false_eq_true,
      true_implies, exists_const]
    exact and_congr_right fun _ => eq_comm

/-- The variables after the fields are read. -/
structure Reads (read : List (NarInfoKey × String)) (fields : NarInfoFields) : Prop where
  holds : ∀ key, Holds fields (valuesOf key read) key
  seen : fields.seenFields = (read.map Prod.fst).filter (· ≠ .sig)

theorem Reads.mem_seen {read : List (NarInfoKey × String)} {fields : NarInfoFields}
    (h : Reads read fields) {key : NarInfoKey} (hkey : key ≠ .sig) :
    key ∈ fields.seenFields ↔ valuesOf key read ≠ [] := by
  rw [h.seen, List.mem_filter, List.mem_map]
  constructor
  · rintro ⟨⟨⟨key', value⟩, hmem, rfl⟩, -⟩
    exact List.ne_nil_of_mem (mem_valuesOf.mpr hmem)
  · intro hne
    obtain ⟨value, hvalue⟩ := List.exists_mem_of_ne_nil _ hne
    exact ⟨⟨(key, value), mem_valuesOf.mp hvalue, rfl⟩, by simpa using hkey⟩

theorem Reads.step {read : List (NarInfoKey × String)} {fields fields' : NarInfoFields}
    {field : NarInfoKey × String} (h : Reads read fields)
    (hread : fields.read field = .ok fields') : Reads (read ++ [field]) fields' := by
  obtain ⟨key, value⟩ := field
  obtain ⟨seen, hsee, hset⟩ := bind_eq_ok.mp hread
  obtain ⟨hnew, rfl⟩ := see_eq_ok.mp hsee
  constructor
  · intro other
    by_cases hkey : key = other
    · subst hkey
      rw [valuesOf_concat_self]
      refine holds_set_self hset ?_ fun hsig => ?_
      · exact h.holds key
      · exact not_not.mp fun hne => hnew hsig ((h.mem_seen hsig).mpr hne)
    · rw [valuesOf_concat_of_ne hkey]
      exact holds_set_of_ne hset (h.holds other) hkey
  · rw [seenFields_set hset, List.map_append, List.filter_append, ← h.seen]
    by_cases hsig : key = .sig <;> simp [hsig]

/-! ## The whole text -/

theorem foldM_concat {ε α β : Type} (f : β → α → Except ε β) (init : β) (xs : List α) (x : α) :
    foldM f init (xs ++ [x]) = (do
      let acc ← foldM f init xs
      f acc x) := by
  induction xs generalizing init with
  | nil =>
      cases hf : f init x <;> simp [foldM, hf, bind, Except.bind, Except.pure]
  | cons y ys ih =>
      rw [List.cons_append, foldM, foldM]
      cases hf : f init y with
      | error error => rfl
      | ok acc => exact ih acc

theorem reads_of_foldM {read : List (NarInfoKey × String)} {fields : NarInfoFields}
    (h : foldM NarInfoFields.read .empty read = .ok fields) : Reads read fields := by
  induction read using List.reverseRecOn generalizing fields with
  | nil =>
      cases h
      exact ⟨holds_empty, rfl⟩
  | append_singleton read field ih =>
      rw [foldM_concat] at h
      obtain ⟨before, hbefore, hfield⟩ := bind_eq_ok.mp h
      exact (ih hbefore).step hfield

/-- Values that can be read, one for each key that may occur once, are read. -/
theorem exists_foldM {read : List (NarInfoKey × String)}
    (haccepts : ∀ field ∈ read, Accepts field.1 field.2)
    (honce : ∀ key ≠ NarInfoKey.sig, (valuesOf key read).length ≤ 1) :
    ∃ fields, foldM NarInfoFields.read .empty read = .ok fields := by
  induction read using List.reverseRecOn with
  | nil => exact ⟨.empty, rfl⟩
  | append_singleton read field ih =>
      obtain ⟨key, value⟩ := field
      obtain ⟨before, hbefore⟩ := ih
        (fun field hmem => haccepts field (List.mem_append_left _ hmem))
        fun other hother => by
          have hle := honce other hother
          rw [valuesOf_append, List.length_append] at hle
          omega
      have hreads := reads_of_foldM hbefore
      have hnew : key ≠ .sig → key ∉ before.seenFields := by
        intro hsig hmem
        have hle := honce key hsig
        rw [valuesOf_concat_self, List.length_append, List.length_singleton] at hle
        exact (hreads.mem_seen hsig).mp hmem (List.length_eq_zero_iff.mp (by omega))
      obtain ⟨fields, hset⟩ := (exists_set_iff _ key value).mpr (haccepts (key, value) (by simp))
      refine ⟨fields, ?_⟩
      rw [foldM_concat, hbefore]
      change before.read (key, value) = .ok fields
      exact bind_eq_ok.mpr ⟨_, see_eq_ok.mpr ⟨hnew, rfl⟩, hset⟩

theorem foldM_readLine_eq_ok {lines : List String} {fields fields' : NarInfoFields} :
    foldM readLine fields lines = .ok fields' ↔
      (∀ line ∈ lines, ∃ field, lineField line = .ok field) ∧
        foldM NarInfoFields.read fields
          (lines.filterMap fun line => (lineField line).toOption.join) = .ok fields' := by
  induction lines generalizing fields with
  | nil => simp [foldM]
  | cons line lines ih =>
      rw [foldM, readLine]
      cases hline : lineField line with
      | error error => simp [hline, bind, Except.bind]
      | ok field =>
          cases field with
          | none =>
              rw [List.filterMap_cons_none (by simp [hline, Except.toOption])]
              simp [hline, ih]
          | some field =>
              rw [List.filterMap_cons_some (by simp [hline, Except.toOption]; rfl)]
              simp only [List.forall_mem_cons, hline, foldM, bind_eq_ok, ih]
              constructor
              · rintro ⟨acc, ⟨field', hfield', hread⟩, hall, hfold⟩
                cases hfield'
                exact ⟨⟨⟨_, rfl⟩, hall⟩, acc, hread, hfold⟩
              · rintro ⟨⟨-, hall⟩, acc, hread, hfold⟩
                exact ⟨acc, ⟨_, rfl, hread⟩, hall, hfold⟩

/-- What the values of the keys say determines the variables. -/
theorem eq_of_holds {first second : NarInfoFields} {values : NarInfoKey → List String}
    (hfirst : ∀ key, Holds first (values key) key) (hsecond : ∀ key, Holds second (values key) key)
    (hseen : first.seenFields = second.seenFields) : first = second := by
  obtain ⟨compression, hcompression, hjoin⟩ := hfirst .compression
  obtain ⟨compression', hcompression', hjoin'⟩ := hsecond .compression
  obtain ⟨references, hreferences, hgetD⟩ := hfirst .references
  obtain ⟨references', hreferences', hgetD'⟩ := hsecond .references
  refine NarInfoFields.ext (Single.unique (hfirst .storePath) (hsecond .storePath))
    (Single.unique (hfirst .url) (hsecond .url)) ?_
    (Single.unique (hfirst .fileHash) (hsecond .fileHash))
    (Single.unique (hfirst .fileSize) (hsecond .fileSize))
    (Single.unique (hfirst .narHash) (hsecond .narHash))
    (Single.unique (hfirst .narSize) (hsecond .narSize)) ?_
    (Single.unique (hfirst .deriver) (hsecond .deriver)) ?_
    (Single.unique (hfirst .ca) (hsecond .ca)) hseen
  · rw [hjoin, hjoin', hcompression.unique hcompression']
  · rw [hgetD, hgetD', hreferences.unique hreferences']
  · exact (hfirst .sig).trans (hsecond .sig).symm

end NarInfoFields

namespace NarInfo

/-- The variables that end in this result. -/
def fields (info : NarInfo) : NarInfoFields where
  storePath := some info.narinfoMeta.storePath
  narBasename := some info.narinfoMeta.narBasename
  compression := info.narinfoMeta.compression
  fileHash := info.narinfoMeta.fileHash
  fileSize := info.narinfoMeta.fileSize
  narHash := some info.narinfoMeta.narHash
  narSize := some info.narSize
  references := info.narinfoMeta.references
  deriver := info.narinfoMeta.deriver
  signatures := info.narinfoMeta.signatures
  ca := info.narinfoMeta.ca
  seenFields := []

theorem finish_eq_ok {fields : NarInfoFields} {info : NarInfo} :
    fields.finish = .ok info ↔
      info.narinfoMeta.validateStructure = .ok () ∧
        { fields with seenFields := [] } = info.fields := by
  obtain ⟨info, size⟩ := info
  simp only [NarInfoFields.finish, bind_eq_ok, okOr_eq_ok, mapErr_eq_ok, pure_eq_ok,
    NarInfo.mk.injEq, NarInfo.fields, NarInfoFields.mk.injEq]
  constructor
  · rintro ⟨path, hpath, basename, hbasename, narHash, hnarHash, narSize, hnarSize, _, hvalid,
      rfl, rfl⟩
    exact ⟨hvalid, hpath, hbasename, rfl, rfl, rfl, hnarHash, hnarSize, rfl, rfl, rfl, rfl, trivial⟩
  · rintro ⟨hvalid, hpath, hbasename, hcompression, hfileHash, hfileSize, hnarHash, hnarSize,
      hreferences, hderiver, hsignatures, hca, -⟩
    have hinfo : info =
        { storePath := info.storePath, narBasename := info.narBasename
          compression := fields.compression, fileHash := fields.fileHash
          fileSize := fields.fileSize, narHash := info.narHash
          references := fields.references, deriver := fields.deriver
          signatures := fields.signatures, ca := fields.ca } := by
      simp [hcompression, hfileHash, hfileSize, hreferences, hderiver, hsignatures, hca]
    refine ⟨_, hpath, _, hbasename, _, hnarHash, _, hnarSize, (), ?_, hinfo.symm, rfl⟩
    rw [← hinfo]
    exact hvalid

/-- A text is accepted with a result exactly when each field of the result is what the values of
its key say. -/
theorem parse_eq_ok_iff {text : String} {info : NarInfo} :
    parse text = .ok info ↔ (Str.trim text).toList ≠ [] ∧
      (∀ line ∈ Str.lines text, ∃ field, lineField line = .ok field) ∧
      info.narinfoMeta.validateStructure = .ok () ∧
      ∀ key, info.fields.Holds (valuesOf key (fieldsOf text)) key := by
  simp only [parse, bind_eq_ok, ensure_eq_ok, NarInfoFields.foldM_readLine_eq_ok, Str.isEmpty,
    List.isEmpty_iff, exists_const, finish_eq_ok]
  refine and_congr_right fun _ => ?_
  constructor
  · rintro ⟨fields, ⟨hlines, hfold⟩, hvalid, hfields⟩
    refine ⟨hlines, hvalid, fun key => ?_⟩
    have hholds := (NarInfoFields.reads_of_foldM hfold).holds key
    rw [← hfields]
    cases key <;> exact hholds
  · rintro ⟨hlines, hvalid, hholds⟩
    have haccepts : ∀ field ∈ fieldsOf text, NarInfoFields.Accepts field.1 field.2 :=
      fun field hmem => (hholds field.1).accepts (mem_valuesOf.mpr hmem)
    obtain ⟨fields, hfold⟩ := NarInfoFields.exists_foldM haccepts
      fun key hkey => (hholds key).length_le hkey
    have hreads := NarInfoFields.reads_of_foldM hfold
    refine ⟨fields, ⟨hlines, hfold⟩, hvalid, NarInfoFields.eq_of_holds (fun key => ?_) hholds rfl⟩
    have hkey := hreads.holds key
    cases key <;> exact hkey

end NarInfo

end NixCache.Core

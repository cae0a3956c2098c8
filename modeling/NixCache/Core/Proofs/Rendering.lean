import NixCache.Core.Proofs.Narinfo
import NixCache.Core.Proofs.Structure
/-!
# Rendered narinfo

`NarInfoMeta::render` writes a line for each field and escapes nothing.  When no field holds a
newline the parser meets exactly those lines, with trimmed values; what it then makes of each value
decides whether the metadata comes back.
-/

namespace NixCache.Core

open NixCache.Lib NixCache.Lib.Result

/-! ## The rendered lines -/

namespace NarInfoMeta

/-- The fields that `render` writes. -/
def renderedFields (info : NarInfoMeta) (narSize : UInt64) : List (NarInfoKey × String) :=
  [(.storePath, info.storePath), (.url, "nar/" ++ info.narBasename)] ++
    info.compression.toList.map (Prod.mk .compression) ++
    info.fileHash.toList.map (Prod.mk .fileHash) ++
    info.fileSize.toList.map (fun size => (.fileSize, toString size.toNat)) ++
    [(.narHash, info.narHash), (.narSize, toString narSize.toNat)] ++
    (if info.references.isEmpty then []
      else [(.references, String.intercalate " " info.references)]) ++
    info.deriver.toList.map (Prod.mk .deriver) ++ info.signatures.map (Prod.mk .sig) ++
    info.ca.toList.map (Prod.mk .ca)

/-- The values that `render` writes for a key. -/
def renderedValues (info : NarInfoMeta) (narSize : UInt64) : NarInfoKey → List String
  | .storePath => [info.storePath]
  | .url => ["nar/" ++ info.narBasename]
  | .compression => info.compression.toList
  | .fileHash => info.fileHash.toList
  | .fileSize => info.fileSize.toList.map fun size => toString size.toNat
  | .narHash => [info.narHash]
  | .narSize => [toString narSize.toNat]
  | .references =>
      if info.references.isEmpty then [] else [String.intercalate " " info.references]
  | .deriver => info.deriver.toList
  | .sig => info.signatures
  | .ca => info.ca.toList

end NarInfoMeta

/-- `key: value`. -/
def renderLine (field : NarInfoKey × String) : String := field.1.name ++ ": " ++ field.2

theorem valuesOf_map_mk (key other : NarInfoKey) (values : List String) :
    valuesOf key (values.map (Prod.mk other)) = if other = key then values else [] := by
  induction values with
  | nil => simp [valuesOf]
  | cons value values ih =>
      simp only [valuesOf, List.map_cons, List.filterMap_cons] at ih ⊢
      by_cases hkey : other = key
      · simp [hkey, List.filterMap_map, Function.comp_def]
      · simpa [hkey] using ih

namespace NarInfoMeta

theorem valuesOf_renderedFields (info : NarInfoMeta) (narSize : UInt64) (key : NarInfoKey) :
    valuesOf key (info.renderedFields narSize) = info.renderedValues narSize key := by
  have hsize : info.fileSize.toList.map
      (fun size => (NarInfoKey.fileSize, toString size.toNat)) =
        (info.fileSize.toList.map fun size => toString size.toNat).map (Prod.mk .fileSize) := by
    rw [List.map_map]
    rfl
  have hreferences : valuesOf key (if info.references.isEmpty then []
      else [(NarInfoKey.references, String.intercalate " " info.references)]) =
        if NarInfoKey.references = key then info.renderedValues narSize .references else [] := by
    simp only [renderedValues]
    by_cases hkey : NarInfoKey.references = key
    · split <;> simp [valuesOf, hkey]
    · split <;> simp [valuesOf, hkey]
  simp only [renderedFields, hsize, valuesOf_append, valuesOf_map_mk, hreferences]
  cases key <;> simp [valuesOf, renderedValues]

theorem render_eq (info : NarInfoMeta) (narSize : UInt64) :
    info.render narSize =
      String.intercalate "\n" ((info.renderedFields narSize).map renderLine) ++ "\n" := by
  have hoption : ∀ (key : NarInfoKey) (value : Option String),
      (value.map fun value => key.name ++ ": " ++ value).toList =
        (value.toList.map (Prod.mk key)).map renderLine := by
    intro key value
    cases value <;> rfl
  have hsignatures : info.signatures.map ("Sig: " ++ ·) =
      (info.signatures.map (Prod.mk .sig)).map renderLine := by
    rw [List.map_map]
    rfl
  have hreferences : (if info.references.isEmpty then [] else
      ["References: " ++ String.intercalate " " info.references]) =
        (if info.references.isEmpty then []
          else [(NarInfoKey.references, String.intercalate " " info.references)]).map
          renderLine := by
    split <;> rfl
  have hsize : ((info.fileSize.map fun size => toString size.toNat).map fun value =>
      "FileSize" ++ ": " ++ value).toList =
        (info.fileSize.toList.map fun size =>
          (NarInfoKey.fileSize, toString size.toNat)).map renderLine := by
    cases info.fileSize <;> rfl
  unfold render renderedFields
  simp only [List.map_append, ← hoption, ← hsignatures, ← hreferences, ← hsize]
  rfl

/-- No rendered value breaks its line. -/
def IsOneLine (info : NarInfoMeta) (narSize : UInt64) : Prop :=
  ∀ key, ∀ value ∈ info.renderedValues narSize key, '\n' ∉ value.toList

end NarInfoMeta

/-- Every key starts its line and ends before the `:`. -/
theorem NarInfoKey.name_shape (key : NarInfoKey) :
    Str.Trimmed key.name.toList ∧ ':' ∉ key.name.toList ∧ '\n' ∉ key.name.toList ∧
      ∃ first rest, key.name.toList = first :: rest ∧ Str.isWhitespace first = false ∧
        first ≠ '#' := by
  have hword : ∀ key : NarInfoKey, ∀ c ∈ key.name.toList,
      Str.isWhitespace c = false ∧ c ≠ ':' ∧ c ≠ '\n' ∧ c ≠ '#' := by
    intro key
    cases key <;> decide
  have hne : key.name.toList ≠ [] := by cases key <;> decide
  obtain ⟨first, rest, hname⟩ := List.exists_cons_of_ne_nil hne
  have hfirst := hword key first (hname ▸ List.mem_cons_self)
  exact ⟨Str.trimmed_of_forall fun c hc => (hword key c hc).1, fun h => (hword key _ h).2.1 rfl,
    fun h => (hword key _ h).2.2.1 rfl, first, rest, hname, hfirst.1, hfirst.2.2.2⟩

theorem toList_renderLine (field : NarInfoKey × String) :
    (renderLine field).toList = field.1.name.toList ++ ':' :: ' ' :: field.2.toList := by
  simp [renderLine]

theorem keyValue_of_split {line : String} {before after : List Char}
    (h : line.toList = before ++ ':' :: after) (hbefore : ':' ∉ before) :
    keyValue line = some (String.ofList (Str.trimChars before),
      String.ofList (Str.trimChars after)) := by
  rw [keyValue, Str.splitOnce, Str.splitOnceChars_eq_some.mpr ⟨h, hbefore⟩]
  simp [Str.trim]

theorem keyValue_renderLine (field : NarInfoKey × String) :
    keyValue (renderLine field) = some (field.1.name, Str.trim field.2) := by
  obtain ⟨htrimmed, hcolon, -⟩ := field.1.name_shape
  have hblank : Str.Blank [' '] := by
    intro c hc
    rw [List.mem_singleton.mp hc]
    rfl
  rw [keyValue_of_split (toList_renderLine field) hcolon, Str.trimChars_eq_self_iff.mpr htrimmed,
    String.ofList_toList, ← List.singleton_append, Str.trimChars_blank_append hblank]
  rfl

/-- White space around a line changes neither the key nor the value. -/
theorem keyValue_trim (line : String) : keyValue (Str.trim line) = keyValue line := by
  obtain ⟨front, back, hfront, hback, -, hline⟩ := Str.exists_around_trimChars line.toList
  have hcolon : ∀ cs : List Char, Str.Blank cs → ':' ∉ cs := fun cs h hmem => by
    have := h _ hmem
    cases this
  have htrim : (Str.trim line).toList = Str.trimChars line.toList := Str.toList_trim line
  by_cases hmem : ':' ∈ Str.trimChars line.toList
  · obtain ⟨before, after, hsplit, hbefore⟩ := List.eq_append_cons_of_mem hmem
    have hwhole : line.toList = (front ++ before) ++ ':' :: (after ++ back) := by
      rw [hline, hsplit]
      simp
    have hnot : ':' ∉ front ++ before := by
      simp [hcolon front hfront, hbefore]
    rw [keyValue_of_split (htrim.trans hsplit) hbefore, keyValue_of_split hwhole hnot,
      Str.trimChars_blank_append hfront, Str.trimChars_append_blank hback]
  · have hnone : ∀ s : String, ':' ∉ s.toList → keyValue s = none := by
      intro s hs
      have hsplit : Str.splitOnceChars ':' s.toList = none := by
        cases hsome : Str.splitOnceChars ':' s.toList with
        | none => rfl
        | some p =>
            obtain ⟨before, after⟩ := p
            exact absurd (by simp [(Str.splitOnceChars_eq_some.mp hsome).1]) hs
      rw [keyValue, Str.splitOnce, hsplit]
      rfl
    rw [hnone _ (htrim ▸ hmem), hnone _ ?_]
    rw [hline]
    simp [hcolon front hfront, hcolon back hback, hmem]

/-- The parser reads a rendered line, with or without a carriage return, as its field. -/
theorem lineField_renderLine {line : String} {field : NarInfoKey × String}
    (h : Str.trim line = Str.trim (renderLine field)) :
    lineField line = .ok (some (field.1, Str.trim field.2)) := by
  obtain ⟨-, -, -, first, rest, hname, hfirst, hcomment⟩ := field.1.name_shape
  obtain ⟨rest', htrim⟩ := Str.exists_trimChars_cons
    (rest ++ ':' :: ' ' :: field.2.toList) hfirst
  have hline : (Str.trim line).toList = first :: rest' := by
    rw [h, Str.toList_trim, toList_renderLine, hname, List.cons_append, htrim]
  refine lineField_eq_some.mpr ⟨by simp [hline], ?_, ?_⟩
  · simp [Str.startsWith, hline, List.isPrefixOf, Ne.symm hcomment]
  · rw [h, keyValue_trim, keyValue_renderLine]

namespace NarInfoMeta

variable {info : NarInfoMeta} {narSize : UInt64}

theorem IsOneLine.renderLine (h : info.IsOneLine narSize) {field : NarInfoKey × String}
    (hfield : field ∈ info.renderedFields narSize) : '\n' ∉ (renderLine field).toList := by
  obtain ⟨-, -, hname, -⟩ := field.1.name_shape
  have hvalue := h field.1 field.2 (by
    rw [← valuesOf_renderedFields]
    exact mem_valuesOf.mpr hfield)
  rw [toList_renderLine]
  simp [hname, hvalue]

theorem toList_render (info : NarInfoMeta) (narSize : UInt64) :
    (info.render narSize).toList =
      ((info.renderedFields narSize).map fun field => (renderLine field).toList).flatMap
        (· ++ ['\n']) := by
  have hjoin : ∀ parts : List (List Char), parts ≠ [] →
      ['\n'].intercalate parts ++ ['\n'] = parts.flatMap (· ++ ['\n']) := by
    intro parts hne
    induction parts with
    | nil => exact absurd rfl hne
    | cons part parts ih =>
        cases parts with
        | nil => simp
        | cons next rest =>
            rw [List.intercalate_cons_cons, List.append_assoc, ih (by simp)]
            simp
  rw [render_eq, String.toList_append, String.toList_intercalate, List.map_map,
    show "\n".toList = ['\n'] from rfl, hjoin]
  · rfl
  · simp [renderedFields]

/-- The text has the rendered lines and no others. -/
theorem lines_render (h : info.IsOneLine narSize) :
    Str.lines (info.render narSize) = (info.renderedFields narSize).map fun field =>
      String.ofList (Str.dropReturn (renderLine field).toList) := by
  rw [Str.lines, toList_render, Str.linesChars_flatMap, List.map_map, List.map_map]
  · rfl
  · intro part hpart
    obtain ⟨field, hfield, rfl⟩ := List.mem_map.mp hpart
    exact h.renderLine hfield

/-- The text starts with the key of its first line. -/
theorem trim_render_ne_nil (info : NarInfoMeta) (narSize : UInt64) :
    (Str.trim (info.render narSize)).toList ≠ [] := by
  obtain ⟨-, -, -, first, rest, hname, hfirst, -⟩ := NarInfoKey.storePath.name_shape
  have hfields : ∃ others, info.renderedFields narSize = (.storePath, info.storePath) :: others :=
    ⟨_, by simp only [renderedFields, List.cons_append]; rfl⟩
  obtain ⟨others, hfields⟩ := hfields
  have hstart : ∃ back, (info.render narSize).toList = first :: back := by
    rw [toList_render, hfields, List.map_cons, List.flatMap_cons, toList_renderLine, hname]
    simp only [List.cons_append]
    exact ⟨_, rfl⟩
  obtain ⟨back, hback⟩ := hstart
  obtain ⟨back', htrim⟩ := Str.exists_trimChars_cons back hfirst
  rw [Str.toList_trim, hback, htrim]
  simp

theorem trim_dropReturn (s : String) :
    Str.trim (String.ofList (Str.dropReturn s.toList)) = Str.trim s := by
  rw [Str.trim, String.toList_ofList, Str.trimChars_dropReturn]
  rfl

/-- Rendered lines at the start of a text are read as their fields. -/
theorem fieldsOf_of_renderLines {front : List (NarInfoKey × String)} {text : String}
    {rest : List Char} (hfront : ∀ field ∈ front, '\n' ∉ (NixCache.Core.renderLine field).toList)
    (htext : text.toList =
      (front.map fun field => (NixCache.Core.renderLine field).toList).flatMap (· ++ ['\n']) ++
        rest) :
    fieldsOf text =
      (front.map fun field => (field.1, Str.trim field.2)) ++ fieldsOf (String.ofList rest) := by
  have hfield : ∀ field : NarInfoKey × String,
      (lineField (String.ofList
        (Str.dropReturn (NixCache.Core.renderLine field).toList))).toOption.join =
          some (field.1, Str.trim field.2) := by
    intro field
    rw [lineField_renderLine (trim_dropReturn _)]
    rfl
  have hparts : ∀ part ∈ front.map fun field => (NixCache.Core.renderLine field).toList,
      '\n' ∉ part := by
    intro part hpart
    obtain ⟨field, hmem, rfl⟩ := List.mem_map.mp hpart
    exact hfront field hmem
  rw [fieldsOf, Str.lines, htext, Str.linesChars_flatMap_append hparts, List.map_append,
    List.filterMap_append, List.map_map, List.map_map, List.filterMap_map, fieldsOf, Str.lines,
    String.toList_ofList]
  simp only [Function.comp_def, hfield, List.filterMap_eq_map']

theorem fieldsOf_render (h : info.IsOneLine narSize) :
    fieldsOf (info.render narSize) =
      (info.renderedFields narSize).map fun field => (field.1, Str.trim field.2) := by
  have htext : (info.render narSize).toList =
      ((info.renderedFields narSize).map fun field =>
        (NixCache.Core.renderLine field).toList).flatMap (· ++ ['\n']) ++ [] := by
    rw [toList_render, List.append_nil]
  have hfields := fieldsOf_of_renderLines (fun field hfield => h.renderLine hfield) htext
  rwa [show fieldsOf (String.ofList []) = [] from rfl, List.append_nil] at hfields

theorem valuesOf_map_trim (key : NarInfoKey) (fields : List (NarInfoKey × String)) :
    valuesOf key (fields.map fun field => (field.1, Str.trim field.2)) =
      (valuesOf key fields).map Str.trim := by
  induction fields with
  | nil => rfl
  | cons field fields ih =>
      simp only [valuesOf, List.map_cons, List.filterMap_cons] at ih ⊢
      split <;> simp_all

/-- What the parser makes of a rendered text whose values stay on their lines. -/
theorem parse_render_iff (h : info.IsOneLine narSize) {parsed : NarInfo} :
    NarInfo.parse (info.render narSize) = .ok parsed ↔
      parsed.narinfoMeta.validateStructure = .ok () ∧
        ∀ key, parsed.fields.Holds ((info.renderedValues narSize key).map Str.trim) key := by
  have hvalues : ∀ key, valuesOf key (fieldsOf (info.render narSize)) =
      (info.renderedValues narSize key).map Str.trim := by
    intro key
    rw [fieldsOf_render h, valuesOf_map_trim, valuesOf_renderedFields]
  have hlines : ∀ line ∈ Str.lines (info.render narSize), ∃ field, lineField line = .ok field := by
    intro line hline
    rw [lines_render h] at hline
    obtain ⟨field, -, rfl⟩ := List.mem_map.mp hline
    exact ⟨_, lineField_renderLine (trim_dropReturn _)⟩
  rw [NarInfo.parse_eq_ok_iff]
  simp only [hvalues, trim_render_ne_nil, ne_eq, not_false_eq_true, true_and]
  exact and_iff_right hlines

end NarInfoMeta

end NixCache.Core

import Mathlib.Data.List.TakeWhile
import NixCache.Lib.Str
/-!
# Lines and words

`str::lines`, `str::split_whitespace` and `str::trim`, with what they leave of a text that was put
together from lines and words.
-/

namespace NixCache.Lib.Str

/-! ## White space around a text -/

/-- Nothing but white space. -/
def Blank (cs : List Char) : Prop := ∀ c ∈ cs, isWhitespace c = true

/-- The text neither starts nor ends with white space. -/
def Trimmed (cs : List Char) : Prop :=
  (∀ c ∈ cs.head?, isWhitespace c = false) ∧ ∀ c ∈ cs.getLast?, isWhitespace c = false

theorem Blank.append {cs ds : List Char} (hcs : Blank cs) (hds : Blank ds) : Blank (cs ++ ds) := by
  intro c hc
  rcases List.mem_append.mp hc with hc | hc
  · exact hcs c hc
  · exact hds c hc

theorem Blank.reverse {cs : List Char} (h : Blank cs) : Blank cs.reverse :=
  fun c hc => h c (List.mem_reverse.mp hc)

theorem trimmed_nil : Trimmed [] := by simp [Trimmed]

theorem Trimmed.reverse {cs : List Char} (h : Trimmed cs) : Trimmed cs.reverse := by
  rw [Trimmed, List.head?_reverse, List.getLast?_reverse]
  exact h.symm

theorem trimmed_of_forall {cs : List Char} (h : ∀ c ∈ cs, isWhitespace c = false) : Trimmed cs :=
  ⟨fun c hc => h c (List.mem_of_head? hc), fun c hc => h c (List.mem_of_getLast? hc)⟩

/-- Two texts that are not blank at their outer ends are not so together. -/
theorem Trimmed.append {cs ds : List Char} (hcs : ∀ c ∈ cs.head?, isWhitespace c = false)
    (hne : cs ≠ []) (hds : ∀ c ∈ ds.getLast?, isWhitespace c = false) (hne' : ds ≠ []) :
    Trimmed (cs ++ ds) := by
  constructor
  · rwa [List.head?_append_of_ne_nil _ hne]
  · rwa [List.getLast?_append_of_ne_nil _ hne']

theorem dropWhile_eq_self_of_head {cs : List Char} (h : ∀ c ∈ cs.head?, isWhitespace c = false) :
    cs.dropWhile isWhitespace = cs := by
  cases cs with
  | nil => rfl
  | cons c cs => exact List.dropWhile_cons_of_neg (by simp [h c rfl])

theorem dropWhile_eq_nil_of_blank {cs : List Char} (h : Blank cs) :
    cs.dropWhile isWhitespace = [] :=
  List.dropWhile_eq_nil_iff.mpr h

/-- Trimming takes away the white space around a trimmed text. -/
theorem trimChars_around {before core after : List Char} (hbefore : Blank before)
    (hcore : Trimmed core) (hafter : Blank after) :
    trimChars (before ++ core ++ after) = core := by
  have hfront : (before ++ core ++ after).dropWhile isWhitespace =
      (core ++ after).dropWhile isWhitespace := by
    rw [List.append_assoc, List.dropWhile_append_of_pos hbefore]
  rw [trimChars, hfront]
  cases core with
  | nil => rw [List.nil_append, dropWhile_eq_nil_of_blank hafter]; rfl
  | cons c cs =>
      have hhead : (c :: cs ++ after).dropWhile isWhitespace = c :: cs ++ after :=
        dropWhile_eq_self_of_head hcore.1
      rw [hhead, List.reverse_append, List.dropWhile_append_of_pos hafter.reverse,
        dropWhile_eq_self_of_head hcore.reverse.1, List.reverse_reverse]

theorem head_dropWhile_not_blank (cs : List Char) :
    ∀ c ∈ (cs.dropWhile isWhitespace).head?, isWhitespace c = false := by
  intro c hc
  have hnot := List.head?_dropWhile_not isWhitespace cs
  rw [Option.mem_def.mp hc] at hnot
  simpa using hnot

/-- A text is white space around what trimming leaves. -/
theorem exists_around_trimChars (cs : List Char) :
    ∃ before after, Blank before ∧ Blank after ∧ Trimmed (trimChars cs) ∧
      cs = before ++ trimChars cs ++ after := by
  set back := cs.dropWhile isWhitespace with hback
  have hbefore : Blank (cs.takeWhile isWhitespace) := fun c hc => List.mem_takeWhile_imp hc
  have hafter : Blank (back.reverse.takeWhile isWhitespace).reverse :=
    Blank.reverse fun c hc => List.mem_takeWhile_imp hc
  have hsplit : trimChars cs ++ (back.reverse.takeWhile isWhitespace).reverse = back := by
    rw [trimChars, ← hback, ← List.reverse_append, List.takeWhile_append_dropWhile,
      List.reverse_reverse]
  refine ⟨_, _, hbefore, hafter, ⟨?_, ?_⟩, ?_⟩
  · intro c hc
    have hne : trimChars cs ≠ [] := by
      rintro hnil
      simp [hnil] at hc
    have hhead := head_dropWhile_not_blank cs
    rw [← hback, ← hsplit, List.head?_append_of_ne_nil _ hne] at hhead
    exact hhead c hc
  · rw [trimChars, List.getLast?_reverse]
    exact head_dropWhile_not_blank _
  · rw [List.append_assoc, hsplit, hback, List.takeWhile_append_dropWhile]

theorem trimmed_trimChars (cs : List Char) : Trimmed (trimChars cs) := by
  obtain ⟨_, _, _, _, htrimmed, _⟩ := exists_around_trimChars cs
  exact htrimmed

theorem trimChars_eq_self_iff {cs : List Char} : trimChars cs = cs ↔ Trimmed cs := by
  constructor
  · intro h
    rw [← h]
    exact trimmed_trimChars cs
  · intro h
    have hnil : Blank [] := by simp [Blank]
    have haround := trimChars_around hnil h hnil
    rwa [List.nil_append, List.append_nil] at haround

theorem trimChars_blank_append {before cs : List Char} (h : Blank before) :
    trimChars (before ++ cs) = trimChars cs := by
  obtain ⟨front, back, hfront, hback, htrimmed, hcs⟩ := exists_around_trimChars cs
  conv_lhs => rw [hcs, List.append_assoc, ← List.append_assoc, ← List.append_assoc]
  exact trimChars_around (h.append hfront) htrimmed hback

theorem trimChars_append_blank {cs after : List Char} (h : Blank after) :
    trimChars (cs ++ after) = trimChars cs := by
  obtain ⟨front, back, hfront, hback, htrimmed, hcs⟩ := exists_around_trimChars cs
  conv_lhs => rw [hcs, List.append_assoc]
  exact trimChars_around hfront htrimmed (hback.append h)

/-- Trimming keeps a first character that is not white space. -/
theorem exists_trimChars_cons {c : Char} (cs : List Char) (hc : isWhitespace c = false) :
    ∃ rest, trimChars (c :: cs) = c :: rest := by
  obtain ⟨front, back, hfront, hback, -, hcs⟩ := exists_around_trimChars (c :: cs)
  cases front with
  | cons d front =>
      obtain rfl : c = d := (List.cons.inj hcs).1
      have hd := hfront c List.mem_cons_self
      rw [hc] at hd
      cases hd
  | nil =>
      cases htrim : trimChars (c :: cs) with
      | nil =>
          rw [htrim, List.nil_append, List.nil_append] at hcs
          have hblank := hback c (hcs ▸ List.mem_cons_self)
          rw [hc] at hblank
          cases hblank
      | cons d rest =>
          rw [htrim, List.nil_append, List.cons_append] at hcs
          rw [(List.cons.inj hcs).1]
          exact ⟨rest, rfl⟩

theorem mem_of_mem_trimChars {c : Char} {cs : List Char} (h : c ∈ trimChars cs) : c ∈ cs := by
  obtain ⟨before, after, _, _, _, hcs⟩ := exists_around_trimChars cs
  rw [hcs]
  simp [h]

theorem toList_trim (s : String) : (trim s).toList = trimChars s.toList := String.toList_ofList

theorem trim_eq_self_iff {s : String} : trim s = s ↔ Trimmed s.toList := by
  rw [← trimChars_eq_self_iff, ← toList_trim, String.toList_inj]

theorem trimmed_trim (s : String) : Trimmed (trim s).toList := by
  rw [toList_trim]
  exact trimmed_trimChars _

@[simp] theorem trim_trim (s : String) : trim (trim s) = trim s :=
  trim_eq_self_iff.mpr (trimmed_trim s)

theorem mem_of_mem_trim {c : Char} {s : String} (h : c ∈ (trim s).toList) : c ∈ s.toList := by
  rw [toList_trim] at h
  exact mem_of_mem_trimChars h

/-! ## Words -/

/-- `str::split_whitespace`. -/
def splitWhitespace (s : String) : List String :=
  ((s.toList.splitOnP isWhitespace).filter (· ≠ [])).map String.ofList

/-- A part between separators can be exchanged for another. -/
theorem exists_splitOnP_around {α : Type} {p : α → Bool} {before after : List α}
    (hbefore : ∀ x ∈ before.getLast?, p x = true) (hafter : ∀ x ∈ after.head?, p x = true) :
    ∃ front back, ∀ part, (∀ x ∈ part, p x = false) →
      (before ++ part ++ after).splitOnP p = front ++ part :: back := by
  obtain ⟨back, hback⟩ : ∃ back, ∀ part, (∀ x ∈ part, p x = false) →
      (part ++ after).splitOnP p = part :: back := by
    cases after with
    | nil => exact ⟨[], fun part hpart => by rw [List.append_nil, List.splitOnP_eq_singleton hpart]⟩
    | cons sep rest =>
        exact ⟨rest.splitOnP p, fun part hpart =>
          List.splitOnP_append_cons_of_forall_mem hpart sep (hafter sep rfl) rest⟩
  rcases List.eq_nil_or_concat before with rfl | ⟨init, sep, rfl⟩
  · exact ⟨[], back, hback⟩
  · refine ⟨init.splitOnP p, back, fun part hpart => ?_⟩
    have hsep : p sep = true := hbefore sep (by simp)
    rw [List.concat_eq_append, List.append_assoc, List.append_assoc, List.singleton_append,
      List.splitOnP_append_cons init _ hsep, hback part hpart]

/-- Every part between separators is free of them and taken from the text. -/
theorem mem_splitOnP {α : Type} {p : α → Bool} {xs part : List α} (h : part ∈ xs.splitOnP p) :
    ∀ x ∈ part, p x = false ∧ x ∈ xs := by
  induction xs generalizing part with
  | nil =>
      rw [List.splitOnP_nil, List.mem_singleton] at h
      simp [h]
  | cons y xs ih =>
      rw [List.splitOnP_cons_eq_if_modifyHead] at h
      split at h
      · rcases List.mem_cons.mp h with rfl | h
        · simp
        · exact fun x hx => ⟨(ih h x hx).1, List.mem_cons_of_mem _ (ih h x hx).2⟩
      · rename_i hy
        cases hparts : xs.splitOnP p with
        | nil => exact absurd hparts (List.splitOnP_ne_nil p xs)
        | cons first rest =>
            rw [hparts, List.modifyHead_cons] at h
            rcases List.mem_cons.mp h with rfl | h
            · intro x hx
              rcases List.mem_cons.mp hx with rfl | hx
              · exact ⟨by simpa using hy, List.mem_cons_self⟩
              · have hfirst := ih (hparts ▸ List.mem_cons_self) x hx
                exact ⟨hfirst.1, List.mem_cons_of_mem _ hfirst.2⟩
            · have hrest := ih (hparts ▸ List.mem_cons_of_mem _ h)
              exact fun x hx => ⟨(hrest x hx).1, List.mem_cons_of_mem _ (hrest x hx).2⟩

/-- A text without white space that is not empty. -/
def IsWord (s : String) : Prop := s.toList ≠ [] ∧ ∀ c ∈ s.toList, isWhitespace c = false

theorem IsWord.trim {s : String} (h : IsWord s) : trim s = s :=
  trim_eq_self_iff.mpr (trimmed_of_forall h.2)

theorem isWord_of_mem_splitWhitespace {s word : String} (h : word ∈ splitWhitespace s) :
    IsWord word := by
  obtain ⟨part, hpart, rfl⟩ := List.mem_map.mp h
  rw [List.mem_filter] at hpart
  rw [IsWord, String.toList_ofList]
  exact ⟨by simpa using hpart.2, fun c hc => (mem_splitOnP hpart.1 c hc).1⟩

theorem splitWhitespace_empty : splitWhitespace "" = [] := rfl

/-- Words joined by blanks are found again. -/
theorem splitWhitespace_intercalate {words : List String} (h : ∀ word ∈ words, IsWord word) :
    splitWhitespace (String.intercalate " " words) = words := by
  have hparts : ∀ parts : List (List Char),
      (∀ part ∈ parts, part ≠ [] ∧ ∀ c ∈ part, isWhitespace c = false) →
        (([' '].intercalate parts).splitOnP isWhitespace).filter (· ≠ []) = parts := by
    intro parts hall
    induction parts with
    | nil => rfl
    | cons part parts ih =>
        obtain ⟨⟨hne, hpart⟩, hrest⟩ := List.forall_mem_cons.mp hall
        cases parts with
        | nil =>
            rw [List.intercalate_singleton, List.splitOnP_eq_singleton hpart]
            simp [hne]
        | cons next rest =>
            rw [List.intercalate_cons_cons, List.append_assoc, List.singleton_append,
              List.splitOnP_append_cons_of_forall_mem hpart ' ' rfl, List.filter_cons_of_pos,
              ih hrest]
            simpa using hne
  rw [splitWhitespace, String.toList_intercalate, show " ".toList = [' '] from rfl, hparts,
    List.map_map]
  · rw [show String.ofList ∘ String.toList = id from funext fun s => String.ofList_toList]
    exact List.map_id words
  · intro part hmem
    obtain ⟨word, hword, rfl⟩ := List.mem_map.mp hmem
    exact h word hword

/-- A character of joined parts is the separator or of a part. -/
theorem mem_intercalate {α : Type} {sep x : α} {parts : List (List α)}
    (h : x ∈ [sep].intercalate parts) : x = sep ∨ ∃ part ∈ parts, x ∈ part := by
  induction parts with
  | nil => simp at h
  | cons part parts ih =>
      cases parts with
      | nil => exact Or.inr ⟨part, by simp, by simpa using h⟩
      | cons next rest =>
          rw [List.intercalate_cons_cons, List.append_assoc, List.mem_append, List.mem_append,
            List.mem_singleton] at h
          rcases h with hpart | rfl | hrest
          · exact Or.inr ⟨part, by simp, hpart⟩
          · exact Or.inl rfl
          · exact (ih hrest).imp_right fun ⟨part', hmem, hx⟩ =>
              ⟨part', List.mem_cons_of_mem _ hmem, hx⟩

/-! ## Lines -/

/-- A line without the carriage return at its end. -/
def dropReturn (cs : List Char) : List Char :=
  if cs.getLast? = some '\r' then cs.dropLast else cs

/-- The lines that `\n` ends, and what follows the last `\n` if that is not empty. -/
def linesChars (cs : List Char) : List (List Char) :=
  let parts := cs.splitOn '\n'
  parts.dropLast.map dropReturn ++ parts.getLast?.toList.filter (· ≠ [])

/-- `str::lines`. -/
def lines (s : String) : List String := (linesChars s.toList).map String.ofList

theorem mem_of_mem_dropReturn {c : Char} {cs : List Char} (h : c ∈ dropReturn cs) : c ∈ cs := by
  unfold dropReturn at h
  split at h
  · exact (List.dropLast_sublist cs).subset h
  · exact h

/-- Trimming also takes the carriage return at the end of a line. -/
theorem trimChars_dropReturn (cs : List Char) : trimChars (dropReturn cs) = trimChars cs := by
  unfold dropReturn
  split
  · rename_i hlast
    have hreturn : Blank ['\r'] := by
      intro c hc
      rw [List.mem_singleton.mp hc]
      rfl
    conv_rhs => rw [← List.dropLast_append_getLast? '\r' hlast, trimChars_append_blank hreturn]
  · rfl

theorem newline_not_mem_of_mem_lines {s line : String} (h : line ∈ lines s) :
    '\n' ∉ line.toList := by
  obtain ⟨cs, hcs, rfl⟩ := List.mem_map.mp h
  rw [String.toList_ofList]
  have hpart : ∀ part ∈ s.toList.splitOn '\n', '\n' ∉ part := by
    intro part hmem hnewline
    rw [List.splitOn_eq_splitOnP] at hmem
    simpa using (mem_splitOnP hmem '\n' hnewline).1
  rcases List.mem_append.mp hcs with hcs | hcs
  · obtain ⟨part, hmem, rfl⟩ := List.mem_map.mp hcs
    intro hnewline
    exact hpart part ((List.dropLast_sublist _).subset hmem) (mem_of_mem_dropReturn hnewline)
  · rw [List.mem_filter, Option.mem_toList] at hcs
    exact hpart cs (List.mem_of_getLast? hcs.1)

/-- Texts without `\n` that are each ended by one are the first lines of what starts with them. -/
theorem linesChars_flatMap_append {parts : List (List Char)} (h : ∀ part ∈ parts, '\n' ∉ part)
    (rest : List Char) :
    linesChars (parts.flatMap (· ++ ['\n']) ++ rest) = parts.map dropReturn ++ linesChars rest := by
  induction parts with
  | nil => rfl
  | cons part parts ih =>
      obtain ⟨hpart, hrest⟩ := List.forall_mem_cons.mp h
      have hcons : ∀ cs : List Char,
          linesChars (part ++ '\n' :: cs) = dropReturn part :: linesChars cs := by
        intro cs
        obtain ⟨first, others, hsplit⟩ := List.exists_cons_of_ne_nil
          (List.splitOn_ne_nil '\n' cs)
        rw [linesChars, List.splitOn_append_cons_self_of_not_mem hpart, linesChars, hsplit]
        rfl
      rw [List.flatMap_cons, List.append_assoc, List.append_assoc, List.singleton_append, hcons,
        ih hrest, List.map_cons, List.cons_append]

/-- Texts without `\n` that are each ended by one are the lines of what they make together. -/
theorem linesChars_flatMap {parts : List (List Char)} (h : ∀ part ∈ parts, '\n' ∉ part) :
    linesChars (parts.flatMap (· ++ ['\n'])) = parts.map dropReturn := by
  have hlines := linesChars_flatMap_append h []
  rwa [List.append_nil, show linesChars [] = [] from rfl, List.append_nil] at hlines

end NixCache.Lib.Str

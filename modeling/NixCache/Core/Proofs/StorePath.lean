import NixCache.Core.Lookup
import NixCache.Core.Proofs.Structure
import NixCache.Core.Proofs.Wire
/-!
# The grammar of store paths

What `validate_store_path` accepts, character by character, and what `extract_store_hash` finds in
it.
The parser of hashes trims its text, so a path is accepted with white space around its hash.
-/

namespace NixCache.Core

open NixCache.Lib NixCache.Lib.Result

/-! ## The parts of a store path -/

/-- The characters of a store hash. -/
structure IsDigits (cs : List Char) : Prop where
  length : cs.length = 32
  base32 : ∀ c ∈ cs, StoreHash.isBase32 c = true

/-- The characters after the dash. -/
structure IsName (cs : List Char) : Prop where
  ne_nil : cs ≠ []
  noSlash : '/' ∉ cs
  noBackslash : '\\' ∉ cs
  plain : ∀ c ∈ cs, Str.isControl c = false ∧ Str.isWhitespace c = false

/-- The text is `/nix/store/`, the hash, a dash and a name. -/
def IsStorePath (value : String) (hash : StoreHash) : Prop :=
  IsDigits hash.val.toList ∧ ∃ name, IsName name ∧
    value.toList = "/nix/store/".toList ++ (hash.val.toList ++ '-' :: name)

/-- The same with white space before and after the hash. -/
structure IsPaddedPath (value : String) (before : List Char) (hash : StoreHash)
    (after name : List Char) : Prop where
  blankBefore : Str.Blank before
  digits : IsDigits hash.val.toList
  blankAfter : Str.Blank after
  isName : IsName name
  text : value.toList =
    "/nix/store/".toList ++ (before ++ hash.val.toList ++ after ++ '-' :: name)

/-- There is some white space around the hash of the path. -/
def HasPaddedHash (value : String) : Prop :=
  ∃ before hash after name, IsPaddedPath value before hash after name ∧ before ++ after ≠ []

/-! ## Hashes -/

theorem IsDigits.ascii {cs : List Char} (h : IsDigits cs) : ∀ c ∈ cs, Str.IsAscii c := by
  intro c hc
  have hgraphic := (isGraphic_of_isBase32 (h.base32 c hc)).2
  unfold Str.IsAscii
  omega

theorem IsDigits.not_blank {cs : List Char} (h : IsDigits cs) :
    ∀ c ∈ cs, Str.isWhitespace c = false :=
  fun c hc => StoreHash.isBase32_not_whitespace (h.base32 c hc)

theorem IsDigits.not_mem {cs : List Char} (h : IsDigits cs) {c : Char}
    (hc : StoreHash.isBase32 c = false) : c ∉ cs := by
  intro hmem
  rw [h.base32 c hmem] at hc
  cases hc

theorem isDigits_iff {text : String} :
    IsDigits text.toList ↔ Str.len text = 32 ∧ ∀ c ∈ text.toList, StoreHash.isBase32 c = true := by
  have hlen : (∀ c ∈ text.toList, StoreHash.isBase32 c = true) →
      Str.len text = text.toList.length := by
    intro hbase32
    have hascii := Str.len_ofList_ascii fun c hc => (isGraphic_of_isBase32 (hbase32 c hc)).2.trans
      (by decide)
    rwa [String.ofList_toList] at hascii
  constructor
  · intro h
    exact ⟨(hlen h.base32).trans h.length, h.base32⟩
  · rintro ⟨hsize, hbase32⟩
    exact ⟨(hlen hbase32).symm.trans hsize, hbase32⟩

/-- The parser takes the white space around a hash away. -/
theorem StoreHash.parse_eq_ok {text : String} {hash : StoreHash} :
    parse text = .ok hash ↔ IsDigits hash.val.toList ∧
      ∃ before after, Str.Blank before ∧ Str.Blank after ∧
        text.toList = before ++ hash.val.toList ++ after := by
  have hparse : parse text = .ok hash ↔ hash.val = Str.trim text ∧ IsDigits hash.val.toList := by
    simp only [parse, bind_eq_ok, ensure_eq_ok, pure_eq_ok, checkChars_eq_ok, isDigits_iff]
    constructor
    · rintro ⟨_, hlen, _, hchars, rfl⟩
      exact ⟨rfl, hlen, hchars⟩
    · rintro ⟨hval, hlen, hchars⟩
      rw [hval] at hlen hchars
      exact ⟨(), hlen, (), hchars, StoreHash.ext hval.symm⟩
  rw [hparse]
  constructor
  · rintro ⟨hval, hdigits⟩
    obtain ⟨before, after, hbefore, hafter, _, htext⟩ := Str.exists_around_trimChars text.toList
    rw [← Str.toList_trim, ← hval] at htext
    exact ⟨hdigits, before, after, hbefore, hafter, htext⟩
  · rintro ⟨hdigits, before, after, hbefore, hafter, htext⟩
    refine ⟨?_, hdigits⟩
    apply String.toList_inj.mp
    rw [Str.toList_trim, htext,
      Str.trimChars_around hbefore (Str.trimmed_of_forall hdigits.not_blank) hafter]

/-! ## Paths -/

theorem not_mem_of_blank {cs : List Char} (h : Str.Blank cs) {c : Char}
    (hc : Str.isWhitespace c = false) : c ∉ cs := by
  intro hmem
  rw [h c hmem] at hc
  cases hc

theorem validateStorePathBasename_eq_ok {value : String} {hash : StoreHash} :
    validateStorePathBasename value = .ok hash ↔
      ∃ before after name, Str.Blank before ∧ IsDigits hash.val.toList ∧ Str.Blank after ∧
        IsName name ∧ value.toList = before ++ hash.val.toList ++ after ++ '-' :: name := by
  simp only [validateStorePathBasename, bind_eq_ok, okOr_eq_ok, ensure_eq_ok, Str.splitOnce,
    Option.map_eq_some_iff, StoreHash.parse_eq_ok, isEmpty_iff_toList, containsChar_iff, not_or,
    List.any_eq_true, Bool.or_eq_true, not_exists, not_and]
  constructor
  · rintro ⟨_, ⟨⟨front, name⟩, hsplit, rfl⟩, _, ⟨hne, hslash, hbackslash, hplain⟩, hdigits, before,
      after, hbefore, hafter, hfront⟩
    dsimp only at hfront hne hslash hbackslash hplain
    rw [String.toList_ofList] at hfront hne hslash hbackslash hplain
    refine ⟨before, after, name, hbefore, hdigits, hafter,
      ⟨hne, hslash, hbackslash, fun c hc => ?_⟩, ?_⟩
    · simpa using hplain c hc
    · rw [(Str.splitOnceChars_eq_some.mp hsplit).1, hfront]
  · rintro ⟨before, after, name, hbefore, hdigits, hafter, hname, hvalue⟩
    have hdash : '-' ∉ before ++ hash.val.toList ++ after := by
      simp only [List.mem_append, not_or]
      exact ⟨⟨not_mem_of_blank hbefore rfl, hdigits.not_mem rfl⟩, not_mem_of_blank hafter rfl⟩
    refine ⟨_, ⟨_, Str.splitOnceChars_eq_some.mpr ⟨hvalue, hdash⟩, rfl⟩, (), ?_, hdigits, before,
      after, hbefore, hafter, String.toList_ofList⟩
    rw [String.toList_ofList]
    refine ⟨hname.ne_nil, hname.noSlash, hname.noBackslash, fun c hc => ?_⟩
    have hplain := hname.plain c hc
    simp [hplain.1, hplain.2]

theorem IsPaddedPath.exists_basename {value : String} {before after name : List Char}
    {hash : StoreHash} (h : IsPaddedPath value before hash after name) :
    ∃ basename, value = "/nix/store/" ++ basename ∧
      basename.toList = before ++ hash.val.toList ++ after ++ '-' :: name := by
  refine ⟨String.ofList (before ++ hash.val.toList ++ after ++ '-' :: name), ?_,
    String.toList_ofList⟩
  apply String.toList_inj.mp
  rw [String.toList_append, h.text]
  congr 1
  exact String.toList_ofList.symm

/-- None of the parts of a path has a slash. -/
theorem IsPaddedPath.not_mem {value : String} {before after name : List Char} {hash : StoreHash}
    (h : IsPaddedPath value before hash after name) {c : Char} (hname : c ∉ name)
    (hblank : Str.isWhitespace c = false) (hbase32 : StoreHash.isBase32 c = false)
    (hdash : c ≠ '-') : c ∉ before ++ hash.val.toList ++ after ++ '-' :: name := by
  simp only [List.mem_append, List.mem_cons, not_or]
  exact ⟨⟨⟨not_mem_of_blank h.blankBefore hblank, h.digits.not_mem hbase32⟩,
    not_mem_of_blank h.blankAfter hblank⟩, hdash, hname⟩

/-- The accepted paths. -/
theorem validateStorePath_eq_ok {value : String} {hash : StoreHash} :
    validateStorePath value = .ok hash ↔
      ∃ before after name, IsPaddedPath value before hash after name := by
  simp only [validateStorePath, bind_eq_ok, okOr_eq_ok, ensure_eq_ok, Str.stripPrefix_eq_some,
    isEmpty_iff_toList, containsChar_iff, not_or, validateStorePathBasename_eq_ok]
  constructor
  · rintro ⟨basename, rfl, _, _, before, after, name, hbefore, hdigits, hafter, hname, hbasename⟩
    refine ⟨before, after, name, hbefore, hdigits, hafter, hname, ?_⟩
    rw [String.toList_append, hbasename]
  · rintro ⟨before, after, name, hpadded⟩
    obtain ⟨basename, hvalue, hbasename⟩ := hpadded.exists_basename
    refine ⟨basename, hvalue, (), ⟨?_, ?_, ?_⟩, before, after, name, hpadded.blankBefore,
      hpadded.digits, hpadded.blankAfter, hpadded.isName, hbasename⟩
    · simp [hbasename]
    · rw [hbasename]
      exact hpadded.not_mem hpadded.isName.noSlash rfl rfl (by decide)
    · rw [hbasename]
      exact hpadded.not_mem hpadded.isName.noBackslash rfl rfl (by decide)

theorem isPaddedPath_of_isStorePath {value : String} {hash : StoreHash}
    (h : IsStorePath value hash) : ∃ name, IsPaddedPath value [] hash [] name := by
  obtain ⟨hdigits, name, hname, hvalue⟩ := h
  have hnil : Str.Blank [] := by simp [Str.Blank]
  exact ⟨name, hnil, hdigits, hnil, hname, by simpa using hvalue⟩

/-- The first dash of a path ends its hash. -/
theorem IsPaddedPath.unique {value : String} {before before' after after' name name' : List Char}
    {hash hash' : StoreHash} (h : IsPaddedPath value before hash after name)
    (h' : IsPaddedPath value before' hash' after' name') :
    before ++ hash.val.toList ++ after = before' ++ hash'.val.toList ++ after' := by
  have hsplit : ∀ {before after name : List Char} {hash : StoreHash},
      IsPaddedPath value before hash after name →
      Str.splitOnceChars '-' (value.toList.drop "/nix/store/".toList.length) =
        some (before ++ hash.val.toList ++ after, name) := by
    intro before after name hash hpadded
    rw [hpadded.text, List.drop_left, Str.splitOnceChars_eq_some]
    refine ⟨rfl, ?_⟩
    simp only [List.mem_append, not_or]
    exact ⟨⟨not_mem_of_blank hpadded.blankBefore rfl, hpadded.digits.not_mem rfl⟩,
      not_mem_of_blank hpadded.blankAfter rfl⟩
  have hsame := (hsplit h).symm.trans (hsplit h')
  simp only [Option.some.injEq, Prod.mk.injEq] at hsame
  exact hsame.1

/-- The white space that is accepted around a hash keeps the path from being a store path. -/
theorem not_hasPaddedHash_of_isStorePath {value : String} {hash : StoreHash}
    (h : IsStorePath value hash) : ¬ HasPaddedHash value := by
  rintro ⟨before, hash', after, name, hpadded, hne⟩
  obtain ⟨name', hplain⟩ := isPaddedPath_of_isStorePath h
  have hsame := hpadded.unique hplain
  rw [List.nil_append, List.append_nil] at hsame
  obtain ⟨c, hc⟩ := List.exists_mem_of_ne_nil _ hne
  have hblank : Str.isWhitespace c = true := (hpadded.blankBefore.append hpadded.blankAfter) c hc
  have hmem : c ∈ hash.val.toList := by
    rw [← hsame]
    simp only [List.mem_append] at hc ⊢
    tauto
  rw [h.1.not_blank c hmem] at hblank
  cases hblank

/-! ## References -/

theorem ne_nil_of_normalizeStoreReference {value basename : String}
    (h : normalizeStoreReference value = .ok basename) : value.toList ≠ [] := by
  obtain ⟨href, rfl | rfl⟩ := normalizeStoreReference_eq_ok.mp h
  · exact href.ne_nil
  · simp

/-- Store paths are exactly the accepted ones, and references joined by blanks are found again, as
long as no white space is around a hash. -/
theorem validateStorePath_exact_iff (value : String) (references : List String) :
    ((∀ hash, validateStorePath value = .ok hash ↔ IsStorePath value hash) ↔
      ¬ HasPaddedHash value) ∧
    ((∀ value ∈ references, ∃ basename, normalizeStoreReference value = .ok basename) →
      (Str.splitWhitespace (String.intercalate " " references) = references ↔
        ∀ value ∈ references, ∀ c ∈ value.toList, Str.isWhitespace c = false)) := by
  refine ⟨?_, ?_⟩
  · constructor
    · rintro h ⟨before, hash, after, name, hpadded, hne⟩
      have hpath := (h hash).mp (validateStorePath_eq_ok.mpr ⟨before, after, name, hpadded⟩)
      exact not_hasPaddedHash_of_isStorePath hpath ⟨before, hash, after, name, hpadded, hne⟩
    · intro hplain hash
      rw [validateStorePath_eq_ok]
      constructor
      · rintro ⟨before, after, name, hpadded⟩
        have hnil : before ++ after = [] := by
          by_contra hne
          exact hplain ⟨before, hash, after, name, hpadded, hne⟩
        obtain ⟨rfl, rfl⟩ := List.append_eq_nil_iff.mp hnil
        exact ⟨hpadded.digits, name, hpadded.isName, by simpa using hpadded.text⟩
      · intro hpath
        obtain ⟨name, hpadded⟩ := isPaddedPath_of_isStorePath hpath
        exact ⟨[], [], name, hpadded⟩
  · intro haccepted
    constructor
    · intro hsplit value hvalue
      rw [← hsplit] at hvalue
      exact (Str.isWord_of_mem_splitWhitespace hvalue).2
    · intro hplain
      apply Str.splitWhitespace_intercalate
      intro value hvalue
      obtain ⟨basename, hbasename⟩ := haccepted value hvalue
      exact ⟨ne_nil_of_normalizeStoreReference hbasename, hplain value hvalue⟩

def zeros : String := "00000000000000000000000000000000"

theorem validateStorePath_blank_accepted :
    (validateStorePath ("/nix/store/ " ++ zeros ++ "-a") = .ok ⟨zeros⟩ ∧
      ¬ IsStorePath ("/nix/store/ " ++ zeros ++ "-a") ⟨zeros⟩) ∧
    normalizeStoreReference (" " ++ zeros ++ "-a") = .ok (" " ++ zeros ++ "-a") ∧
    Str.splitWhitespace (String.intercalate " " [" " ++ zeros ++ "-a"]) ≠
      [" " ++ zeros ++ "-a"] := by
  refine ⟨⟨by decide, ?_⟩, by decide, by decide⟩
  intro hpath
  have hpadded : IsPaddedPath ("/nix/store/ " ++ zeros ++ "-a") [' '] ⟨zeros⟩ [] ['a'] :=
    ⟨by simp [Str.Blank, Str.isWhitespace], ⟨by decide, by decide⟩, by simp [Str.Blank],
      ⟨by decide, by decide, by decide, by decide⟩, by decide⟩
  exact not_hasPaddedHash_of_isStorePath hpath ⟨_, _, _, _, hpadded, by simp⟩

theorem validateStorePath_exact_iff_zeros :
    Str.splitWhitespace (String.intercalate " " [zeros ++ "-a", zeros ++ "-b"]) =
      [zeros ++ "-a", zeros ++ "-b"] := by
  apply ((validateStorePath_exact_iff zeros _).2 ?_).mpr
  · decide
  · intro value hvalue
    simp only [List.mem_cons, List.not_mem_nil, or_false] at hvalue
    rcases hvalue with rfl | rfl
    · exact ⟨zeros ++ "-a", by decide⟩
    · exact ⟨zeros ++ "-b", by decide⟩

/-! ## The hash of a path -/

/-- The slice ends at the boundary of a character. -/
theorem slicePrefix_eq_some {cs front : List Char} {count : Nat} :
    slicePrefix cs count = some front ↔
      front <+: cs ∧ Str.len (String.ofList front) = count := by
  induction cs generalizing count front with
  | nil =>
      rw [slicePrefix, List.prefix_nil]
      split
      next hcount =>
        rw [Option.some.injEq, hcount, Str.len_ofList_eq_zero, and_self, eq_comm]
      next hcount =>
        constructor
        · simp
        · rintro ⟨rfl, hlen⟩
          exact absurd hlen.symm hcount
  | cons c cs ih =>
      have hpos := c.utf8Size_pos
      rw [slicePrefix]
      split
      next hcount =>
        rw [Option.some.injEq, hcount, Str.len_ofList_eq_zero]
        constructor
        · rintro rfl
          exact ⟨List.nil_prefix, rfl⟩
        · rintro ⟨-, rfl⟩
          rfl
      next hcount =>
        cases front with
        | nil =>
            have hzero : Str.len (String.ofList []) = 0 := Str.len_ofList_eq_zero.mpr rfl
            rw [hzero]
            constructor
            · intro h
              split at h
              · simp at h
              · cases h
            · rintro ⟨-, hlen⟩
              exact absurd hlen.symm hcount
        | cons d front =>
            rw [List.cons_prefix_cons, Str.len_ofList_cons]
            split
            next hsize =>
              simp only [Option.map_eq_some_iff, ih, List.cons.injEq]
              constructor
              · rintro ⟨_, ⟨hfront, hlen⟩, rfl, rfl⟩
                refine ⟨⟨rfl, hfront⟩, ?_⟩
                omega
              · rintro ⟨⟨rfl, hfront⟩, hlen⟩
                refine ⟨front, ⟨hfront, ?_⟩, rfl, rfl⟩
                omega
            next hsize =>
              constructor
              · intro h
                cases h
              · rintro ⟨⟨rfl, -⟩, hlen⟩
                omega

/-- The 32nd byte of the last component is inside a character. -/
def SplitsCharacter (storePath : String) : Prop :=
  ∃ name, fileName storePath = some name ∧ 32 ≤ Str.len name ∧
    ∀ front, front <+: name.toList → Str.len (String.ofList front) ≠ 32

theorem extractStoreHash_eq_ok_iff {storePath : String} :
    (∃ found, extractStoreHash storePath = .ok found) ↔ ¬ SplitsCharacter storePath := by
  unfold extractStoreHash SplitsCharacter
  cases hname : fileName storePath with
  | none => simp
  | some name =>
      dsimp only
      split
      next hshort =>
        simp only [Except.ok.injEq, exists_eq', Option.some.injEq, true_iff]
        rintro ⟨_, rfl, hlen, -⟩
        omega
      next hlong =>
        cases hslice : slicePrefix name.toList 32 with
        | none =>
            simp only [reduceCtorEq, exists_false, false_iff, not_not]
            refine ⟨name, rfl, by omega, fun front hfront hlen => ?_⟩
            have hsome := slicePrefix_eq_some.mpr ⟨hfront, hlen⟩
            rw [hslice] at hsome
            cases hsome
        | some front =>
            simp only [Except.ok.injEq, exists_eq', true_iff]
            rintro ⟨_, hsame, -, hnone⟩
            obtain rfl := Option.some.inj hsame
            exact hnone front (slicePrefix_eq_some.mp hslice).1 (slicePrefix_eq_some.mp hslice).2

theorem IsPaddedPath.fileName_eq {value : String} {before after name : List Char}
    {hash : StoreHash} (h : IsPaddedPath value before hash after name) :
    fileName value =
      some (String.ofList (before ++ hash.val.toList ++ after ++ '-' :: name)) := by
  have hslash := h.not_mem h.isName.noSlash rfl rfl (by decide)
  have hdash : '-' ∈ before ++ hash.val.toList ++ after ++ '-' :: name := by simp
  unfold fileName
  rw [h.text]
  generalize before ++ hash.val.toList ++ after ++ '-' :: name = basename at hslash hdash
  have hnil : basename ≠ [] := List.ne_nil_of_mem hdash
  have hdot : basename ≠ ['.'] := by
    rintro rfl
    simp at hdash
  have hdots : basename ≠ ['.', '.'] := by
    rintro rfl
    simp at hdash
  have hsplit : ("/nix/store/".toList ++ basename).splitOn '/' =
      [[], ['n', 'i', 'x'], ['s', 't', 'o', 'r', 'e'], basename] := by
    have htext : "/nix/store/".toList ++ basename =
        [] ++ '/' :: (['n', 'i', 'x'] ++ '/' :: (['s', 't', 'o', 'r', 'e'] ++ '/' :: basename)) :=
      rfl
    rw [htext, List.splitOn_append_cons_self_of_not_mem (by decide),
      List.splitOn_append_cons_self_of_not_mem (by decide),
      List.splitOn_append_cons_self_of_not_mem (by decide), List.splitOn_eq_singleton hslash]
  rw [hsplit]
  simp [hnil, hdot, hdots]

theorem IsDigits.len_eq {cs : List Char} (h : IsDigits cs) : Str.len (String.ofList cs) = 32 :=
  (Str.len_ofList_ascii h.ascii).trans h.length

/-- The first 32 bytes of the name are a hash only if nothing is before the hash of the path. -/
theorem IsPaddedPath.slice_eq {value : String} {before after name front : List Char}
    {hash other : StoreHash} (h : IsPaddedPath value before hash after name)
    (hslice : slicePrefix (before ++ hash.val.toList ++ after ++ '-' :: name) 32 = some front)
    (hparse : StoreHash.parse (String.ofList front) = .ok other) :
    before = [] ∧ front = hash.val.toList := by
  obtain ⟨hstart, hfront⟩ := slicePrefix_eq_some.mp hslice
  -- the slice is as long as the hash alone, so the parser has trimmed nothing
  obtain ⟨hdigits, lead, trail, -, -, htext⟩ := StoreHash.parse_eq_ok.mp hparse
  rw [String.toList_ofList] at htext
  rw [htext, Str.len_ofList_append, Str.len_ofList_append, hdigits.len_eq] at hfront
  have hlead : lead = [] := Str.len_ofList_eq_zero.mp (by omega)
  have htrail : trail = [] := Str.len_ofList_eq_zero.mp (by omega)
  rw [hlead, htrail, List.nil_append, List.append_nil] at htext
  rw [htext] at hstart ⊢
  cases before with
  | nil =>
      rw [List.nil_append, List.append_assoc] at hstart
      have hlen : other.val.toList.length = hash.val.toList.length :=
        hdigits.length.trans h.digits.length.symm
      exact ⟨rfl, List.IsPrefix.eq_of_length
        (List.prefix_of_prefix_length_le hstart (List.prefix_append _ _) hlen.le) hlen⟩
  | cons c before =>
      exfalso
      cases hchars : other.val.toList with
      | nil =>
          have hlength := hdigits.length
          simp [hchars] at hlength
      | cons d digits =>
          rw [hchars, List.cons_append, List.cons_append, List.cons_append,
            List.cons_prefix_cons] at hstart
          have hblank := h.blankBefore c (by simp)
          have hplain := hdigits.not_blank d (by simp [hchars])
          rw [hstart.1, hblank] at hplain
          cases hplain

/-- The hash is found in a path exactly if nothing is before it. -/
theorem IsPaddedPath.extractStoreHash_eq_some_iff {value : String} {before after name : List Char}
    {hash : StoreHash} (h : IsPaddedPath value before hash after name) :
    extractStoreHash value = .ok (some hash) ↔ before = [] := by
  have hlen := h.digits.len_eq
  have hlong : ¬ Str.len
      (String.ofList (before ++ hash.val.toList ++ after ++ '-' :: name)) < 32 := by
    simp only [Str.len_ofList_append, hlen]
    omega
  rw [extractStoreHash, h.fileName_eq]
  dsimp only
  rw [if_neg hlong, String.toList_ofList]
  constructor
  · intro hfound
    split at hfound
    · cases hfound
    next front hslice =>
      cases hresult : StoreHash.parse (String.ofList front) with
      | error error => simp [hresult, Except.toOption] at hfound
      | ok other => exact (h.slice_eq hslice hresult).1
  · rintro rfl
    have hslice : slicePrefix ([] ++ hash.val.toList ++ after ++ '-' :: name) 32 =
        some hash.val.toList := by
      rw [slicePrefix_eq_some, List.nil_append, List.append_assoc]
      exact ⟨List.prefix_append _ _, hlen⟩
    have hparse : StoreHash.parse (String.ofList hash.val.toList) = .ok hash :=
      StoreHash.parse_eq_ok.mpr ⟨h.digits, [], [], by simp [Str.Blank], by simp [Str.Blank],
        by simp⟩
    rw [hslice]
    dsimp only
    rw [hparse]
    rfl

/-- The first character after the store directory is not white space. -/
def StartsPlain (value : String) : Prop :=
  ∀ c rest, value.toList = "/nix/store/".toList ++ c :: rest → Str.isWhitespace c = false

theorem IsPaddedPath.startsPlain_iff {value : String} {before after name : List Char}
    {hash : StoreHash} (h : IsPaddedPath value before hash after name) :
    StartsPlain value ↔ before = [] := by
  unfold StartsPlain
  rw [h.text]
  simp only [List.append_cancel_left_eq]
  cases before with
  | nil =>
      simp only [List.nil_append, iff_true]
      cases hchars : hash.val.toList with
      | nil =>
          have hlength := h.digits.length
          simp [hchars] at hlength
      | cons d digits =>
          intro c rest hsame
          rw [List.cons_append, List.cons_append] at hsame
          rw [← (List.cons.inj hsame).1]
          exact h.digits.not_blank d (by simp [hchars])
  | cons c before =>
      simp only [reduceCtorEq, iff_false, not_forall]
      refine ⟨c, _, rfl, ?_⟩
      simp [h.blankBefore c (by simp)]

/-- A hash is extracted without a panic unless byte 32 of the name is inside a character, and is the
one of the validated path unless white space comes first. -/
theorem extractStoreHash_agrees_iff (value : String) :
    ((∃ found, extractStoreHash value = .ok found) ↔ ¬ SplitsCharacter value) ∧
    ∀ hash, validateStorePath value = .ok hash →
      (extractStoreHash value = .ok (some hash) ↔ StartsPlain value) := by
  refine ⟨extractStoreHash_eq_ok_iff, ?_⟩
  intro hash haccepted
  obtain ⟨before, after, name, hpadded⟩ := validateStorePath_eq_ok.mp haccepted
  rw [hpadded.extractStoreHash_eq_some_iff, hpadded.startsPlain_iff]

/-- `é` takes bytes 31 and 32, and one blank pushes the last digit out of the slice. -/
theorem extractStoreHash_disagrees :
    extractStoreHash "0000000000000000000000000000000é" = .error .notCharBoundary ∧
    validateStorePath ("/nix/store/ " ++ zeros ++ "-a") = .ok ⟨zeros⟩ ∧
      extractStoreHash ("/nix/store/ " ++ zeros ++ "-a") = .ok none := by
  decide

theorem extractStoreHash_agrees_iff_zeros :
    extractStoreHash ("/nix/store/" ++ zeros ++ "-a") = .ok (some ⟨zeros⟩) := by
  apply ((extractStoreHash_agrees_iff _).2 _ (by decide)).mpr
  intro c rest hrest
  have hfirst : (("/nix/store/" ++ zeros ++ "-a").toList)[11]? = some c := by
    rw [hrest]
    rfl
  have hzero : (("/nix/store/" ++ zeros ++ "-a").toList)[11]? = some '0' := by decide
  obtain rfl := Option.some.inj (hfirst.symm.trans hzero)
  rfl

end NixCache.Core

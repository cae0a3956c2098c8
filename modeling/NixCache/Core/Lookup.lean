import NixCache.Core.Index
/-!
# Lookups and rendered narinfo

`nixcache-core/src/lookup.rs`, the rendering of a narinfo in `types.rs`, and the lookups in a root
index.
-/

namespace NixCache.Core

open NixCache.Lib

/-! ## Narinfo texts -/

/-- `NarInfoMeta::render`. -/
def NarInfoMeta.render (info : NarInfoMeta) (narSize : UInt64) : String :=
  let line (name : String) (value : Option String) : List String :=
    (value.map fun value => name ++ ": " ++ value).toList
  let lines :=
    ["StorePath: " ++ info.storePath, "URL: nar/" ++ info.narBasename] ++
      line "Compression" info.compression ++ line "FileHash" info.fileHash ++
      line "FileSize" (info.fileSize.map fun size => toString size.toNat) ++
      ["NarHash: " ++ info.narHash, "NarSize: " ++ toString narSize.toNat] ++
      (if info.references.isEmpty then [] else
        ["References: " ++ String.intercalate " " info.references]) ++
      line "Deriver" info.deriver ++ info.signatures.map ("Sig: " ++ ·) ++ line "CA" info.ca
  String.intercalate "\n" lines ++ "\n"

namespace IndexEntry

def narBasename (entry : IndexEntry) : String := entry.narinfoMeta.narBasename

def toNarinfoString (entry : IndexEntry) : String := entry.narinfoMeta.render entry.narSize

end IndexEntry

/-! ## Names -/

/-- `Path::file_name`, on Unix: the last component, unless it is `..`. -/
def fileName (path : String) : Option String :=
  match ((path.toList.splitOn '/').filter fun part => part ≠ [] ∧ part ≠ ['.']).getLast? with
  | none => none
  | some part => if part = ['.', '.'] then none else some (String.ofList part)

/-- `&s[..count]`: the characters of the first `count` bytes, unless that splits a character. -/
def slicePrefix : List Char → (count : Nat) → Option (List Char)
  | [], count => if count = 0 then some [] else none
  | c :: cs, count =>
      if count = 0 then some []
      else if c.utf8Size ≤ count then (slicePrefix cs (count - c.utf8Size)).map (c :: ·)
      else none

/-- A slice that is not at the boundary of a character. -/
inductive SlicePanic where
  | notCharBoundary
deriving DecidableEq, Repr

/-- `extract_store_hash`. -/
def extractStoreHash (storePath : String) : Except SlicePanic (Option StoreHash) :=
  match fileName storePath with
  | none => .ok none
  | some name =>
      if Str.len name < 32 then .ok none
      else
        match slicePrefix name.toList 32 with
        | none => .error .notCharBoundary
        | some hash => .ok (StoreHash.parse (String.ofList hash)).toOption

/-- `split_whitespace().next().unwrap_or(s)`. -/
def firstWord (s : String) : String :=
  match (s.toList.dropWhile Str.isWhitespace).takeWhile fun c => ¬ Str.isWhitespace c with
  | [] => s
  | word => String.ofList word

/-- `rsplit('/').next().unwrap_or(s)`. -/
def lastComponent (s : String) : String := ((Str.rsplitOnce s '/').map Prod.snd).getD s

/-- `extract_nar_basename`. -/
def extractNarBasename (urlOrPath : String) : String :=
  let trimmed := Str.trim urlOrPath
  match Str.stripPrefix trimmed "URL: nar/" with
  | some rest => firstWord rest
  | none =>
      match Str.stripPrefix trimmed "URL: " with
      | some rest => lastComponent (firstWord rest)
      | none =>
          match Str.stripPrefix trimmed "nar/" with
          | some rest => firstWord rest
          | none => lastComponent trimmed

/-- One iteration of `build_nar_lookup_map`. -/
def insertNar (names : HashMap String NarDigest) (entry : IndexEntry) : HashMap String NarDigest :=
  if Str.isEmpty entry.narBasename then names else names.insert entry.narBasename entry.narDigest

/-- `build_nar_lookup_map`. -/
def buildNarLookupMap (entries : HashMap StoreHash IndexEntry) : HashMap String NarDigest :=
  entries.values.foldl insertNar ∅

namespace ShardedArchCacheIndexData

def findShardById (root : ShardedArchCacheIndexData) (shardId : UInt16) : Option ShardDescriptor :=
  root.shards[shardId.toNat]?

/-- `total_entries`. -/
def totalEntries (root : ShardedArchCacheIndexData) : Nat :=
  (root.shards.map fun shard => shard.entryCount.toNat).sum

end ShardedArchCacheIndexData

/-! ## What the lookup map answers -/

/-- A digest in the map is that of an entry with that name. -/
theorem exists_of_lookup_buildNarLookupMap {entries : HashMap StoreHash IndexEntry} {name : String}
    {digest : NarDigest} (h : (buildNarLookupMap entries).lookup name = some digest) :
    ∃ hash entry, entries.lookup hash = some entry ∧ entry.narBasename = name ∧
      entry.narDigest = digest := by
  suffices hgen : ∀ (values : List IndexEntry) (names : HashMap String NarDigest),
      (values.foldl insertNar names).lookup name = some digest →
        names.lookup name = some digest ∨
          ∃ entry ∈ values, entry.narBasename = name ∧ entry.narDigest = digest by
    rcases hgen entries.values ∅ h with hempty | ⟨entry, hmem, hname, hdigest⟩
    · simp at hempty
    · obtain ⟨hash, hhash⟩ := HashMap.mem_values_iff.mp hmem
      exact ⟨hash, entry, hhash, hname, hdigest⟩
  intro values
  induction values with
  | nil =>
      intro names h
      exact Or.inl h
  | cons entry values ih =>
      intro names h
      rcases ih _ h with hnames | ⟨other, hmem, hother⟩
      · unfold insertNar at hnames
        split at hnames
        · exact Or.inl hnames
        · by_cases hname : name = entry.narBasename
          · rw [hname, AList.lookup_insert] at hnames
            exact Or.inr ⟨entry, by simp, hname.symm, Option.some.inj hnames⟩
          · rw [AList.lookup_insert_ne hname] at hnames
            exact Or.inl hnames
      · exact Or.inr ⟨other, List.mem_cons_of_mem _ hmem, hother⟩

end NixCache.Core

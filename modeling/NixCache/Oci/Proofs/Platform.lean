import NixCache.Oci.Index
/-!
# The child of an image index that stands for a system

`validate_for` reads a platform with its aliases, `find_manifest_for_system` compares it with the
one platform that the writers write.  What is found is always right; a child that is written in another
way is not found.
-/

namespace NixCache.Oci

open NixCache.Lib NixCache.Lib.Result NixCache.Core
open IndexClient (descriptorSystem)

variable {limits : OciReadLimits} {target : String} {system : SystemArch}
  {descriptor : OciDescriptor} {index : OciImageIndex}

/-! ## Accepted children -/

namespace OciDescriptor

/-- What the annotations name the system, as it is written. -/
def annotationText (descriptor : OciDescriptor) : Option String :=
  descriptor.annotations.bind fun annotations => annotations.lookup systemKey

/-- The descriptor stands for the system, in all that it says about it. -/
structure IsOf (descriptor : OciDescriptor) (system : SystemArch) : Prop where
  known : system.isKnown = true
  system_eq : descriptorSystem descriptor = some system
  platform : ∀ found ∈ descriptor.platformSystem, found = system
  annotation : ∀ found ∈ descriptor.annotationSystem, found = system

/-- The descriptor says so in the words of the writers: the platform of `from_system`, or the name
of the system without blanks around it. -/
def IsCanonicalFor (descriptor : OciDescriptor) (system : SystemArch) : Prop :=
  descriptor.platform = some (OciPlatform.fromSystem system) ∨
    descriptor.annotationText = some system.asStr

theorem isManifestFor_iff :
    OciImageIndex.isManifestFor system descriptor = true ↔ descriptor.IsCanonicalFor system := by
  unfold OciImageIndex.isManifestFor IsCanonicalFor annotationText
  by_cases hplatform : descriptor.platform = some (OciPlatform.fromSystem system)
  · simp [hplatform]
  · rw [if_neg hplatform]
    cases htext : descriptor.annotations.bind fun annotations => annotations.lookup systemKey with
    | none => simp [hplatform]
    | some name => simp [hplatform]

/-- The words of the writers are understood. -/
theorem IsCanonicalFor.eq {other : SystemArch} (h : descriptor.IsCanonicalFor system)
    (hof : descriptor.IsOf other) : other = system := by
  rcases h with hplatform | htext
  · have hfound : descriptor.platformSystem = some system := by
      rw [platformSystem, hplatform, Option.map_some]
      exact congrArg some (SystemArch.fromOci_toOciPlatformTuple system)
    exact (hof.platform system hfound).symm
  · have hfound : descriptor.annotationSystem = some system := by
      rw [annotationSystem, ← annotationText, htext, Option.map_some, SystemArch.ofStr_asStr]
    exact (hof.annotation system hfound).symm

end OciDescriptor

namespace OciImageIndex

theorem validateChild_ok {systems systems' : List SystemArch}
    (h : validateChild limits target systems descriptor = .ok systems') :
    ∃ system, descriptor.IsOf system ∧ system ∉ systems ∧ systems' = system :: systems := by
  simp only [validateChild, bind_eq_ok, ensure_eq_ok, okOr_eq_ok, pure_eq_ok] at h
  obtain ⟨_, _, _, _, _, hconsistent, system, hsystem, _, hnew, rfl⟩ := h
  obtain ⟨hor, hknown⟩ := Option.filter_eq_some_iff.mp hsystem
  refine ⟨system, ⟨hknown, hor, ?_, ?_⟩, hnew, rfl⟩
  · intro found hfound
    rw [Option.mem_def] at hfound
    rw [hfound, Option.some_or, Option.some.injEq] at hor
    exact hor
  · intro found hfound
    rw [Option.mem_def] at hfound
    cases hplatform : descriptor.platformSystem with
    | none =>
        rw [hplatform, hfound, Option.none_or, Option.some.injEq] at hor
        exact hor
    | some other =>
        rw [hplatform, Option.some_or, Option.some.injEq] at hor
        by_contra hne
        refine hconsistent (Or.inr (Or.inr ⟨other, hplatform, found, hfound, ?_⟩))
        rw [hor]
        exact Ne.symm hne

/-- The children of an accepted index each stand for one system, and no two for the same. -/
theorem validateChildren_ok {children : List OciDescriptor} {systems final : List SystemArch}
    (h : foldM (validateChild limits target) systems children = .ok final) :
    (∀ child ∈ children, ∃ system, child.IsOf system ∧ system ∉ systems) ∧
      children.Pairwise fun left right => descriptorSystem left ≠ descriptorSystem right := by
  induction children generalizing systems with
  | nil => simp
  | cons child children ih =>
      obtain ⟨systems', hchild, hrest⟩ := bind_eq_ok.mp h
      obtain ⟨system, hof, hnew, rfl⟩ := validateChild_ok hchild
      obtain ⟨hall, hpairwise⟩ := ih hrest
      refine ⟨?_, List.pairwise_cons.mpr ⟨?_, hpairwise⟩⟩
      · intro other hother
        rcases List.mem_cons.mp hother with rfl | hother
        · exact ⟨system, hof, hnew⟩
        · obtain ⟨found, hfound, hfresh⟩ := hall other hother
          exact ⟨found, hfound, fun hmem => hfresh (List.mem_cons_of_mem system hmem)⟩
      · intro other hother heq
        obtain ⟨found, hfound, hfresh⟩ := hall other hother
        rw [hof.system_eq, hfound.system_eq, Option.some.injEq] at heq
        exact hfresh (heq ▸ List.mem_cons_self)

theorem validateFor_ok (h : index.validateFor limits target = .ok ()) :
    (∀ child ∈ index.manifests, ∃ system, child.IsOf system) ∧
      index.manifests.Pairwise fun left right =>
        descriptorSystem left ≠ descriptorSystem right := by
  simp only [validateFor, bind_eq_ok, ensure_eq_ok, pure_eq_ok] at h
  obtain ⟨_, _, _, _, _, _, _, hchildren, _⟩ := h
  obtain ⟨hall, hpairwise⟩ := validateChildren_ok hchildren
  refine ⟨fun child hchild => ?_, hpairwise⟩
  obtain ⟨system, hof, _⟩ := hall child hchild
  exact ⟨system, hof⟩

/-! ## Finding the child of a system -/

/-- The children that stand for a system. -/
def childrenOf (index : OciImageIndex) (system : SystemArch) : List OciDescriptor :=
  index.manifests.filter fun child => descriptorSystem child = some system

/-- A child that stands for a system is the only one. -/
theorem childrenOf_eq (h : index.validateFor limits target = .ok ())
    (hmem : descriptor ∈ index.manifests) (hsystem : descriptorSystem descriptor = some system) :
    index.childrenOf system = [descriptor] := by
  obtain ⟨_, hpairwise⟩ := validateFor_ok h
  obtain ⟨before, after, hsplit⟩ := List.append_of_mem hmem
  rw [hsplit, List.pairwise_append, List.pairwise_cons] at hpairwise
  obtain ⟨_, ⟨hafter, _⟩, hbefore⟩ := hpairwise
  have hnone : ∀ children : List OciDescriptor,
      (∀ child ∈ children, descriptorSystem child ≠ descriptorSystem descriptor) →
      children.filter (fun child => descriptorSystem child = some system) = [] := by
    intro children hne
    refine List.filter_eq_nil_iff.mpr fun child hchild => ?_
    rw [decide_eq_true_eq, ← hsystem]
    exact hne child hchild
  unfold childrenOf
  rw [hsplit, List.filter_append, List.filter_cons, if_pos (by simpa using hsystem),
    hnone before fun child hchild => hbefore child hchild descriptor List.mem_cons_self,
    hnone after fun child hchild => (hafter child hchild).symm, List.nil_append]

/-- What is found stands for the system, so the check of `get_sharded_root` after it never fails. -/
theorem descriptorSystem_of_find (h : index.validateFor limits target = .ok ())
    (hfind : index.findManifestForSystem system = some descriptor) :
    descriptor ∈ index.manifests ∧ descriptor.IsCanonicalFor system ∧
      descriptorSystem descriptor = some system := by
  have hmem : descriptor ∈ index.manifests := List.mem_of_find?_eq_some hfind
  have hcanonical := OciDescriptor.isManifestFor_iff.mp (List.find?_some hfind)
  obtain ⟨other, hof⟩ := (validateFor_ok h).1 descriptor hmem
  have heq := hcanonical.eq hof
  subst heq
  exact ⟨hmem, hcanonical, hof.system_eq⟩

/-- A child in the words of the writers is found. -/
theorem exists_find_of_canonical (hmem : descriptor ∈ index.manifests)
    (hcanonical : descriptor.IsCanonicalFor system) :
    ∃ found, index.findManifestForSystem system = some found := by
  refine Option.isSome_iff_exists.mp (List.find?_isSome.mpr ⟨descriptor, hmem, ?_⟩)
  exact OciDescriptor.isManifestFor_iff.mpr hcanonical

/-- For an accepted index the two readings agree about a system exactly if the child that stands for
it is written in the words of the writers. -/
theorem findManifestForSystem_agrees_iff (h : index.validateFor limits target = .ok ()) :
    (∀ descriptor, index.findManifestForSystem system = some descriptor ↔
        index.childrenOf system = [descriptor]) ↔
      ∀ child ∈ index.manifests, descriptorSystem child = some system →
        child.IsCanonicalFor system := by
  constructor
  · intro hagrees child hchild hsystem
    have hfind := (hagrees child).mpr (childrenOf_eq h hchild hsystem)
    exact (descriptorSystem_of_find h hfind).2.1
  · intro hcanonical descriptor
    constructor
    · intro hfind
      obtain ⟨hmem, _, hsystem⟩ := descriptorSystem_of_find h hfind
      exact childrenOf_eq h hmem hsystem
    · intro hchildren
      have hin : descriptor ∈ index.childrenOf system := by simp [hchildren]
      obtain ⟨hmem, hsystem⟩ := List.mem_filter.mp hin
      have hwritten := hcanonical descriptor hmem (of_decide_eq_true hsystem)
      obtain ⟨found, hfind⟩ := exists_find_of_canonical hmem hwritten
      obtain ⟨hfoundMem, _, hfoundSystem⟩ := descriptorSystem_of_find h hfind
      have hfound := childrenOf_eq h hfoundMem hfoundSystem
      rw [hchildren, List.singleton_inj] at hfound
      rw [hfind, hfound]

/-- An index with one child, for a platform. -/
def platformIndex (platform : OciPlatform) : OciImageIndex :=
  ⟨2, ociImageIndexMediaType,
    [⟨ociImageManifestMediaType, emptyConfigDigest, 2, some platform, none⟩], none⟩

theorem findManifestForSystem_agrees_iff_amd64 :
    (platformIndex ⟨"amd64", "linux", none, []⟩).validateFor {} "cache-index" = .ok () ∧
    ∀ descriptor,
      (platformIndex ⟨"amd64", "linux", none, []⟩).findManifestForSystem .x86_64Linux =
          some descriptor ↔
        (platformIndex ⟨"amd64", "linux", none, []⟩).childrenOf .x86_64Linux = [descriptor] := by
  have haccepted : (platformIndex ⟨"amd64", "linux", none, []⟩).validateFor {} "cache-index" =
      .ok () := by rfl
  refine ⟨haccepted, (findManifestForSystem_agrees_iff haccepted).mpr fun child hchild _ => ?_⟩
  rw [List.mem_singleton.mp hchild]
  exact Or.inl rfl

/-- The architecture is spelled as in Nix: the child is accepted for the system but not found. -/
theorem aliasPlatform_not_found :
    (platformIndex ⟨"x86_64", "linux", none, []⟩).validateFor {} "cache-index" = .ok () ∧
    (∃ descriptor,
      (platformIndex ⟨"x86_64", "linux", none, []⟩).childrenOf .x86_64Linux = [descriptor]) ∧
    (platformIndex ⟨"x86_64", "linux", none, []⟩).findManifestForSystem .x86_64Linux = none :=
  ⟨rfl, ⟨_, rfl⟩, rfl⟩

end OciImageIndex

end NixCache.Oci

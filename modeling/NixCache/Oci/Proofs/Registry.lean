import NixCache.Oci.Proofs.Reading
import NixCache.Oci.Registry
/-!
# What exchanges do to a registry

A tag changes by the PUTs that are carried out and by nothing else, so that its content after a run
is the last body written to it.
-/

namespace NixCache.Oci

open NixCache.Lib NixCache.Core
open NixCache.Lib.Program (Trace Follows)

variable {X : OciCrates} {applied : StatusCode → Bool} {before after : Registry}
  {trace : Trace Request Reply}

/-! ## Tags -/

/-- The reference and the body of a manifest PUT that was carried out. -/
def putOf : Request × Reply → Option (String × Bytes)
  | (.putManifest reference _ _ body, .ok response) =>
      if isSuccess response.status then some (reference, body) else none
  | _ => none

/-- The bodies written to a reference, in order. -/
def written (reference : String) (trace : Trace Request Reply) : List Bytes :=
  trace.filterMap fun event => (putOf event).bind fun put =>
    if put.1 = reference then some put.2 else none

@[simp] theorem written_nil (reference : String) : written reference [] = [] := rfl

@[simp] theorem written_append (reference : String) (first rest : Trace Request Reply) :
    written reference (first ++ rest) = written reference first ++ written reference rest :=
  List.filterMap_append ..

theorem isEffective_of_putOf {event : Request × Reply} {put : String × Bytes}
    (h : putOf event = some put) : isEffective event = true := by
  match event, h with
  | (.putManifest reference _ _ body, .ok response), h =>
      simp only [putOf] at h
      split at h
      · rename_i hsuccess
        simp only [isEffective, unauthorized, Bool.not_eq_true', decide_eq_false_iff_not]
        intro h401
        simp [isSuccess, h401] at hsuccess
      · cases h

@[simp] theorem written_effective (reference : String) (trace : Trace Request Reply) :
    written reference (effective trace) = written reference trace := by
  unfold written effective
  rw [List.filterMap_filter]
  apply List.filterMap_congr
  intro event _
  cases hput : putOf event with
  | none => simp
  | some put => simp [isEffective_of_putOf hput]

namespace Registry

@[simp] theorem putBlob_tags (registry : Registry) (digest : String) (body : Bytes) :
    (registry.putBlob digest body).tags = registry.tags := rfl

@[simp] theorem deleteBlob_tags (registry : Registry) (digest : String) :
    (registry.deleteBlob digest).tags = registry.tags := rfl

@[simp] theorem putManifest_blobs (registry : Registry) (reference : String) (body : Bytes) :
    (registry.putManifest X.toCrates reference body).blobs = registry.blobs := rfl

/-- A PUT that is carried out meets its condition and sets the tag. -/
theorem step_of_putOf {event : Request × Reply} {reference : String} {body : Bytes}
    (h : Step X.toCrates applied before event after) (hput : putOf event = some (reference, body)) :
    ∃ contentType condition response,
      event = (.putManifest reference contentType condition body, .ok response) ∧
      applied response.status = true ∧
      (∀ c ∈ condition, before.meets X.toCrates reference c = true) ∧
      after = before.putManifest X.toCrates reference body := by
  match event, h, hput with
  | (.putManifest reference' contentType condition body', .ok response), h, hput =>
      simp only [putOf] at hput
      split at hput
      · rename_i hsuccess
        simp only [Option.some.injEq, Prod.mk.injEq] at hput
        obtain ⟨rfl, rfl⟩ := hput
        simp only [Step, hsuccess, if_true, Performs] at h
        exact ⟨contentType, condition, response, rfl, h⟩
      · cases hput

/-- Any other exchange leaves the manifests alone. -/
theorem manifests_of_step {event : Request × Reply}
    (h : Step X.toCrates applied before event after) (hput : putOf event = none) :
    after.tags = before.tags ∧ after.manifests = before.manifests := by
  obtain ⟨request, reply⟩ := event
  cases reply with
  | error error =>
      obtain rfl := h
      exact ⟨rfl, rfl⟩
  | ok response =>
      by_cases hsuccess : isSuccess response.status = true
      · simp only [Step, hsuccess, if_true] at h
        cases request with
        | putManifest reference contentType condition body => simp [putOf, hsuccess] at hput
        | postBlob digest body =>
            obtain ⟨_, rfl⟩ := h
            split <;> exact ⟨rfl, rfl⟩
        | getManifest reference | headBlob digest | getBlob digest =>
            obtain ⟨rfl, _⟩ := h
            exact ⟨rfl, rfl⟩
        | putUpload session digest body =>
            obtain ⟨_, rfl⟩ := h
            exact ⟨rfl, rfl⟩
        | deleteBlob digest | postUpload | deleteUpload session | refreshToken challenge =>
            obtain rfl := h
            exact ⟨rfl, rfl⟩
      · simp only [Step, hsuccess] at h
        obtain ⟨rfl, _⟩ := h
        exact ⟨rfl, rfl⟩

theorem tags_of_step {event : Request × Reply} (h : Step X.toCrates applied before event after)
    (hput : putOf event = none) : after.tags = before.tags :=
  (manifests_of_step h hput).1

/-- One exchange changes a tag to the body it wrote there, if it wrote any. -/
theorem tags_step {event : Request × Reply} (h : Step X.toCrates applied before event after)
    (reference : String) :
    after.tags reference = (written reference [event]).getLast?.or (before.tags reference) := by
  unfold written
  cases hput : putOf event with
  | none => simp [hput, tags_of_step h hput]
  | some put =>
      obtain ⟨target, body⟩ := put
      obtain ⟨_, _, _, _, _, _, rfl⟩ := step_of_putOf h hput
      by_cases htarget : target = reference
      · subst htarget
        simp [hput, putManifest]
      · simp [hput, putManifest, htarget, Function.update_of_ne (Ne.symm htarget)]

/-- After a run a tag holds the last body written to it. -/
theorem tags_follows (h : Follows (Step X.toCrates applied) before trace after)
    (reference : String) :
    after.tags reference = (written reference trace).getLast?.or (before.tags reference) := by
  induction trace generalizing before with
  | nil =>
      obtain rfl := h
      rfl
  | cons event rest ih =>
      obtain ⟨middle, hstep, hrest⟩ := h
      rw [ih hrest, tags_step hstep, ← Option.or_assoc, ← List.getLast?_append, ← written_append,
        List.singleton_append]

/-- What can be read stays readable. -/
theorem lookup_isSome_of_step {event : Request × Reply} {reference : String}
    (h : Step X.toCrates applied before event after)
    (hsome : (before.lookup reference).isSome = true) :
    (after.lookup reference).isSome = true := by
  have hupdate : ∀ (f : String → Option Bytes) (key : String) (body : Bytes),
      (f reference).isSome = true → (Function.update f key (some body) reference).isSome = true := by
    intro f key body hf
    by_cases hkey : reference = key
    · simp [hkey]
    · rwa [Function.update_of_ne hkey]
  simp only [lookup, Option.isSome_or, Bool.or_eq_true] at hsome ⊢
  cases hput : putOf event with
  | none =>
      obtain ⟨htags, hmanifests⟩ := manifests_of_step h hput
      rwa [htags, hmanifests]
  | some put =>
      obtain ⟨_, _, _, _, _, _, rfl⟩ := step_of_putOf h hput
      exact hsome.imp (hupdate _ _ _) (hupdate _ _ _)

/-- A reference that some exchange found absent was absent before. -/
theorem lookup_eq_none_of_notFound (h : Follows (Step X.toCrates applied) before trace after)
    {reference : String} {response : Response} (hstatus : response.status = 404)
    (hmem : (Request.getManifest reference, Except.ok response) ∈ trace) :
    before.lookup reference = none := by
  obtain ⟨first, rest, rfl⟩ := List.append_of_mem hmem
  obtain ⟨middle, hfirst, next, hstep, _⟩ := Program.follows_append.mp h
  have hnone : middle.lookup reference = none := by
    simp only [Step, hstatus, show isSuccess 404 = false from rfl] at hstep
    exact hstep.2 rfl
  by_contra hsome
  have hmiddle : (middle.lookup reference).isSome = true :=
    hfirst.invariant (I := fun s => (s.lookup reference).isSome = true)
      (Option.isSome_iff_ne_none.mpr hsome) fun s event s' _ hs => lookup_isSome_of_step hs
  simp [hnone] at hmiddle

theorem step_answer (hcreated : applied 201 = true) (registry : Registry) (request : Request) :
    Step X.toCrates applied registry (request, (registry.answer X.toCrates request).1)
      (registry.answer X.toCrates request).2 := by
  have hcarries : ∀ body : Bytes, Carries ⟨200, [], [.ok body]⟩ body :=
    fun body => ⟨[body], rfl, by simp⟩
  cases request with
  | getManifest reference =>
      cases hlookup : registry.lookup reference with
      | none => simp [answer, serve, reply, Step, hlookup, isSuccess, MayRefuse]
      | some body =>
          simp [answer, serve, reply, Step, hlookup, isSuccess, Performs, hcarries]
  | getBlob digest =>
      cases hlookup : registry.blobs digest with
      | none => simp [answer, serve, reply, Step, hlookup, isSuccess, MayRefuse]
      | some body =>
          simp [answer, serve, reply, Step, hlookup, isSuccess, Performs, hcarries]
  | headBlob digest =>
      cases hlookup : registry.blobs digest with
      | none => simp [answer, reply, Step, hlookup, isSuccess, MayRefuse]
      | some body => simp [answer, reply, Step, hlookup, isSuccess, Performs]
  | putManifest reference contentType condition body =>
      simp only [answer]
      split
      · rename_i hmeets
        simp only [reply, Step, isSuccess, Performs, hcreated]
        simpa [Option.all_eq_true] using hmeets
      · simp [reply, Step, isSuccess, MayRefuse]
  | postBlob digest body =>
      simp only [answer]
      split
      · rename_i hdigest
        simp [reply, Step, isSuccess, Performs, hdigest]
      · simp [reply, Step, isSuccess, MayRefuse]
  | putUpload session digest body =>
      simp only [answer]
      split
      · rename_i hdigest
        simp [reply, Step, isSuccess, Performs, hdigest]
      · simp [reply, Step, isSuccess, MayRefuse]
  | deleteBlob digest => simp [answer, reply, Step, isSuccess, Performs]
  | postUpload => simp [answer, Step, isSuccess, Performs]
  | deleteUpload session => simp [answer, reply, Step, isSuccess, Performs]
  | refreshToken challenge => simp [answer, reply, Step, isSuccess, Performs]

end Registry

end NixCache.Oci

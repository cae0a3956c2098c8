import Mathlib.Data.List.Forall2
import Mathlib.Logic.Unique
/-!
# `Result` in do-notation

`Except` models `Result`.  The lemmas invert a computation that returned `Ok`: through `?`,
through a guard, through a checking loop and through `collect`.
-/

namespace NixCache.Lib.Result

variable {ε ε' α β : Type}

/-- `if !p { return Err(error) }`. -/
def ensure (p : Prop) [Decidable p] (error : ε) : Except ε Unit :=
  if p then .ok () else .error error

@[simp] theorem ensure_eq_ok {p : Prop} [Decidable p] {error : ε} {u : Unit} :
    ensure p error = .ok u ↔ p := by
  unfold ensure
  split <;> simp_all

theorem ensure_of {p : Prop} [Decidable p] (error : ε) (h : p) : ensure p error = .ok () := by
  simp [h]

/-- `Result::map_err`. -/
def mapErr (f : ε → ε') : Except ε α → Except ε' α
  | .ok value => .ok value
  | .error error => .error (f error)

@[simp] theorem mapErr_eq_ok {f : ε → ε'} {x : Except ε α} {value : α} :
    mapErr f x = .ok value ↔ x = .ok value := by
  cases x <;> simp [mapErr]

/-- `Option::ok_or`. -/
def okOr (error : ε) : Option α → Except ε α
  | some value => .ok value
  | none => .error error

@[simp] theorem okOr_eq_ok {error : ε} {x : Option α} {value : α} :
    okOr error x = .ok value ↔ x = some value := by
  cases x <;> simp [okOr]

@[simp] theorem bind_eq_ok {x : Except ε α} {f : α → Except ε β} {b : β} :
    x >>= f = .ok b ↔ ∃ a, x = .ok a ∧ f a = .ok b := by
  cases x with
  | error error => simp [bind, Except.bind]
  | ok value => simp [bind, Except.bind]

@[simp] theorem pure_eq_ok {a b : α} : (pure a : Except ε α) = .ok b ↔ a = b := by
  simp [pure, Except.pure]

@[simp] theorem map_eq_ok {x : Except ε α} {f : α → β} {b : β} :
    f <$> x = .ok b ↔ ∃ a, x = .ok a ∧ f a = b := by
  cases x <;> simp [Functor.map, Except.map]

/-! ## Errors -/

theorem mapErr_eq_error {f : ε → ε'} {x : Except ε α} {error : ε'} :
    mapErr f x = .error error ↔ ∃ e, x = .error e ∧ f e = error := by
  cases x <;> simp [mapErr]

theorem bind_eq_error {x : Except ε α} {f : α → Except ε β} {error : ε} :
    x >>= f = .error error ↔ x = .error error ∨ ∃ a, x = .ok a ∧ f a = .error error := by
  cases x with
  | error error => simp [bind, Except.bind]
  | ok value => simp [bind, Except.bind]

theorem map_eq_error {x : Except ε α} {f : α → β} {error : ε} :
    f <$> x = .error error ↔ x = .error error := by
  cases x <;> simp [Functor.map, Except.map]

/-! ## Loops -/

/-- A loop that only checks: `for x in xs { check(x)? }`. -/
def checkAll (check : α → Except ε Unit) : List α → Except ε Unit
  | [] => .ok ()
  | x :: xs => do
      check x
      checkAll check xs

@[simp] theorem checkAll_eq_ok {check : α → Except ε Unit} {xs : List α} {u : Unit} :
    checkAll check xs = .ok u ↔ ∀ x ∈ xs, check x = .ok () := by
  induction xs with
  | nil => simp [checkAll]
  | cons x xs ih => simp [checkAll, ih, Unique.exists_iff]

/-- `iter().map(f).collect::<Result<Vec<_>, _>>()`. -/
def collect (f : α → Except ε β) : List α → Except ε (List β)
  | [] => .ok []
  | x :: xs => do
      let y ← f x
      let ys ← collect f xs
      pure (y :: ys)

@[simp] theorem collect_eq_ok {f : α → Except ε β} {xs : List α} {ys : List β} :
    collect f xs = .ok ys ↔ List.Forall₂ (fun x y => f x = .ok y) xs ys := by
  induction xs generalizing ys with
  | nil => simp [collect, eq_comm]
  | cons x xs ih =>
      cases ys with
      | nil => simp [collect]
      | cons y ys => simp [collect, ih]

theorem collect_mem {f : α → Except ε β} {xs : List α} {ys : List β} (h : collect f xs = .ok ys)
    {x : α} (hx : x ∈ xs) : ∃ y ∈ ys, f x = .ok y := by
  rw [collect_eq_ok] at h
  induction h with
  | nil => simp at hx
  | cons hhead _ ih =>
      rcases List.mem_cons.mp hx with rfl | hx
      · exact ⟨_, by simp, hhead⟩
      · obtain ⟨y, hy, hf⟩ := ih hx
        exact ⟨y, by simp [hy], hf⟩

theorem exists_of_mem_collect {f : α → Except ε β} {xs : List α} {ys : List β}
    (h : collect f xs = .ok ys) {y : β} (hy : y ∈ ys) : ∃ x ∈ xs, f x = .ok y := by
  rw [collect_eq_ok] at h
  induction h with
  | nil => simp at hy
  | cons hhead _ ih =>
      rcases List.mem_cons.mp hy with rfl | hy
      · exact ⟨_, by simp, hhead⟩
      · obtain ⟨x, hx, hf⟩ := ih hy
        exact ⟨x, by simp [hx], hf⟩

theorem collect_of_map {f : α → Except ε β} {g : α → β} {xs : List α}
    (h : ∀ x ∈ xs, f x = .ok (g x)) : collect f xs = .ok (xs.map g) := by
  rw [collect_eq_ok, List.forall₂_map_right_iff, List.forall₂_same]
  exact h

/-- A loop over `xs` that threads a state and may fail. -/
def foldM (f : β → α → Except ε β) : β → List α → Except ε β
  | acc, [] => .ok acc
  | acc, x :: xs => do
      let acc ← f acc x
      foldM f acc xs

/-! ## Functions on `&mut self` -/

/-- `fn(&mut self) -> Result<_, ε>`: an error leaves the state as it was at the `?`. -/
abbrev Mutating (ε σ : Type) := ExceptT ε (StateM σ)

namespace Mutating

variable {σ : Type}

theorem run_ofExcept (x : Except ε α) (state : σ) :
    (ofExcept x : Mutating ε σ α).run.run state = (x, state) := by
  cases x with
  | error error => rfl
  | ok value => rfl

theorem run_ofExcept_bind (x : Except ε α) (f : α → Mutating ε σ β) (state : σ) :
    ((ofExcept x : Mutating ε σ α) >>= f).run.run state =
      match x with
      | .error error => (.error error, state)
      | .ok value => (f value).run.run state := by
  cases x with
  | error error => rfl
  | ok value => rfl

theorem run_get_bind (f : σ → Mutating ε σ β) (state : σ) :
    ((get : Mutating ε σ σ) >>= f).run.run state = (f state).run.run state := rfl

theorem run_modify_bind (g : σ → σ) (f : Unit → Mutating ε σ β) (state : σ) :
    ((modify g : Mutating ε σ Unit) >>= f).run.run state = (f ()).run.run (g state) := rfl

end Mutating

end NixCache.Lib.Result

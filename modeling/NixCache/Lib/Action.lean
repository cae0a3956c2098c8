import NixCache.Lib.Program
/-!
# Programs that may fail

An `Action` is a program with an `Except` result.  Its lemmas take a run apart along do-notation:
what ran first, what ran then, and where it stopped.
-/

namespace NixCache.Lib

open Program (Trace Follows Played)

/-- A program whose result may be a failure. -/
structure Action (ι ρ ε α : Type) : Type 1 where
  body : Program ι ρ (Except ε α)

namespace Action

variable {ι ρ ε ε' α β σ : Type}

def ofExcept (result : Except ε α) : Action ι ρ ε α := ⟨.ret result⟩

def request (question : ι) : Action ι ρ ε ρ := ⟨.call question fun reply => .ret (.ok reply)⟩

def andThen (first : Action ι ρ ε α) (next : α → Action ι ρ ε β) : Action ι ρ ε β :=
  ⟨first.body.bind fun
    | .ok value => (next value).body
    | .error error => .ret (.error error)⟩

instance : Monad (Action ι ρ ε) where
  pure value := ⟨.ret (.ok value)⟩
  bind := andThen

/-- The result of an action as a value, for code that matches on it. -/
def attempt (action : Action ι ρ ε α) : Action ι ρ ε' (Except ε α) :=
  ⟨action.body.bind fun result => .ret (.ok result)⟩

/-- `map_err`. -/
def mapErr (f : ε → ε') (action : Action ι ρ ε α) : Action ι ρ ε' α :=
  ⟨action.body.bind fun result => .ret (Result.mapErr f result)⟩

/-- The same action with its requests among those of a larger kind. -/
def embed {κ : Type} (f : ι → κ) (action : Action ι ρ ε α) : Action κ ρ ε α := ⟨action.body.embed f⟩

/-- `futures_util::future::try_join_all`. -/
def tryJoinAll (actions : List (Action ι ρ ε α)) : Action ι ρ ε (List α) :=
  ⟨.join (fun i => (actions.get i).body) .ret⟩

/-- A loop over a list that threads a state. -/
def foldM (f : β → α → Action ι ρ ε β) : β → List α → Action ι ρ ε β
  | state, [] => pure state
  | state, item :: items => do
      let state ← f state item
      foldM f state items

theorem ofExcept_bind_eq {first : Except ε α} {value : α} {next : α → Action ι ρ ε β}
    (h : first = .ok value) : ofExcept first >>= next = next value := by
  rw [h]
  rfl

theorem ofExcept_bind_eq_error {first : Except ε α} {error : ε} {next : α → Action ι ρ ε β}
    (h : first = .error error) : ofExcept first >>= next = ofExcept (.error error) := by
  rw [h]
  rfl

/-! ## Runs -/

/-- The action can exchange this trace and end with `result`. -/
def Runs (action : Action ι ρ ε α) (trace : Trace ι ρ) (result : Except ε α) : Prop :=
  Program.Exec action.body trace result

variable {trace : Trace ι ρ} {result : Except ε α}

@[simp] theorem runs_pure {value : α} :
    Runs (pure value : Action ι ρ ε α) trace result ↔ trace = [] ∧ result = .ok value :=
  Iff.rfl

@[simp] theorem runs_ofExcept {value : Except ε α} :
    Runs (ofExcept value : Action ι ρ ε α) trace result ↔ trace = [] ∧ result = value :=
  Iff.rfl

@[simp] theorem runs_request {question : ι} {result : Except ε ρ} :
    Runs (request question) trace result ↔
      ∃ reply, trace = [(question, reply)] ∧ result = .ok reply := by
  constructor
  · rintro ⟨reply, rest, rfl, rfl, rfl⟩
    exact ⟨reply, rfl, rfl⟩
  · rintro ⟨reply, rfl, rfl⟩
    exact ⟨reply, [], rfl, rfl, rfl⟩

theorem runs_bind {first : Action ι ρ ε α} {next : α → Action ι ρ ε β} {result : Except ε β} :
    Runs (first >>= next) trace result ↔
      (∃ before after value, trace = before ++ after ∧ Runs first before (.ok value) ∧
        Runs (next value) after result) ∨
      ∃ error, result = .error error ∧ Runs first trace (.error error) := by
  change Program.Exec (first.body.bind _) trace result ↔ _
  rw [Program.exec_bind]
  constructor
  · rintro ⟨before, after, outcome, rfl, hfirst, hnext⟩
    cases outcome with
    | ok value => exact Or.inl ⟨before, after, value, rfl, hfirst, hnext⟩
    | error error =>
        obtain ⟨rfl, rfl⟩ := hnext
        exact Or.inr ⟨error, rfl, by simpa [Runs] using hfirst⟩
  · rintro (⟨before, after, value, rfl, hfirst, hnext⟩ | ⟨error, rfl, hfirst⟩)
    · exact ⟨before, after, .ok value, rfl, hfirst, hnext⟩
    · exact ⟨trace, [], .error error, by simp, hfirst, rfl, rfl⟩

theorem runs_bind_ok {first : Action ι ρ ε α} {next : α → Action ι ρ ε β} {value : β} :
    Runs (first >>= next) trace (.ok value) ↔
      ∃ before after middle, trace = before ++ after ∧ Runs first before (.ok middle) ∧
        Runs (next middle) after (.ok value) := by
  rw [runs_bind]
  simp

theorem Runs.bind {first : Action ι ρ ε α} {next : α → Action ι ρ ε β} {before after : Trace ι ρ}
    {value : α} {result : Except ε β} (hfirst : Runs first before (.ok value))
    (hnext : Runs (next value) after result) : Runs (first >>= next) (before ++ after) result :=
  runs_bind.mpr (Or.inl ⟨before, after, value, rfl, hfirst, hnext⟩)

theorem Runs.bind_error {first : Action ι ρ ε α} {next : α → Action ι ρ ε β} {error : ε}
    (hfirst : Runs first trace (.error error)) : Runs (first >>= next) trace (.error error) :=
  runs_bind.mpr (Or.inr ⟨error, rfl, hfirst⟩)

theorem Runs.request (question : ι) (reply : ρ) :
    Runs (Action.request question : Action ι ρ ε ρ) [(question, reply)] (.ok reply) :=
  runs_request.mpr ⟨reply, rfl, rfl⟩

theorem Runs.ofExcept_bind {first : Except ε α} {next : α → Action ι ρ ε β} {value : α}
    {result : Except ε β} (hfirst : first = .ok value) (hnext : Runs (next value) trace result) :
    Runs (ofExcept first >>= next) trace result :=
  runs_bind.mpr (Or.inl ⟨[], trace, value, rfl, ⟨rfl, hfirst.symm⟩, hnext⟩)

@[simp] theorem runs_ofExcept_bind_ok {first : Except ε α} {next : α → Action ι ρ ε β} {value : β} :
    Runs (ofExcept first >>= next) trace (.ok value) ↔
      ∃ middle, first = .ok middle ∧ Runs (next middle) trace (.ok value) := by
  rw [runs_bind_ok]
  constructor
  · rintro ⟨before, after, middle, rfl, ⟨rfl, hfirst⟩, hnext⟩
    exact ⟨middle, hfirst.symm, hnext⟩
  · rintro ⟨middle, rfl, hnext⟩
    exact ⟨[], trace, middle, rfl, ⟨rfl, rfl⟩, hnext⟩

/-- One request, and what its reply is read as. -/
theorem runs_request_ofExcept {question : ι} {read : ρ → Except ε α} :
    Runs (request question >>= fun reply => ofExcept (read reply)) trace result ↔
      ∃ reply, trace = [(question, reply)] ∧ result = read reply := by
  rw [runs_bind]
  simp only [runs_request, runs_ofExcept]
  constructor
  · rintro (⟨_, _, reply, rfl, ⟨_, rfl, hreply⟩, rfl, hread⟩ | ⟨_, _, _, _, hreply⟩)
    · cases hreply
      exact ⟨reply, rfl, hread⟩
    · cases hreply
  · rintro ⟨reply, rfl, hread⟩
    exact Or.inl ⟨_, [], reply, by simp, ⟨reply, rfl, rfl⟩, rfl, hread⟩

@[simp] theorem runs_attempt {action : Action ι ρ ε α} {result : Except ε' (Except ε α)} :
    Runs (attempt action) trace result ↔ ∃ outcome, result = .ok outcome ∧ Runs action trace outcome := by
  change Program.Exec (action.body.bind _) trace result ↔ _
  rw [Program.exec_bind]
  constructor
  · rintro ⟨before, after, outcome, rfl, haction, rfl, rfl⟩
    exact ⟨outcome, rfl, by simpa [Runs] using haction⟩
  · rintro ⟨outcome, rfl, haction⟩
    exact ⟨trace, [], outcome, by simp, haction, rfl, rfl⟩

theorem runs_mapErr {f : ε → ε'} {action : Action ι ρ ε α} {result : Except ε' α} :
    Runs (mapErr f action) trace result ↔
      ∃ outcome, result = Result.mapErr f outcome ∧ Runs action trace outcome := by
  change Program.Exec (action.body.bind _) trace result ↔ _
  rw [Program.exec_bind]
  constructor
  · rintro ⟨before, after, outcome, rfl, haction, rfl, rfl⟩
    exact ⟨outcome, rfl, by simpa [Runs] using haction⟩
  · rintro ⟨outcome, rfl, haction⟩
    exact ⟨trace, [], outcome, by simp, haction, rfl, rfl⟩

@[simp] theorem runs_mapErr_ok {f : ε → ε'} {action : Action ι ρ ε α} {value : α} :
    Runs (mapErr f action) trace (.ok value) ↔ Runs action trace (.ok value) := by
  rw [runs_mapErr]
  constructor
  · rintro ⟨outcome, h, haction⟩
    rwa [← Result.mapErr_eq_ok.mp h.symm]
  · intro haction
    exact ⟨.ok value, rfl, haction⟩

theorem Runs.embed {κ : Type} (f : ι → κ) {action : Action ι ρ ε α} (h : Runs action trace result) :
    Runs (Action.embed f action) (trace.map (Prod.map f id)) result :=
  Program.Exec.embed f h

theorem Runs.of_embed {κ : Type} {f : ι → κ} {action : Action ι ρ ε α} {trace : Trace κ ρ}
    (h : Runs (Action.embed f action) trace result) :
    ∃ trace', trace = trace'.map (Prod.map f id) ∧ Runs action trace' result :=
  Program.Exec.of_embed h

/-- Actions that all succeeded each ran a part of the trace, and nothing else ran. -/
theorem runs_tryJoinAll_ok {actions : List (Action ι ρ ε α)} {values : List α}
    (h : Runs (tryJoinAll actions) trace (.ok values)) :
    ∃ traces : Fin actions.length → Trace ι ρ, Interleaves traces trace ∧
      ∃ results : Fin actions.length → α, values = List.ofFn results ∧
        ∀ i, Runs (actions.get i) (traces i) (.ok (results i)) := by
  obtain ⟨first, rest, outcome, rfl, ⟨rfl, houtcome⟩, traces, hinter, hcases⟩ := h
  rcases hcases with ⟨results, hok, hall⟩ | ⟨error, i, herror, _⟩
  · rw [← houtcome, Except.ok.injEq] at hok
    exact ⟨traces, by simpa using hinter, results, hok, hall⟩
  · rw [← houtcome] at herror
    exact absurd herror (by simp)

theorem runs_tryJoinAll_map_ok {γ : Type} {f : γ → Action ι ρ ε α} {items : List γ}
    {values : List α} (h : Runs (tryJoinAll (items.map f)) trace (.ok values)) :
    ∃ results : Fin items.length → α, values = List.ofFn results ∧
      ∀ i, ∃ t, t.Sublist trace ∧ Runs (f (items.get i)) t (.ok (results i)) := by
  obtain ⟨traces, hinter, results, rfl, hruns⟩ := runs_tryJoinAll_ok h
  have hlength : (items.map f).length = items.length := List.length_map f
  refine ⟨fun i => results (i.cast hlength.symm), ?_, fun i => ?_⟩
  · exact List.ofFn_congr hlength results
  · have hrun := hruns (i.cast hlength.symm)
    rw [List.get_eq_getElem, List.getElem_map] at hrun
    exact ⟨_, hinter.sublist _, hrun⟩

/-- The loop keeps what one iteration keeps. -/
theorem runs_foldM_ok {f : β → α → Action ι ρ ε β} {I : List α → β → Prop} {items : List α}
    {start final : β} (h : Runs (foldM f start items) trace (.ok final)) (hstart : I [] start)
    (hstep : ∀ done item state state' t, done ++ [item] <+: items → I done state →
      t.Sublist trace → Runs (f state item) t (.ok state') → I (done ++ [item]) state') :
    I items final := by
  suffices hgen : ∀ (rest done : List α) (state : β) (t : Trace ι ρ), done ++ rest = items →
      t.Sublist trace → I done state → Runs (foldM f state rest) t (.ok final) → I items final from
    hgen items [] start trace rfl (List.Sublist.refl _) hstart h
  intro rest
  induction rest with
  | nil =>
      intro done state t hdone _ hI hruns
      obtain ⟨_, hfinal⟩ := hruns
      rw [← Except.ok.inj hfinal] at hI
      rwa [← hdone, List.append_nil]
  | cons item rest ih =>
      intro done state t hdone hsub hI hruns
      obtain ⟨before, after, state', rfl, hitem, hrest⟩ := runs_bind_ok.mp hruns
      have hbefore := (List.sublist_append_left before after).trans hsub
      have hafter := (List.sublist_append_right before after).trans hsub
      exact ih (done ++ [item]) state' after (by rw [List.append_assoc]; exact hdone) hafter
        (hstep done item state state' before ⟨rest, by rw [List.append_assoc]; exact hdone⟩ hI
          hbefore hitem) hrest

/-- A loop that has nothing to do. -/
theorem Runs.foldM_pure {f : β → α → Action ι ρ ε β} {items : List α} {state : β}
    (h : ∀ item ∈ items, f state item = pure state) :
    Runs (Action.foldM f state items) [] (.ok state) := by
  induction items with
  | nil => exact ⟨rfl, rfl⟩
  | cons item items ih =>
      rw [List.forall_mem_cons] at h
      unfold Action.foldM
      rw [h.1]
      exact ih h.2

theorem Runs.foldM_append {f : β → α → Action ι ρ ε β} {first rest : List α} {state middle : β}
    {before after : Trace ι ρ} {result : Except ε β}
    (hfirst : Runs (Action.foldM f state first) before (.ok middle))
    (hrest : Runs (Action.foldM f middle rest) after result) :
    Runs (Action.foldM f state (first ++ rest)) (before ++ after) result := by
  induction first generalizing state before with
  | nil =>
      obtain ⟨rfl, hmiddle⟩ := hfirst
      rwa [Except.ok.inj hmiddle] at hrest
  | cons item items ih =>
      obtain ⟨one, more, next, rfl, hitem, hitems⟩ := runs_bind_ok.mp hfirst
      rw [List.append_assoc]
      exact Runs.bind hitem (ih hitems)

/-! ## Requests among others -/

section

variable {κ : Type} (f : ι → κ)

@[simp] theorem embed_pure (value : α) :
    embed f (pure value : Action ι ρ ε α) = pure value := rfl

@[simp] theorem embed_ofExcept (value : Except ε α) :
    embed f (ofExcept value : Action ι ρ ε α) = ofExcept value := rfl

@[simp] theorem embed_request (question : ι) :
    embed f (request question : Action ι ρ ε ρ) = request (f question) := rfl

@[simp] theorem embed_bind (first : Action ι ρ ε α) (next : α → Action ι ρ ε β) :
    embed f (first >>= next) = embed f first >>= fun value => embed f (next value) := by
  refine congrArg mk ((Program.embed_bind f first.body _).trans ?_)
  refine congrArg (Program.bind _) (funext fun result => ?_)
  cases result with
  | ok value => rfl
  | error error => rfl

@[simp] theorem embed_attempt (action : Action ι ρ ε α) :
    embed f (attempt action : Action ι ρ ε' _) = attempt (embed f action) :=
  congrArg mk (Program.embed_bind f action.body _)

end

/-! ## Requests that are sent -/

/-- Only requests in `Q` are ever sent. -/
def Only (Q : ι → Prop) (action : Action ι ρ ε α) : Prop := Program.Only Q action.body

theorem Only.forall_mem {Q : ι → Prop} {action : Action ι ρ ε α} (h : Only Q action)
    (hruns : Runs action trace result) : ∀ event ∈ trace, Q event.1 :=
  Program.Only.forall_mem h hruns

variable {Q : ι → Prop}

@[simp] theorem only_pure (value : α) : Only Q (pure value : Action ι ρ ε α) := trivial

@[simp] theorem only_ofExcept (value : Except ε α) : Only Q (ofExcept value : Action ι ρ ε α) :=
  trivial

@[simp] theorem only_request {question : ι} :
    Only Q (request question : Action ι ρ ε ρ) ↔ Q question :=
  ⟨fun h => h.1, fun h => ⟨h, fun _ => trivial⟩⟩

theorem only_of_forall (h : ∀ request, Q request) (action : Action ι ρ ε α) : Only Q action :=
  Program.only_of_forall h action.body

theorem Only.mono {Q' : ι → Prop} {action : Action ι ρ ε α} (h : Only Q action)
    (hQ : ∀ request, Q request → Q' request) : Only Q' action :=
  Program.Only.mono h hQ

theorem only_bind {first : Action ι ρ ε α} {next : α → Action ι ρ ε β} (hfirst : Only Q first)
    (hnext : ∀ value, Only Q (next value)) : Only Q (first >>= next) :=
  Program.only_bind hfirst fun
    | .ok value => hnext value
    | .error _ => trivial

theorem only_ofExcept_bind {first : Except ε α} {next : α → Action ι ρ ε β}
    (hnext : ∀ value, Only Q (next value)) : Only Q (ofExcept first >>= next) :=
  only_bind (only_ofExcept first) hnext

theorem only_attempt {action : Action ι ρ ε α} (h : Only Q action) :
    Only Q (attempt action : Action ι ρ ε' _) :=
  Program.only_bind h fun _ => trivial

theorem only_mapErr {f : ε → ε'} {action : Action ι ρ ε α} (h : Only Q action) :
    Only Q (mapErr f action) :=
  Program.only_bind h fun _ => trivial

theorem only_embed {κ : Type} {f : ι → κ} {Q : κ → Prop} {action : Action ι ρ ε α}
    (h : Only (fun request => Q (f request)) action) : Only Q (embed f action) :=
  Program.only_embed h

theorem only_tryJoinAll {actions : List (Action ι ρ ε α)} (h : ∀ action ∈ actions, Only Q action) :
    Only Q (tryJoinAll actions) :=
  ⟨fun i => h _ (List.get_mem actions i), fun _ => trivial⟩

theorem only_foldM {f : β → α → Action ι ρ ε β} (h : ∀ state item, Only Q (f state item))
    (state : β) (items : List α) : Only Q (foldM f state items) := by
  induction items generalizing state with
  | nil => exact only_pure state
  | cons item items ih => exact only_bind (h state item) ih

/-! ## The first request -/

/-- Every run begins with this request. -/
def Begins (question : ι) (action : Action ι ρ ε α) : Prop :=
  ∀ trace result, Runs action trace result → ∃ reply rest, trace = (question, reply) :: rest

theorem begins_request (question : ι) : Begins question (request question : Action ι ρ ε ρ) := by
  intro trace result h
  obtain ⟨reply, rfl, _⟩ := runs_request.mp h
  exact ⟨reply, [], rfl⟩

theorem Begins.bind {question : ι} {first : Action ι ρ ε α} (h : Begins question first)
    (next : α → Action ι ρ ε β) : Begins question (first >>= next) := by
  intro trace result hruns
  rcases runs_bind.mp hruns with ⟨before, after, value, rfl, hfirst, _⟩ | ⟨error, _, hfirst⟩
  · obtain ⟨reply, rest, rfl⟩ := h _ _ hfirst
    exact ⟨reply, rest ++ after, rfl⟩
  · exact h _ _ hfirst

theorem Begins.ofExcept_bind {question : ι} {first : Except ε α} {value : α}
    {next : α → Action ι ρ ε β} (hfirst : first = .ok value) (hnext : Begins question (next value)) :
    Begins question (ofExcept first >>= next) := by
  rw [ofExcept_bind_eq hfirst]
  exact hnext

/-! ## Evaluation -/

/-- The result against an environment without state. -/
def eval (answer : ι → ρ) (action : Action ι ρ ε α) : Except ε α := Program.eval answer action.body

variable (answer : ι → ρ)

@[simp] theorem eval_pure (value : α) : eval answer (pure value : Action ι ρ ε α) = .ok value := rfl

@[simp] theorem eval_ofExcept (value : Except ε α) :
    eval answer (ofExcept value : Action ι ρ ε α) = value := rfl

@[simp] theorem eval_request (question : ι) :
    eval answer (request question : Action ι ρ ε ρ) = .ok (answer question) := rfl

@[simp] theorem eval_bind (first : Action ι ρ ε α) (next : α → Action ι ρ ε β) :
    eval answer (first >>= next) = eval answer first >>= fun value => eval answer (next value) := by
  change Program.eval answer (first.body.bind _) = _
  rw [Program.eval_bind]
  unfold eval
  cases Program.eval answer first.body with
  | ok value => rfl
  | error error => rfl

@[simp] theorem eval_attempt (action : Action ι ρ ε α) :
    eval answer (attempt action : Action ι ρ ε' _) = .ok (eval answer action) :=
  Program.eval_bind answer action.body _

@[simp] theorem eval_mapErr (f : ε → ε') (action : Action ι ρ ε α) :
    eval answer (mapErr f action) = Result.mapErr f (eval answer action) :=
  Program.eval_bind answer action.body _

@[simp] theorem eval_embed {κ : Type} (f : ι → κ) (answer : κ → ρ) (action : Action ι ρ ε α) :
    eval answer (embed f action) = eval (fun request => answer (f request)) action :=
  Program.eval_embed f answer action.body

theorem runs_eval (action : Action ι ρ ε α) : ∃ trace, Runs action trace (eval answer action) :=
  Program.exec_eval answer action.body

/-! ## Playing against an environment with state -/

def play (answer : σ → ι → ρ × σ) (action : Action ι ρ ε α) (state : σ) :
    Played ι ρ σ (Except ε α) :=
  Program.play answer action.body state

theorem runs_play (answer : σ → ι → ρ × σ) (action : Action ι ρ ε α) (state : σ) :
    Runs action (play answer action state).trace (play answer action state).result :=
  Program.exec_play answer action.body state

/-- From `before`, a run against this environment returns `result` and leaves `after`. -/
def Plays (answer : σ → ι → ρ × σ) (action : Action ι ρ ε α) (before : σ) (result : Except ε α)
    (after : σ) : Prop :=
  (play answer action before).result = result ∧ (play answer action before).state = after

namespace Plays

variable {answer : σ → ι → ρ × σ} {before middle after : σ}

theorem pure (value : α) :
    Plays answer (Pure.pure value : Action ι ρ ε α) before (.ok value) before := ⟨rfl, rfl⟩

theorem ofExcept (result : Except ε α) :
    Plays answer (Action.ofExcept result : Action ι ρ ε α) before result before := ⟨rfl, rfl⟩

theorem request {question : ι} {reply : ρ} (h : answer before question = (reply, after)) :
    Plays answer (Action.request question : Action ι ρ ε ρ) before (.ok reply) after := by
  unfold Plays play
  change Except.ok (answer before question).1 = _ ∧ (answer before question).2 = _
  rw [h]
  exact ⟨rfl, rfl⟩

theorem bind {first : Action ι ρ ε α} {next : α → Action ι ρ ε β} {value : α}
    {result : Except ε β} (hfirst : Plays answer first before (.ok value) middle)
    (hnext : Plays answer (next value) middle result after) :
    Plays answer (first >>= next) before result after := by
  unfold Plays play at hfirst hnext ⊢
  change (Program.play answer (first.body.bind _) before).result = _ ∧
    (Program.play answer (first.body.bind _) before).state = _
  rw [Program.play_bind]
  dsimp only
  rw [hfirst.1, hfirst.2]
  exact hnext

theorem attempt {action : Action ι ρ ε α} {result : Except ε α}
    (h : Plays answer action before result after) :
    Plays answer (Action.attempt action : Action ι ρ ε' _) before (.ok result) after := by
  unfold Plays play at h ⊢
  change (Program.play answer (action.body.bind _) before).result = _ ∧
    (Program.play answer (action.body.bind _) before).state = _
  rw [Program.play_bind]
  exact ⟨congrArg Except.ok h.1, h.2⟩

/-- An action that leaves the state as it is. -/
theorem of_only {Q : ι → Prop} {view : ι → ρ}
    (hanswer : ∀ request, Q request → answer before request = (view request, before))
    {action : Action ι ρ ε α} (h : Only Q action) :
    Plays answer action before (eval view action) before :=
  Program.play_of_only hanswer h

/-- What is played is a run, and it keeps to what each answer keeps to. -/
theorem exists_runs {step : σ → ι × ρ → σ → Prop} {action : Action ι ρ ε α} {result : Except ε α}
    (h : Plays answer action before result after)
    (hanswer : ∀ state request, step state (request, (answer state request).1)
      (answer state request).2) :
    ∃ trace, Runs action trace result ∧ Program.Follows step before trace after := by
  refine ⟨(play answer action before).trace, ?_, ?_⟩
  · exact h.1 ▸ runs_play answer action before
  · exact h.2 ▸ Program.follows_play hanswer action.body before

end Plays

end Action

end NixCache.Lib

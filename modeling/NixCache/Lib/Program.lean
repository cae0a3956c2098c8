import NixCache.Lib.Result
import Mathlib.Data.List.OfFn
/-!
# Programs that exchange requests for replies

A program asks its environment one request at a time, and may run several programs concurrently.
`Exec` gives the traces of a program against an environment that may reply anything; `eval` and
`play` run it against one environment.  An `Action` is a program that may fail, and `tryJoinAll`
runs actions concurrently until all have succeeded or one has failed.
-/

namespace NixCache.Lib

/-- Programs over requests `ι` and replies `ρ`. -/
inductive Program (ι ρ : Type) : Type → Type 1 where
  | ret {α : Type} (value : α) : Program ι ρ α
  | call {α : Type} (request : ι) (next : ρ → Program ι ρ α) : Program ι ρ α
  | join {α β ε : Type} {n : Nat} (parts : Fin n → Program ι ρ (Except ε β))
      (next : Except ε (List β) → Program ι ρ α) : Program ι ρ α

/-! ## Interleavings -/

/-- `whole` is an interleaving of `parts`. -/
def Interleaves {n : Nat} {α : Type} (parts : Fin n → List α) (whole : List α) : Prop :=
  ∃ tagged : List (Fin n × α), tagged.map Prod.snd = whole ∧
    ∀ i, (tagged.filter fun item => item.1 = i).map Prod.snd = parts i

namespace Interleaves

variable {n : Nat} {α : Type}

theorem sublist {parts : Fin n → List α} {whole : List α} (h : Interleaves parts whole)
    (i : Fin n) : (parts i).Sublist whole := by
  obtain ⟨tagged, rfl, hparts⟩ := h
  rw [← hparts i]
  exact List.filter_sublist.map Prod.snd

theorem exists_mem {parts : Fin n → List α} {whole : List α} (h : Interleaves parts whole) {x : α}
    (hx : x ∈ whole) : ∃ i, x ∈ parts i := by
  obtain ⟨tagged, rfl, hparts⟩ := h
  obtain ⟨item, hitem, rfl⟩ := List.mem_map.mp hx
  refine ⟨item.1, ?_⟩
  rw [← hparts item.1]
  exact List.mem_map.mpr ⟨item, List.mem_filter.mpr ⟨hitem, by simp⟩, rfl⟩

theorem nil (parts : Fin 0 → List α) : Interleaves parts [] :=
  ⟨[], rfl, fun i => i.elim0⟩

/-- The first part may run before all others. -/
theorem cons {parts : Fin (n + 1) → List α} {rest : List α}
    (h : Interleaves (fun i => parts i.succ) rest) : Interleaves parts (parts 0 ++ rest) := by
  obtain ⟨tagged, rfl, hparts⟩ := h
  refine ⟨(parts 0).map (fun x => (0, x)) ++ tagged.map fun item => (item.1.succ, item.2), ?_, ?_⟩
  · simp [Function.comp_def]
  · intro i
    cases i using Fin.cases with
    | zero => simp [List.filter_map, Function.comp_def]
    | succ i =>
        have hzero : ¬ (0 : Fin (n + 1)) = i.succ := Ne.symm (Fin.succ_ne_zero i)
        simp [List.filter_map, Function.comp_def, hzero, hparts i]

theorem exists_of_parts (parts : Fin n → List α) : ∃ whole, Interleaves parts whole := by
  induction n with
  | zero => exact ⟨[], nil parts⟩
  | succ n ih =>
      obtain ⟨rest, hrest⟩ := ih fun i => parts i.succ
      exact ⟨_, cons hrest⟩

theorem map {β : Type} (g : α → β) {parts : Fin n → List α} {whole : List α}
    (h : Interleaves parts whole) : Interleaves (fun i => (parts i).map g) (whole.map g) := by
  obtain ⟨tagged, rfl, hparts⟩ := h
  refine ⟨tagged.map fun item => (item.1, g item.2), by simp [Function.comp_def], fun i => ?_⟩
  simp [← hparts i, List.filter_map, Function.comp_def]

/-- An interleaving of images is the image of an interleaving. -/
theorem of_map {β : Type} {g : β → α} {parts : Fin n → List β} {whole : List α}
    (h : Interleaves (fun i => (parts i).map g) whole) :
    ∃ whole', whole = whole'.map g ∧ Interleaves parts whole' := by
  obtain ⟨tagged, rfl, hparts⟩ := h
  induction tagged generalizing parts with
  | nil =>
      refine ⟨[], rfl, [], rfl, fun i => ?_⟩
      exact (List.map_eq_nil_iff.mp (hparts i).symm).symm
  | cons item tagged ih =>
      obtain ⟨i, x⟩ := item
      have hi := hparts i
      simp only [List.filter_cons, decide_true, if_true, List.map_cons] at hi
      obtain ⟨y, rest, hcons, rfl, hrest⟩ := List.map_eq_cons_iff.mp hi.symm
      have hothers : ∀ j, (tagged.filter fun item => item.1 = j).map Prod.snd =
          (Function.update parts i rest j).map g := by
        intro j
        by_cases hj : j = i
        · subst hj
          rw [Function.update_self, hrest]
        · have hparts := hparts j
          rw [List.filter_cons_of_neg (by simpa using Ne.symm hj)] at hparts
          rw [Function.update_of_ne hj, hparts]
      obtain ⟨whole', hwhole, tagged', rfl, htagged⟩ := ih hothers
      refine ⟨y :: tagged'.map Prod.snd, by simp [hwhole], (i, y) :: tagged', rfl, fun j => ?_⟩
      have htagged := htagged j
      by_cases hj : j = i
      · subst hj
        rw [Function.update_self] at htagged
        simp [htagged, hcons]
      · rw [Function.update_of_ne hj] at htagged
        rw [List.filter_cons_of_neg (by simpa using Ne.symm hj), htagged]

end Interleaves

/-! ## Traces -/

namespace Program

variable {ι ρ α β ε σ : Type}

/-- The requests of a run with their replies, in order. -/
abbrev Trace (ι ρ : Type) := List (ι × ρ)

/-- The program can exchange exactly this trace and return `result`.  When a part of a `join`
fails, the other parts are dropped wherever they are. -/
def Exec : {α : Type} → Program ι ρ α → Trace ι ρ → α → Prop
  | _, ret value, trace, result => trace = [] ∧ result = value
  | _, call request next, trace, result =>
      ∃ reply rest, trace = (request, reply) :: rest ∧ Exec (next reply) rest result
  | _, join parts next, trace, result =>
      ∃ first rest outcome, trace = first ++ rest ∧ Exec (next outcome) rest result ∧
        ∃ traces, Interleaves traces first ∧
          ((∃ values, outcome = .ok (List.ofFn values) ∧
              ∀ i, Exec (parts i) (traces i) (.ok (values i))) ∨
            ∃ error i, outcome = .error error ∧ Exec (parts i) (traces i) (.error error) ∧
              ∀ j, ∃ more last, Exec (parts j) (traces j ++ more) last)

/-- Only requests in `Q` are ever sent. -/
def Only (Q : ι → Prop) : {α : Type} → Program ι ρ α → Prop
  | _, ret _ => True
  | _, call request next => Q request ∧ ∀ reply, Only Q (next reply)
  | _, join parts next => (∀ i, Only Q (parts i)) ∧ ∀ outcome, Only Q (next outcome)

/-- The first failure, else all values. -/
def outcomeOf {n : Nat} (results : Fin n → Except ε β) : Except ε (List β) :=
  Result.collect id (List.ofFn results)

/-- The result against an environment without state. -/
def eval (answer : ι → ρ) : {α : Type} → Program ι ρ α → α
  | _, ret value => value
  | _, call request next => eval answer (next (answer request))
  | _, join parts next => eval answer (next (outcomeOf fun i => eval answer (parts i)))

/-- What a run against an environment with state `σ` exchanged, returned and left behind. -/
structure Played (ι ρ σ α : Type) where
  trace : Trace ι ρ
  result : α
  state : σ

/-- The parts run one after the other; the first failure stops them. -/
def playAll : {n : Nat} → (Fin n → σ → Played ι ρ σ (Except ε β)) → σ →
    Played ι ρ σ (Except ε (List β))
  | 0, _, state => ⟨[], .ok [], state⟩
  | _ + 1, parts, state =>
      let first := parts 0 state
      match first.result with
      | .error error => ⟨first.trace, .error error, first.state⟩
      | .ok value =>
          let others := playAll (fun i => parts i.succ) first.state
          ⟨first.trace ++ others.trace, others.result.map (value :: ·), others.state⟩

/-- A run against an environment with state; the parts of a `join` run in order. -/
def play (answer : σ → ι → ρ × σ) : {α : Type} → Program ι ρ α → σ → Played ι ρ σ α
  | _, ret value, state => ⟨[], value, state⟩
  | _, call request next, state =>
      let (reply, state) := answer state request
      let rest := play answer (next reply) state
      ⟨(request, reply) :: rest.trace, rest.result, rest.state⟩
  | _, join parts next, state =>
      let first := playAll (fun i => play answer (parts i)) state
      let rest := play answer (next first.result) first.state
      ⟨first.trace ++ rest.trace, rest.result, rest.state⟩

def bind : {α : Type} → Program ι ρ α → (α → Program ι ρ β) → Program ι ρ β
  | _, ret value, f => f value
  | _, call request next, f => call request fun reply => bind (next reply) f
  | _, join parts next, f => join parts fun outcome => bind (next outcome) f

/-- The same program with its requests among those of a larger kind. -/
def embed {κ : Type} (f : ι → κ) : {α : Type} → Program ι ρ α → Program κ ρ α
  | _, ret value => ret value
  | _, call request next => call (f request) fun reply => embed f (next reply)
  | _, join parts next => join (fun i => embed f (parts i)) fun outcome => embed f (next outcome)

theorem exec_bind {p : Program ι ρ α} {f : α → Program ι ρ β} {trace : Trace ι ρ} {result : β} :
    Exec (p.bind f) trace result ↔
      ∃ first rest value, trace = first ++ rest ∧ Exec p first value ∧ Exec (f value) rest result := by
  induction p generalizing trace with
  | ret value =>
      simp only [bind, Exec]
      constructor
      · intro h
        exact ⟨[], trace, value, rfl, ⟨rfl, rfl⟩, h⟩
      · rintro ⟨first, rest, value', rfl, ⟨rfl, rfl⟩, h⟩
        exact h
  | call request next ih =>
      simp only [bind, Exec, ih]
      constructor
      · rintro ⟨reply, tail, rfl, first, rest, value, rfl, hp, hf⟩
        exact ⟨(request, reply) :: first, rest, value, rfl, ⟨reply, first, rfl, hp⟩, hf⟩
      · rintro ⟨first, rest, value, rfl, ⟨reply, tail, rfl, hp⟩, hf⟩
        exact ⟨reply, tail ++ rest, rfl, tail, rest, value, rfl, hp, hf⟩
  | join parts next ihparts ih =>
      simp only [bind, Exec, ih]
      constructor
      · rintro ⟨first, tail, outcome, rfl, ⟨middle, rest, value, rfl, hp, hf⟩, hjoin⟩
        exact ⟨first ++ middle, rest, value, by rw [List.append_assoc],
          ⟨first, middle, outcome, rfl, hp, hjoin⟩, hf⟩
      · rintro ⟨whole, rest, value, rfl, ⟨first, middle, outcome, rfl, hp, hjoin⟩, hf⟩
        exact ⟨first, middle ++ rest, outcome, by rw [List.append_assoc],
          ⟨middle, rest, value, rfl, hp, hf⟩, hjoin⟩

theorem only_bind {Q : ι → Prop} {p : Program ι ρ α} {f : α → Program ι ρ β} (hp : Only Q p)
    (hf : ∀ value, Only Q (f value)) : Only Q (p.bind f) := by
  induction p with
  | ret value => exact hf value
  | call request next ih => exact ⟨hp.1, fun reply => ih reply (hp.2 reply) hf⟩
  | join parts next _ ih => exact ⟨hp.1, fun outcome => ih outcome (hp.2 outcome) hf⟩

theorem Only.mono {Q Q' : ι → Prop} {p : Program ι ρ α} (hp : Only Q p)
    (h : ∀ request, Q request → Q' request) : Only Q' p := by
  induction p with
  | ret value => trivial
  | call request next ih => exact ⟨h _ hp.1, fun reply => ih reply (hp.2 reply)⟩
  | join parts next ihparts ih =>
      exact ⟨fun i => ihparts i (hp.1 i), fun outcome => ih outcome (hp.2 outcome)⟩

theorem only_of_forall {Q : ι → Prop} (h : ∀ request, Q request) (p : Program ι ρ α) : Only Q p := by
  induction p with
  | ret value => trivial
  | call request next ih => exact ⟨h request, ih⟩
  | join parts next ihparts ih => exact ⟨ihparts, ih⟩

/-- Whatever the replies, a trace of the program holds only such requests. -/
theorem Only.forall_mem {Q : ι → Prop} {p : Program ι ρ α} (hp : Only Q p) {trace : Trace ι ρ}
    {result : α} (h : Exec p trace result) : ∀ event ∈ trace, Q event.1 := by
  induction p generalizing trace with
  | ret value =>
      rw [h.1]
      simp
  | call request next ih =>
      obtain ⟨reply, rest, rfl, hrest⟩ := h
      intro event hevent
      rcases List.mem_cons.mp hevent with rfl | hevent
      · exact hp.1
      · exact ih reply (hp.2 reply) hrest event hevent
  | join parts next ihparts ih =>
      obtain ⟨first, rest, outcome, rfl, hrest, traces, hinter, hparts⟩ := h
      intro event hevent
      rcases List.mem_append.mp hevent with hevent | hevent
      · obtain ⟨i, hi⟩ := hinter.exists_mem hevent
        rcases hparts with ⟨values, _, hall⟩ | ⟨_, _, _, _, hall⟩
        · exact ihparts i (hp.1 i) (hall i) event hi
        · obtain ⟨more, last, hlast⟩ := hall i
          exact ihparts i (hp.1 i) hlast event (List.mem_append.mpr (Or.inl hi))
      · exact ih outcome (hp.2 outcome) hrest event hevent

theorem embed_bind {κ : Type} (f : ι → κ) (p : Program ι ρ α) (next : α → Program ι ρ β) :
    (p.bind next).embed f = (p.embed f).bind fun value => (next value).embed f := by
  induction p with
  | ret value => rfl
  | call request rest ih =>
      simp only [bind, embed]
      exact congrArg _ (funext fun reply => ih reply next)
  | join parts rest _ ih =>
      simp only [bind, embed]
      exact congrArg _ (funext fun outcome => ih outcome next)

theorem Exec.embed {κ : Type} (f : ι → κ) {p : Program ι ρ α} {trace : Trace ι ρ} {result : α}
    (h : Exec p trace result) : Exec (p.embed f) (trace.map (Prod.map f id)) result := by
  induction p generalizing trace with
  | ret value => exact ⟨by simp [h.1], h.2⟩
  | call request next ih =>
      obtain ⟨reply, rest, rfl, hrest⟩ := h
      exact ⟨reply, _, rfl, ih reply hrest⟩
  | join parts next ihparts ih =>
      obtain ⟨first, rest, outcome, rfl, hrest, traces, hinter, hparts⟩ := h
      refine ⟨_, _, outcome, List.map_append, ih outcome hrest, _, hinter.map _, ?_⟩
      rcases hparts with ⟨values, rfl, hall⟩ | ⟨error, i, rfl, hi, hall⟩
      · exact Or.inl ⟨values, rfl, fun i => ihparts i (hall i)⟩
      · refine Or.inr ⟨error, i, rfl, ihparts i hi, fun j => ?_⟩
        obtain ⟨more, last, hlast⟩ := hall j
        exact ⟨_, last, by rw [← List.map_append]; exact ihparts j hlast⟩

theorem only_embed {κ : Type} {f : ι → κ} {Q : κ → Prop} {p : Program ι ρ α}
    (h : Only (fun request => Q (f request)) p) : Only Q (p.embed f) := by
  induction p with
  | ret value => trivial
  | call request next ih => exact ⟨h.1, fun reply => ih reply (h.2 reply)⟩
  | join parts next ihparts ih =>
      exact ⟨fun i => ihparts i (h.1 i), fun outcome => ih outcome (h.2 outcome)⟩

/-- What an embedded program exchanges, the program itself exchanges. -/
theorem Exec.of_embed {κ : Type} {f : ι → κ} {p : Program ι ρ α} {trace : Trace κ ρ} {result : α}
    (h : Exec (p.embed f) trace result) :
    ∃ trace', trace = trace'.map (Prod.map f id) ∧ Exec p trace' result := by
  induction p generalizing trace with
  | ret value => exact ⟨[], h.1, rfl, h.2⟩
  | call request next ih =>
      obtain ⟨reply, rest, rfl, hrest⟩ := h
      obtain ⟨rest', rfl, hrest'⟩ := ih reply hrest
      exact ⟨(request, reply) :: rest', rfl, reply, rest', rfl, hrest'⟩
  | join parts next ihparts ih =>
      obtain ⟨first, rest, outcome, rfl, hrest, traces, hinter, hparts⟩ := h
      obtain ⟨rest', rfl, hrest'⟩ := ih outcome hrest
      rcases hparts with ⟨values, rfl, hall⟩ | ⟨error, i, rfl, hi, hall⟩
      · choose traces' htraces hexec using fun i => ihparts i (hall i)
        obtain ⟨first', rfl, hfirst'⟩ := Interleaves.of_map (funext htraces ▸ hinter)
        exact ⟨first' ++ rest', by simp, first', rest', _, rfl, hrest', traces', hfirst',
          Or.inl ⟨values, rfl, hexec⟩⟩
      · have hlift : ∀ j, ∃ trace', traces j = trace'.map (Prod.map f id) ∧
            (∃ more last, Exec (parts j) (trace' ++ more) last) ∧
            (j = i → Exec (parts j) trace' (.error error)) := by
          intro j
          by_cases hj : j = i
          · subst hj
            obtain ⟨failed, hfailed, hexec⟩ := ihparts j hi
            exact ⟨failed, hfailed, ⟨[], _, by simpa using hexec⟩, fun _ => hexec⟩
          · obtain ⟨more, last, hlast⟩ := hall j
            obtain ⟨whole, hwhole, hexec⟩ := ihparts j hlast
            obtain ⟨trace', more', rfl, htrace, _⟩ := List.map_eq_append_iff.mp hwhole.symm
            exact ⟨trace', htrace.symm, ⟨more', last, hexec⟩, fun h => absurd h hj⟩
        choose traces' htraces hmore hfailed using hlift
        obtain ⟨first', rfl, hfirst'⟩ := Interleaves.of_map (funext htraces ▸ hinter)
        exact ⟨first' ++ rest', by simp, first', rest', _, rfl, hrest', traces', hfirst',
          Or.inr ⟨error, i, rfl, hfailed i rfl, hmore⟩⟩

theorem eval_bind (answer : ι → ρ) (p : Program ι ρ α) (f : α → Program ι ρ β) :
    eval answer (p.bind f) = eval answer (f (eval answer p)) := by
  induction p with
  | ret value => rfl
  | call request next ih => exact ih (answer request) f
  | join parts next _ ih => exact ih _ f

theorem eval_embed {κ : Type} (f : ι → κ) (answer : κ → ρ) (p : Program ι ρ α) :
    eval answer (p.embed f) = eval (fun request => answer (f request)) p := by
  induction p with
  | ret value => rfl
  | call request next ih => exact ih _
  | join parts next ihparts ih =>
      simp only [embed, eval, ihparts]
      exact ih _

theorem play_bind (answer : σ → ι → ρ × σ) (p : Program ι ρ α) (f : α → Program ι ρ β)
    (state : σ) :
    play answer (p.bind f) state =
      let first := play answer p state
      let rest := play answer (f first.result) first.state
      ⟨first.trace ++ rest.trace, rest.result, rest.state⟩ := by
  induction p generalizing state with
  | ret value => rfl
  | call request next ih =>
      simp only [bind, play, ih]
      rfl
  | join parts next _ ih =>
      simp only [bind, play, ih, List.append_assoc]

theorem playAll_error {n : Nat} {parts : Fin (n + 1) → σ → Played ι ρ σ (Except ε β)} {state : σ}
    {error : ε} (h : (parts 0 state).result = .error error) :
    playAll parts state = ⟨(parts 0 state).trace, .error error, (parts 0 state).state⟩ := by
  rw [playAll, h]

theorem playAll_ok {n : Nat} {parts : Fin (n + 1) → σ → Played ι ρ σ (Except ε β)} {state : σ}
    {value : β} (h : (parts 0 state).result = .ok value) :
    playAll parts state =
      let others := playAll (fun i => parts i.succ) (parts 0 state).state
      ⟨(parts 0 state).trace ++ others.trace, others.result.map (value :: ·), others.state⟩ := by
  rw [playAll, h]

/-- One part after the other, the parts trace one of their interleavings. -/
theorem playAll_traces {n : Nat} (parts : Fin n → Program ι ρ (Except ε β))
    (runs : Fin n → σ → Played ι ρ σ (Except ε β))
    (hruns : ∀ i state, Exec (parts i) (runs i state).trace (runs i state).result) (state : σ) :
    ∃ traces, Interleaves traces (playAll runs state).trace ∧
      ((∃ values, (playAll runs state).result = .ok (List.ofFn values) ∧
          ∀ i, Exec (parts i) (traces i) (.ok (values i))) ∨
        ∃ error i, (playAll runs state).result = .error error ∧
          Exec (parts i) (traces i) (.error error) ∧
          ∀ j, ∃ more last, Exec (parts j) (traces j ++ more) last) := by
  induction n generalizing state with
  | zero =>
      refine ⟨fun i => i.elim0, Interleaves.nil _, Or.inl ⟨fun i => i.elim0, ?_, fun i => i.elim0⟩⟩
      simp [playAll]
  | succ n ih =>
      have hfirst := hruns 0 state
      cases hresult : (runs 0 state).result with
      | error error =>
          rw [playAll_error hresult]
          rw [hresult] at hfirst
          let traces : Fin (n + 1) → Trace ι ρ :=
            fun i => if i = 0 then (runs 0 state).trace else []
          have hinter : Interleaves traces (traces 0 ++ []) :=
            Interleaves.cons ⟨[], rfl, fun i => by simp [traces]⟩
          refine ⟨traces, by simpa [traces] using hinter, Or.inr ⟨error, 0, rfl, ?_, ?_⟩⟩
          · simpa [traces] using hfirst
          · intro j
            -- the parts that never started
            by_cases hj : j = 0
            · subst hj
              exact ⟨[], .error error, by simpa [traces] using hfirst⟩
            · exact ⟨(runs j state).trace, (runs j state).result, by
                simpa [traces, hj] using hruns j state⟩
      | ok value =>
          rw [playAll_ok hresult]
          rw [hresult] at hfirst
          obtain ⟨traces, hinter, hcases⟩ := ih (fun i => parts i.succ) (fun i => runs i.succ)
            (fun i => hruns i.succ) (runs 0 state).state
          let all : Fin (n + 1) → Trace ι ρ := Fin.cons (runs 0 state).trace traces
          have hall' : Interleaves all ((runs 0 state).trace ++ _) :=
            Interleaves.cons (by simpa [all] using hinter)
          refine ⟨all, hall', ?_⟩
          rcases hcases with ⟨values, hok, hall⟩ | ⟨error, i, herr, hi, hall⟩
          · refine Or.inl ⟨Fin.cons value values, by simp [hok, Except.map, List.ofFn_succ], ?_⟩
            intro i
            cases i using Fin.cases with
            | zero => simpa [all] using hfirst
            | succ i => simpa [all] using hall i
          · refine Or.inr ⟨error, i.succ, by simp [herr, Except.map], by simpa [all] using hi, ?_⟩
            intro j
            cases j using Fin.cases with
            | zero => exact ⟨[], .ok value, by simpa [all] using hfirst⟩
            | succ j => simpa [all] using hall j

/-- A run is one of the program's executions. -/
theorem exec_play (answer : σ → ι → ρ × σ) (p : Program ι ρ α) (state : σ) :
    Exec p (play answer p state).trace (play answer p state).result := by
  induction p generalizing state with
  | ret value => exact ⟨rfl, rfl⟩
  | call request next ih => exact ⟨_, _, rfl, ih _ _⟩
  | join parts next ihparts ih =>
      obtain ⟨traces, hinter, hcases⟩ :=
        playAll_traces parts (fun i => play answer (parts i)) ihparts state
      exact ⟨_, _, _, rfl, ih _ _, traces, hinter, hcases⟩

/-- Parts that leave the state as it is find it as it was. -/
theorem playAll_of_same {n : Nat} {runs : Fin n → σ → Played ι ρ σ (Except ε β)} {state : σ}
    (h : ∀ i, (runs i state).state = state) :
    (playAll runs state).result = outcomeOf (fun i => (runs i state).result) ∧
      (playAll runs state).state = state := by
  induction n with
  | zero => exact ⟨rfl, rfl⟩
  | succ n ih =>
      cases hresult : (runs 0 state).result with
      | error error =>
          rw [playAll_error hresult]
          refine ⟨?_, h 0⟩
          simp [outcomeOf, Result.collect, hresult]
          rfl
      | ok value =>
          obtain ⟨hothers, hstate⟩ := ih fun i => h i.succ
          rw [playAll_ok hresult, h 0]
          refine ⟨?_, hstate⟩
          change (playAll (fun i => runs i.succ) state).result.map (value :: ·) = _
          simp only [hothers, outcomeOf, List.ofFn_succ, Result.collect, id_eq, hresult]
          cases Result.collect id (List.ofFn fun i => (runs i.succ state).result) with
          | ok values => rfl
          | error error => rfl

/-- While only requests are sent that leave the state as it is, a run is one against what is seen
of the state. -/
theorem play_of_only {Q : ι → Prop} {answer : σ → ι → ρ × σ} {view : ι → ρ} {state : σ}
    (hanswer : ∀ request, Q request → answer state request = (view request, state))
    {p : Program ι ρ α} (h : Only Q p) :
    (play answer p state).result = eval view p ∧ (play answer p state).state = state := by
  induction p with
  | ret value => exact ⟨rfl, rfl⟩
  | call request next ih =>
      obtain ⟨hresult, hstate⟩ := ih (view request) (h.2 _)
      simp only [play, eval, hanswer request h.1]
      exact ⟨hresult, hstate⟩
  | join parts next ihparts ih =>
      have hstates : ∀ i, (play answer (parts i) state).state = state :=
        fun i => (ihparts i (h.1 i)).2
      obtain ⟨houtcome, hsame⟩ := playAll_of_same hstates
      have hparts : (fun i => (play answer (parts i) state).result) = fun i => eval view (parts i) :=
        funext fun i => (ihparts i (h.1 i)).1
      rw [hparts] at houtcome
      obtain ⟨hresult, hstate⟩ := ih _ (h.2 (outcomeOf fun i => eval view (parts i)))
      simp only [play, eval, houtcome, hsame]
      exact ⟨hresult, hstate⟩

/-- The first failure is the failure of some part, and without one all parts have a value. -/
theorem outcomeOf_cases {n : Nat} (results : Fin n → Except ε β) :
    (∃ values : Fin n → β, outcomeOf results = .ok (List.ofFn values) ∧
        ∀ i, results i = .ok (values i)) ∨
      ∃ error i, outcomeOf results = .error error ∧ results i = .error error := by
  induction n with
  | zero => exact Or.inl ⟨fun i => i.elim0, rfl, fun i => i.elim0⟩
  | succ n ih =>
      cases hfirst : results 0 with
      | error error => exact Or.inr ⟨error, 0, by simp [outcomeOf, Result.collect, hfirst]; rfl, hfirst⟩
      | ok value =>
          have hcons : outcomeOf results = (outcomeOf fun i => results i.succ).map (value :: ·) := by
            simp only [outcomeOf, List.ofFn_succ, Result.collect, id_eq, hfirst]
            cases Result.collect id (List.ofFn fun i => results i.succ) with
            | ok values => rfl
            | error error => rfl
          rcases ih fun i => results i.succ with ⟨values, hok, hall⟩ | ⟨error, i, herror, hi⟩
          · refine Or.inl ⟨Fin.cons value values, ?_, ?_⟩
            · rw [hcons, hok]
              simp [Except.map, List.ofFn_succ]
            · intro i
              cases i using Fin.cases with
              | zero => exact hfirst
              | succ i => exact hall i
          · exact Or.inr ⟨error, i.succ, by rw [hcons, herror]; rfl, hi⟩

/-- Every environment takes part in some execution. -/
theorem exec_eval (answer : ι → ρ) (p : Program ι ρ α) : ∃ trace, Exec p trace (eval answer p) := by
  induction p with
  | ret value => exact ⟨[], rfl, rfl⟩
  | call request next ih =>
      obtain ⟨rest, hrest⟩ := ih (answer request)
      exact ⟨_, _, rest, rfl, hrest⟩
  | join parts next ihparts ih =>
      choose traces htraces using ihparts
      obtain ⟨first, hfirst⟩ := Interleaves.exists_of_parts traces
      obtain ⟨rest, hrest⟩ := ih (outcomeOf fun i => eval answer (parts i))
      refine ⟨first ++ rest, first, rest, _, rfl, hrest, traces, hfirst, ?_⟩
      rcases outcomeOf_cases fun i => eval answer (parts i) with
        ⟨values, hok, hall⟩ | ⟨error, i, herror, hi⟩
      · exact Or.inl ⟨values, hok, fun i => hall i ▸ htraces i⟩
      · exact Or.inr ⟨error, i, herror, hi ▸ htraces i, fun j => ⟨[], _, by
          simpa using htraces j⟩⟩

/-! ## Environments -/

/-- The trace is one that an environment with this step relation takes part in. -/
def Follows (step : σ → ι × ρ → σ → Prop) : σ → Trace ι ρ → σ → Prop
  | state, [], final => final = state
  | state, event :: rest, final => ∃ middle, step state event middle ∧ Follows step middle rest final

variable {step : σ → ι × ρ → σ → Prop} {state final : σ}

theorem follows_append {first rest : Trace ι ρ} :
    Follows step state (first ++ rest) final ↔
      ∃ middle, Follows step state first middle ∧ Follows step middle rest final := by
  induction first generalizing state with
  | nil => simp [Follows]
  | cons event first ih =>
      simp only [List.cons_append, Follows, ih]
      constructor
      · rintro ⟨next, hstep, middle, hfirst, hrest⟩
        exact ⟨middle, ⟨next, hstep, hfirst⟩, hrest⟩
      · rintro ⟨middle, ⟨next, hstep, hfirst⟩, hrest⟩
        exact ⟨next, hstep, middle, hfirst, hrest⟩

/-- What every event of the trace keeps, the trace keeps. -/
theorem Follows.invariant {I : σ → Prop} {trace : Trace ι ρ} (h : Follows step state trace final)
    (hI : I state) (hstep : ∀ s event s', event ∈ trace → step s event s' → I s → I s') :
    I final := by
  induction trace generalizing state with
  | nil => exact h ▸ hI
  | cons event rest ih =>
      obtain ⟨middle, hfirst, hrest⟩ := h
      exact ih hrest (hstep state event middle (by simp) hfirst hI)
        fun s e s' he => hstep s e s' (by simp [he])

/-- Each event happens in a state that satisfies what every event keeps. -/
theorem Follows.strengthen {I : σ → Prop} {trace : Trace ι ρ} (h : Follows step state trace final)
    (hI : I state) (hstep : ∀ s event s', event ∈ trace → step s event s' → I s → I s') :
    Follows (fun s event s' => step s event s' ∧ I s) state trace final := by
  induction trace generalizing state with
  | nil => exact h
  | cons event rest ih =>
      obtain ⟨middle, hfirst, hrest⟩ := h
      exact ⟨middle, ⟨hfirst, hI⟩, ih hrest (hstep state event middle (by simp) hfirst hI)
        fun s e s' he => hstep s e s' (by simp [he])⟩

theorem Follows.exists_step {trace : Trace ι ρ} (h : Follows step state trace final)
    {event : ι × ρ} (hevent : event ∈ trace) : ∃ s s', step s event s' := by
  obtain ⟨first, rest, rfl⟩ := List.append_of_mem hevent
  obtain ⟨s, _, s', hstep, _⟩ := follows_append.mp h
  exact ⟨s, s', hstep⟩

theorem follows_map {κ : Type} {events : List (κ × (ι × ρ))} :
    Follows step state (events.map Prod.snd) final ↔
      Follows (fun s event s' => step s event.2 s') state events final := by
  induction events generalizing state with
  | nil => rfl
  | cons event rest ih => simp only [List.map_cons, Follows, ih]

theorem follows_playAll {n : Nat} {runs : Fin n → σ → Played ι ρ σ (Except ε β)}
    (hruns : ∀ i state, Follows step state (runs i state).trace (runs i state).state) (state : σ) :
    Follows step state (playAll runs state).trace (playAll runs state).state := by
  induction n generalizing state with
  | zero => rfl
  | succ n ih =>
      cases hresult : (runs 0 state).result with
      | error error =>
          rw [playAll_error hresult]
          exact hruns 0 state
      | ok value =>
          rw [playAll_ok hresult]
          exact follows_append.mpr ⟨_, hruns 0 state, ih (fun i => hruns i.succ) _⟩

theorem follows_play {answer : σ → ι → ρ × σ}
    (hanswer : ∀ state request, step state (request, (answer state request).1)
      (answer state request).2) (p : Program ι ρ α) (state : σ) :
    Follows step state (play answer p state).trace (play answer p state).state := by
  induction p generalizing state with
  | ret value => rfl
  | call request next ih => exact ⟨_, hanswer state request, ih _ _⟩
  | join parts next ihparts ih =>
      exact follows_append.mpr ⟨_, follows_playAll ihparts state, ih _ _⟩

end Program
end NixCache.Lib

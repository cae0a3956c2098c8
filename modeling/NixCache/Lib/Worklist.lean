import Mathlib.Algebra.BigOperators.Group.List.Basic
import Mathlib.Algebra.Order.Group.Nat
import Mathlib.Logic.Relation
/-!
# Worklist traversals

Three loops that programs write over a finite graph, each with a queue and a set of seen nodes:
one that marks a node when it leaves the queue, one that marks it when it enters, and one that
stops at the first bad node.  The queue empties after at most as many iterations as the fuel bound
in each theorem, so the fuel never decides a result.
-/

namespace NixCache.Lib.Worklist

open Relation

variable {α ε : Type} [DecidableEq α]

/-- `y` is reachable from one of the seeds along `succ`. -/
def Reaches (succ : α → List α) (seeds : List α) (y : α) : Prop :=
  ∃ s ∈ seeds, ReflTransGen (fun a b => b ∈ succ a) s y

omit [DecidableEq α] in
theorem Reaches.seed {succ : α → List α} {seeds : List α} {s : α} (h : s ∈ seeds) :
    Reaches succ seeds s :=
  ⟨s, h, .refl⟩

omit [DecidableEq α] in
theorem Reaches.step {succ : α → List α} {seeds : List α} {x y : α}
    (hx : Reaches succ seeds x) (hy : y ∈ succ x) : Reaches succ seeds y := by
  obtain ⟨s, hs, hpath⟩ := hx
  exact ⟨s, hs, hpath.tail hy⟩

omit [DecidableEq α] in
/-- A set that contains the seeds and is closed under `succ` contains everything reachable. -/
theorem Reaches.mem_of_closed {succ : α → List α} {seeds : List α} {P : α → Prop}
    (hseeds : ∀ s ∈ seeds, P s) (hclosed : ∀ x, P x → ∀ y ∈ succ x, P y) {y : α}
    (h : Reaches succ seeds y) : P y := by
  obtain ⟨s, hs, hpath⟩ := h
  induction hpath with
  | refl => exact hseeds s hs
  | tail _ hedge ih => exact hclosed _ ih _ hedge

/-- Number of edges that leave `nodes`. -/
def edgeCount (succ : α → List α) (nodes : List α) : Nat :=
  (nodes.flatMap succ).length

omit [DecidableEq α] in
theorem edgeCount_filter_le (succ : α → List α) (p : α → Bool) (nodes : List α) :
    edgeCount succ (nodes.filter p) ≤ edgeCount succ nodes := by
  induction nodes with
  | nil => simp
  | cons a nodes ih =>
      simp only [edgeCount, List.flatMap_cons, List.length_append] at ih ⊢
      rw [List.filter_cons]
      split
      · simp only [List.flatMap_cons, List.length_append]
        omega
      · omega

theorem edgeCount_filter_ne (succ : α → List α) (nodes : List α) {x : α} (h : x ∈ nodes) :
    edgeCount succ (nodes.filter (· ≠ x)) + (succ x).length ≤ edgeCount succ nodes := by
  induction nodes with
  | nil => simp at h
  | cons a nodes ih =>
      have hle := edgeCount_filter_le succ (· ≠ x) nodes
      by_cases hax : a = x
      · subst hax
        simp only [edgeCount, ne_eq, not_true_eq_false, decide_false, Bool.false_eq_true,
          not_false_eq_true, List.filter_cons_of_neg, List.flatMap_cons, List.length_append]
          at hle ⊢
        omega
      · have hmem : x ∈ nodes := by
          rcases List.mem_cons.mp h with rfl | hmem
          · exact absurd rfl hax
          · exact hmem
        have := ih hmem
        simp only [edgeCount, ne_eq, hax, not_false_eq_true, decide_true,
          List.filter_cons_of_pos, List.flatMap_cons, List.length_append] at this ⊢
        omega

theorem filter_notMem_cons (nodes seen : List α) (x : α) :
    nodes.filter (· ∉ x :: seen) = (nodes.filter (· ∉ seen)).filter (· ≠ x) := by
  rw [List.filter_filter]
  apply List.filter_congr
  intro y _
  simp

/-! ## Marking on removal -/

/-- Pop a node; if it is new, mark it and queue its unmarked successors. -/
def markOnPop (succ : α → List α) : Nat → List α → List α → List α
  | 0, _, seen => seen
  | _ + 1, [], seen => seen
  | fuel + 1, x :: queue, seen =>
      if x ∈ seen then markOnPop succ fuel queue seen
      else markOnPop succ fuel (queue ++ (succ x).filter (· ∉ x :: seen)) (x :: seen)

/-- What holds between two iterations of `markOnPop`. -/
structure PopInvariant (succ : α → List α) (seeds queue seen : List α) : Prop where
  queueReached : ∀ x ∈ queue, Reaches succ seeds x
  seenReached : ∀ x ∈ seen, Reaches succ seeds x
  seeded : ∀ s ∈ seeds, s ∈ seen ∨ s ∈ queue
  closed : ∀ x ∈ seen, ∀ y ∈ succ x, y ∈ seen ∨ y ∈ queue

namespace PopInvariant

omit [DecidableEq α] in
theorem initial (succ : α → List α) (seeds : List α) : PopInvariant succ seeds seeds [] where
  queueReached _ hx := .seed hx
  seenReached _ hx := by simp at hx
  seeded _ hs := Or.inr hs
  closed _ hx := by simp at hx

omit [DecidableEq α] in
theorem skip {succ : α → List α} {seeds queue seen : List α} {x : α}
    (inv : PopInvariant succ seeds (x :: queue) seen) (hx : x ∈ seen) :
    PopInvariant succ seeds queue seen where
  queueReached y hy := inv.queueReached y (by simp [hy])
  seenReached := inv.seenReached
  seeded s hs := by
    rcases inv.seeded s hs with h | h
    · exact Or.inl h
    · rcases List.mem_cons.mp h with rfl | h
      · exact Or.inl hx
      · exact Or.inr h
  closed z hz y hy := by
    rcases inv.closed z hz y hy with h | h
    · exact Or.inl h
    · rcases List.mem_cons.mp h with rfl | h
      · exact Or.inl hx
      · exact Or.inr h

theorem expand {succ : α → List α} {seeds queue seen : List α} {x : α}
    (inv : PopInvariant succ seeds (x :: queue) seen) :
    PopInvariant succ seeds (queue ++ (succ x).filter (· ∉ x :: seen)) (x :: seen) := by
  have hx := inv.queueReached x (by simp)
  -- An old obligation on the queue is met by the queue, or by `x` itself.
  have hold : ∀ y, y ∈ seen ∨ y ∈ x :: queue →
      y ∈ x :: seen ∨ y ∈ queue ++ (succ x).filter (· ∉ x :: seen) := by
    intro y hy
    simp only [List.mem_cons, List.mem_append] at hy ⊢
    tauto
  refine ⟨?_, ?_, fun s hs => hold s (inv.seeded s hs), ?_⟩
  · intro y hy
    rcases List.mem_append.mp hy with hy | hy
    · exact inv.queueReached y (by simp [hy])
    · exact hx.step (List.mem_of_mem_filter hy)
  · intro y hy
    rcases List.mem_cons.mp hy with rfl | hy
    · exact hx
    · exact inv.seenReached y hy
  · intro z hz y hy
    rcases List.mem_cons.mp hz with rfl | hz
    · by_cases hseen : y ∈ z :: seen
      · exact Or.inl hseen
      · exact Or.inr (List.mem_append.mpr (Or.inr (List.mem_filter.mpr ⟨hy, by simpa using hseen⟩)))
    · exact hold y (inv.closed z hz y hy)

end PopInvariant

/-- With the invariant and enough fuel, the traversal ends with exactly the reachable nodes. -/
theorem mem_markOnPop_of_invariant {succ : α → List α} {nodes seeds : List α}
    (hnodes : ∀ x, x ∉ nodes → succ x = []) :
    ∀ (fuel : Nat) {queue seen : List α}, PopInvariant succ seeds queue seen →
      queue.length + edgeCount succ (nodes.filter (· ∉ seen)) ≤ fuel →
      ∀ y, y ∈ markOnPop succ fuel queue seen ↔ Reaches succ seeds y := by
  have hdone : ∀ {seen : List α}, PopInvariant succ seeds [] seen →
      ∀ y, y ∈ seen ↔ Reaches succ seeds y := by
    intro seen inv y
    refine ⟨inv.seenReached y, fun h => h.mem_of_closed (P := (· ∈ seen)) ?_ ?_⟩
    · intro s hs
      simpa using inv.seeded s hs
    · intro x hx z hz
      simpa using inv.closed x hx z hz
  intro fuel
  induction fuel with
  | zero =>
      intro queue seen inv hfuel
      have hq : queue = [] := List.length_eq_zero_iff.mp (by omega)
      subst hq
      simpa [markOnPop] using hdone inv
  | succ fuel ih =>
      intro queue seen inv hfuel
      cases queue with
      | nil => simpa [markOnPop] using hdone inv
      | cons x queue =>
          rw [List.length_cons] at hfuel
          by_cases hx : x ∈ seen
          · rw [markOnPop, if_pos hx]
            exact ih (inv.skip hx) (by omega)
          · rw [markOnPop, if_neg hx]
            refine ih inv.expand ?_
            have hfilter : ((succ x).filter (· ∉ x :: seen)).length ≤ (succ x).length :=
              List.length_filter_le _ _
            rw [List.length_append, filter_notMem_cons nodes]
            by_cases hmem : x ∈ nodes
            · have := edgeCount_filter_ne succ (nodes.filter (· ∉ seen))
                (List.mem_filter.mpr ⟨hmem, by simpa using hx⟩)
              omega
            · have hle := edgeCount_filter_le succ (· ≠ x) (nodes.filter (· ∉ seen))
              rw [hnodes x hmem] at hfilter ⊢
              simp only [List.filter_nil, List.length_nil] at hfilter ⊢
              omega

/-- Fuel that empties any queue of a traversal started at `seeds`. -/
def popFuel (succ : α → List α) (nodes seeds : List α) : Nat :=
  seeds.length + edgeCount succ nodes

theorem mem_markOnPop {succ : α → List α} {nodes : List α}
    (hnodes : ∀ x, x ∉ nodes → succ x = []) (seeds : List α) (y : α) :
    y ∈ markOnPop succ (popFuel succ nodes seeds) seeds [] ↔ Reaches succ seeds y := by
  refine mem_markOnPop_of_invariant hnodes _ (.initial succ seeds) ?_ y
  simp [popFuel]

/-- The same loop where the successors of a node may fail to decode. -/
def tryMarkOnPop {δ : Type} (succ : α → Except δ (List α)) :
    Nat → List α → List α → Except δ (List α)
  | 0, _, seen => .ok seen
  | _ + 1, [], seen => .ok seen
  | fuel + 1, x :: queue, seen =>
      if x ∈ seen then tryMarkOnPop succ fuel queue seen
      else do
        let ys ← succ x
        tryMarkOnPop succ fuel (queue ++ ys.filter (· ∉ x :: seen)) (x :: seen)

theorem tryMarkOnPop_eq_ok {δ : Type} {succ : α → Except δ (List α)} {succ' : α → List α}
    (h : ∀ x, succ x = .ok (succ' x)) (fuel : Nat) (queue seen : List α) :
    tryMarkOnPop succ fuel queue seen = .ok (markOnPop succ' fuel queue seen) := by
  fun_induction tryMarkOnPop succ fuel queue seen with
  | case1 => rfl
  | case2 => rfl
  | case3 fuel x queue seen hx ih => rw [markOnPop, if_pos hx, ih]
  | case4 fuel x queue seen hx ih =>
      rw [markOnPop, if_neg hx, h x]
      exact ih (succ' x)

/-! ## Marking on insertion -/

/-- The state of a traversal that marks a node when it queues it.  `log` lists each discovered node
with the label of the edge and the node it was found from, in order of discovery. -/
structure Frontier (α ε : Type) where
  seen : List α
  queue : List α
  log : List (α × ε × α)

namespace Frontier

def start (seeds : List α) : Frontier α ε := ⟨seeds, seeds, []⟩

/-- One edge out of `curr`: a blocked or a seen target is skipped. -/
def visit (blocked : α → Bool) (curr : α) (f : Frontier α ε) (edge : ε × α) : Frontier α ε :=
  if blocked edge.2 then f
  else if edge.2 ∈ f.seen then f
  else ⟨edge.2 :: f.seen, f.queue ++ [edge.2], f.log ++ [(edge.2, edge.1, curr)]⟩

def expand (blocked : α → Bool) (curr : α) (edges : List (ε × α)) (f : Frontier α ε) :
    Frontier α ε :=
  edges.foldl (visit blocked curr) f

/-- The number of `targets` not yet seen. -/
def unseen (targets : List α) (f : Frontier α ε) : Nat := (targets.filter (· ∉ f.seen)).length

theorem unseen_le (f : Frontier α ε) (targets : List α) : f.unseen targets ≤ targets.length :=
  List.length_filter_le _ _

theorem mem_seen_visit {blocked : α → Bool} {curr : α} {f : Frontier α ε} {edge : ε × α} {y : α} :
    y ∈ (f.visit blocked curr edge).seen ↔ y ∈ f.seen ∨ (y = edge.2 ∧ blocked edge.2 = false) := by
  unfold visit
  split
  · simp_all
  · split
    · constructor
      · exact Or.inl
      · rintro (h | ⟨rfl, -⟩)
        · exact h
        · assumption
    · simp_all only [Bool.not_eq_true, List.mem_cons]
      tauto

theorem mem_seen_expand {blocked : α → Bool} {curr : α} {edges : List (ε × α)}
    {f : Frontier α ε} {y : α} :
    y ∈ (f.expand blocked curr edges).seen ↔
      y ∈ f.seen ∨ (∃ label, (label, y) ∈ edges) ∧ blocked y = false := by
  induction edges generalizing f with
  | nil => simp [expand]
  | cons edge edges ih =>
      have := @ih (f.visit blocked curr edge)
      unfold expand at this ⊢
      rw [List.foldl_cons, this, mem_seen_visit]
      constructor
      · rintro ((h | ⟨rfl, hb⟩) | ⟨⟨label, h⟩, hb⟩)
        · exact Or.inl h
        · exact Or.inr ⟨⟨edge.1, by simp⟩, hb⟩
        · exact Or.inr ⟨⟨label, by simp [h]⟩, hb⟩
      · rintro (h | ⟨⟨label, h⟩, hb⟩)
        · exact Or.inl (Or.inl h)
        · rcases List.mem_cons.mp h with rfl | h
          · exact Or.inl (Or.inr ⟨rfl, hb⟩)
          · exact Or.inr ⟨⟨label, h⟩, hb⟩

/-- A node that a visit adds to the seen set is queued, and nothing leaves the queue. -/
theorem mem_queue_visit {blocked : α → Bool} {curr : α} {f : Frontier α ε} {edge : ε × α} {y : α} :
    y ∈ (f.visit blocked curr edge).queue ↔
      y ∈ f.queue ∨ (y ∈ (f.visit blocked curr edge).seen ∧ y ∉ f.seen) := by
  unfold visit
  split
  · tauto
  · split
    · tauto
    · simp only [List.mem_append, List.mem_cons, List.not_mem_nil, or_false]
      constructor
      · rintro (h | rfl)
        · exact Or.inl h
        · exact Or.inr ⟨Or.inl rfl, by assumption⟩
      · rintro (h | ⟨rfl | h, hnot⟩)
        · exact Or.inl h
        · exact Or.inr rfl
        · exact absurd h hnot

theorem mem_queue_expand {blocked : α → Bool} {curr : α} {edges : List (ε × α)}
    {f : Frontier α ε} {y : α} :
    y ∈ (f.expand blocked curr edges).queue ↔
      y ∈ f.queue ∨ (y ∈ (f.expand blocked curr edges).seen ∧ y ∉ f.seen) := by
  induction edges generalizing f with
  | nil =>
      simp only [expand, List.foldl_nil]
      tauto
  | cons edge edges ih =>
      have hstep := @ih (f.visit blocked curr edge)
      have hmono : ∀ y, y ∈ (f.visit blocked curr edge).seen →
          y ∈ ((f.visit blocked curr edge).expand blocked curr edges).seen :=
        fun y hy => mem_seen_expand.mpr (Or.inl hy)
      change y ∈ ((f.visit blocked curr edge).expand blocked curr edges).queue ↔
        y ∈ f.queue ∨ (y ∈ ((f.visit blocked curr edge).expand blocked curr edges).seen ∧
          y ∉ f.seen)
      have hold : y ∈ f.seen → y ∈ (f.visit blocked curr edge).seen :=
        fun hy => mem_seen_visit.mpr (Or.inl hy)
      have := hmono y
      rw [hstep, mem_queue_visit]
      tauto

theorem unseen_cons_lt {targets seen : List α} {x : α} (hx : x ∈ targets) (hnot : x ∉ seen) :
    (targets.filter (· ∉ x :: seen)).length + 1 ≤ (targets.filter (· ∉ seen)).length := by
  have hmem : x ∈ targets.filter (· ∉ seen) := List.mem_filter.mpr ⟨hx, by simpa using hnot⟩
  rw [filter_notMem_cons]
  refine List.length_filter_lt_length_iff_exists.mpr ⟨x, hmem, by simp⟩

theorem potential_visit {blocked : α → Bool} {curr : α} {f : Frontier α ε} {edge : ε × α}
    {targets : List α} (h : edge.2 ∈ targets) :
    (f.visit blocked curr edge).queue.length + (f.visit blocked curr edge).unseen targets ≤
      f.queue.length + f.unseen targets := by
  unfold visit unseen
  split
  · exact le_rfl
  · split
    · exact le_rfl
    · rename_i hnot
      have := unseen_cons_lt h hnot
      simp only [List.length_append, List.length_cons, List.length_nil]
      omega

theorem potential_expand (blocked : α → Bool) (curr : α) {edges : List (ε × α)}
    (f : Frontier α ε) {targets : List α} (h : ∀ edge ∈ edges, edge.2 ∈ targets) :
    (f.expand blocked curr edges).queue.length + (f.expand blocked curr edges).unseen targets ≤
      f.queue.length + f.unseen targets := by
  induction edges generalizing f with
  | nil => exact le_rfl
  | cons edge edges ih =>
      calc ((f.visit blocked curr edge).expand blocked curr edges).queue.length +
            ((f.visit blocked curr edge).expand blocked curr edges).unseen targets
          ≤ (f.visit blocked curr edge).queue.length +
            (f.visit blocked curr edge).unseen targets :=
            ih _ fun e he => h e (by simp [he])
        _ ≤ f.queue.length + f.unseen targets := potential_visit (h edge (by simp))

end Frontier

/-- The targets of the unblocked edges out of `x`. -/
def openSucc (edges : α → List (ε × α)) (blocked : α → Bool) (x : α) : List α :=
  ((edges x).map Prod.snd).filter fun y => !blocked y

omit [DecidableEq α] in
theorem mem_openSucc {edges : α → List (ε × α)} {blocked : α → Bool} {x y : α} :
    y ∈ openSucc edges blocked x ↔ (∃ label, (label, y) ∈ edges x) ∧ blocked y = false := by
  simp [openSucc]

/-- Pop a node and visit its edges until the queue is empty. -/
def markOnPush (edges : α → List (ε × α)) (blocked : α → Bool) :
    Nat → Frontier α ε → Frontier α ε
  | 0, f => f
  | fuel + 1, f =>
      match f.queue with
      | [] => f
      | x :: queue =>
          markOnPush edges blocked fuel ((⟨f.seen, queue, f.log⟩ : Frontier α ε).expand blocked x
            (edges x))

/-- What holds between two iterations; `Done x` records what was checked of a processed node. -/
structure PushInvariant (succ : α → List α) (Done : α → Prop) (seeds : List α)
    (f : Frontier α ε) : Prop where
  seenReached : ∀ x ∈ f.seen, Reaches succ seeds x
  queueSeen : ∀ x ∈ f.queue, x ∈ f.seen
  seeded : ∀ s ∈ seeds, s ∈ f.seen
  closed : ∀ x ∈ f.seen, x ∈ f.queue ∨ Done x ∧ ∀ y ∈ succ x, y ∈ f.seen

namespace PushInvariant

omit [DecidableEq α] in
theorem initial (succ : α → List α) (Done : α → Prop) (seeds : List α) :
    PushInvariant succ Done seeds (Frontier.start (ε := ε) seeds) where
  seenReached _ hx := .seed hx
  queueSeen _ hx := hx
  seeded _ hs := hs
  closed _ hx := Or.inl hx

theorem expand {succ : α → List α} {Done : α → Prop} {seeds : List α} {f : Frontier α ε}
    {blocked : α → Bool} {edges : List (ε × α)} {x : α} {queue : List α}
    (inv : PushInvariant succ Done seeds f) (hqueue : f.queue = x :: queue) (hdone : Done x)
    (hsucc : ∀ y, y ∈ succ x ↔ (∃ label, (label, y) ∈ edges) ∧ blocked y = false) :
    PushInvariant succ Done seeds
      ((⟨f.seen, queue, f.log⟩ : Frontier α ε).expand blocked x edges) := by
  have hxseen : x ∈ f.seen := inv.queueSeen x (by simp [hqueue])
  have hmem : ∀ y, y ∈ ((⟨f.seen, queue, f.log⟩ : Frontier α ε).expand blocked x edges).seen ↔
      y ∈ f.seen ∨ y ∈ succ x := by
    intro y
    rw [Frontier.mem_seen_expand, hsucc]
  refine ⟨?_, ?_, ?_, ?_⟩
  · intro y hy
    rcases (hmem y).mp hy with hy | hy
    · exact inv.seenReached y hy
    · exact (inv.seenReached x hxseen).step hy
  · intro y hy
    rcases Frontier.mem_queue_expand.mp hy with hy | hy
    · exact (hmem y).mpr (Or.inl (inv.queueSeen y (by simp [hqueue, show y ∈ queue from hy])))
    · exact hy.1
  · intro s hs
    exact (hmem s).mpr (Or.inl (inv.seeded s hs))
  · intro y hy
    rw [Frontier.mem_queue_expand]
    by_cases hold : y ∈ f.seen
    · rcases inv.closed y hold with hq | ⟨hd, hc⟩
      · rw [hqueue] at hq
        rcases List.mem_cons.mp hq with rfl | hq
        · exact Or.inr ⟨hdone, fun z hz => (hmem z).mpr (Or.inr hz)⟩
        · exact Or.inl (Or.inl hq)
      · exact Or.inr ⟨hd, fun z hz => (hmem z).mpr (Or.inl (hc z hz))⟩
    · exact Or.inl (Or.inr ⟨hy, hold⟩)

omit [DecidableEq α] in
theorem mem_seen_iff {succ : α → List α} {Done : α → Prop} {seeds : List α} {f : Frontier α ε}
    (inv : PushInvariant succ Done seeds f) (hqueue : f.queue = []) (y : α) :
    y ∈ f.seen ↔ Reaches succ seeds y := by
  refine ⟨inv.seenReached y, fun h => h.mem_of_closed (P := (· ∈ f.seen)) inv.seeded ?_⟩
  intro x hx z hz
  have hc := inv.closed x hx
  rw [hqueue] at hc
  simp only [List.not_mem_nil, false_or] at hc
  exact hc.2 z hz

end PushInvariant

theorem mem_markOnPush_of_invariant {edges : α → List (ε × α)} {blocked : α → Bool}
    {seeds : List α} (targets : List α) (htargets : ∀ x, ∀ edge ∈ edges x, edge.2 ∈ targets) :
    ∀ (fuel : Nat) {f : Frontier α ε},
      PushInvariant (openSucc edges blocked) (fun _ => True) seeds f →
      f.queue.length + f.unseen targets ≤ fuel →
      ∀ y, y ∈ (markOnPush edges blocked fuel f).seen ↔ Reaches (openSucc edges blocked) seeds y := by
  intro fuel
  induction fuel with
  | zero =>
      intro f inv hfuel
      have hq : f.queue = [] := List.length_eq_zero_iff.mp (by omega)
      exact inv.mem_seen_iff hq
  | succ fuel ih =>
      intro f inv hfuel
      unfold markOnPush
      split
      · rename_i hq
        exact inv.mem_seen_iff hq
      · rename_i x queue hq
        refine ih (inv.expand hq trivial fun y => mem_openSucc) ?_
        have := Frontier.potential_expand blocked x ⟨f.seen, queue, f.log⟩ (htargets x)
        rw [hq, List.length_cons] at hfuel
        simp only [Frontier.unseen] at this hfuel ⊢
        omega

/-- Fuel that empties any queue of a marking traversal started at `seeds`. -/
def pushFuel (edges : α → List (ε × α)) (nodes seeds : List α) : Nat :=
  seeds.length + (nodes.flatMap edges).length

theorem mem_markOnPush {edges : α → List (ε × α)} {blocked : α → Bool} {nodes : List α}
    (hnodes : ∀ x, x ∉ nodes → edges x = []) (seeds : List α) (y : α) :
    y ∈ (markOnPush edges blocked (pushFuel edges nodes seeds) (.start seeds)).seen ↔
      Reaches (openSucc edges blocked) seeds y := by
  refine mem_markOnPush_of_invariant ((nodes.flatMap edges).map Prod.snd) ?_ _
    (.initial _ _ seeds) ?_ y
  · intro x edge hedge
    have hx : x ∈ nodes := by
      by_contra h
      rw [hnodes x h] at hedge
      simp at hedge
    exact List.mem_map.mpr ⟨edge, List.mem_flatMap.mpr ⟨x, hx, hedge⟩, rfl⟩
  · have hle := Frontier.unseen_le (.start seeds : Frontier α ε)
      ((nodes.flatMap edges).map Prod.snd)
    rw [List.length_map] at hle
    exact Nat.add_le_add_left hle _

/-! ## Stopping at the first bad node -/

/-- Follow `succ` from the queue; fail at a node with a bad successor, or at one without a
successor list that is missing. -/
def checkClosure (succ : α → Option (List α)) (bad missing : α → Bool) :
    Nat → Frontier α Unit → Bool
  | 0, _ => true
  | fuel + 1, f =>
      match f.queue with
      | [] => true
      | x :: queue =>
          match succ x with
          | some ys =>
              if ys.any bad then false
              else checkClosure succ bad missing fuel
                ((⟨f.seen, queue, f.log⟩ : Frontier α Unit).expand (fun _ => false) x
                  (ys.map fun y => ((), y)))
          | none =>
              if missing x then false
              else checkClosure succ bad missing fuel ⟨f.seen, queue, f.log⟩

/-- What `checkClosure` asks of one node. -/
def Clean (succ : α → Option (List α)) (bad missing : α → Bool) (x : α) : Prop :=
  (∀ ys, succ x = some ys → ys.any bad = false) ∧ (succ x = none → missing x = false)

omit [DecidableEq α] in
theorem clean_of_some {succ : α → Option (List α)} {bad missing : α → Bool} {x : α} {ys : List α}
    (hs : succ x = some ys) : Clean succ bad missing x ↔ ys.any bad = false := by
  simp [Clean, hs]

omit [DecidableEq α] in
theorem clean_of_none {succ : α → Option (List α)} {bad missing : α → Bool} {x : α}
    (hs : succ x = none) : Clean succ bad missing x ↔ missing x = false := by
  simp [Clean, hs]

theorem checkClosure_of_invariant {succ : α → Option (List α)} {bad missing : α → Bool}
    {seeds : List α} (targets : List α) (htargets : ∀ x, ∀ y ∈ (succ x).getD [], y ∈ targets) :
    ∀ (fuel : Nat) {f : Frontier α Unit},
      PushInvariant (fun x => (succ x).getD []) (Clean succ bad missing) seeds f →
      f.queue.length + f.unseen targets ≤ fuel →
      (checkClosure succ bad missing fuel f = true ↔
        ∀ y, Reaches (fun x => (succ x).getD []) seeds y → Clean succ bad missing y) := by
  have hdone : ∀ {f : Frontier α Unit},
      PushInvariant (fun x => (succ x).getD []) (Clean succ bad missing) seeds f →
      f.queue = [] → ∀ y, Reaches (fun x => (succ x).getD []) seeds y →
      Clean succ bad missing y := by
    intro f inv hq y hy
    have hc := inv.closed y ((inv.mem_seen_iff hq y).mpr hy)
    rw [hq] at hc
    simp only [List.not_mem_nil, false_or] at hc
    exact hc.1
  intro fuel
  induction fuel with
  | zero =>
      intro f inv hfuel
      have hq : f.queue = [] := List.length_eq_zero_iff.mp (by omega)
      exact iff_of_true rfl (hdone inv hq)
  | succ fuel ih =>
      intro f inv hfuel
      unfold checkClosure
      split
      · rename_i hq
        exact iff_of_true rfl (hdone inv hq)
      · rename_i x queue hq
        have hreach := inv.seenReached x (inv.queueSeen x (by simp [hq]))
        rw [hq, List.length_cons] at hfuel
        split
        · rename_i ys hs
          split
          · rename_i hbad
            refine iff_of_false (by simp) fun h => ?_
            have := (clean_of_some hs).mp (h x hreach)
            rw [hbad] at this
            exact Bool.noConfusion this
          · rename_i hok
            have hclean : Clean succ bad missing x :=
              (clean_of_some hs).mpr (by simpa using hok)
            refine ih (inv.expand hq hclean fun y => by simp [hs]) ?_
            have hedges : ∀ edge ∈ ys.map fun y => ((), y), edge.2 ∈ targets := by
              intro edge hedge
              obtain ⟨y, hy, rfl⟩ := List.mem_map.mp hedge
              exact htargets x y (by simpa [hs] using hy)
            have := Frontier.potential_expand (fun _ => false) x ⟨f.seen, queue, f.log⟩ hedges
            simp only [Frontier.unseen] at this hfuel ⊢
            omega
        · rename_i hs
          split
          · rename_i hmiss
            refine iff_of_false (by simp) fun h => ?_
            have := (clean_of_none hs).mp (h x hreach)
            rw [hmiss] at this
            exact Bool.noConfusion this
          · rename_i hok
            have hclean : Clean succ bad missing x :=
              (clean_of_none hs).mpr (by simpa using hok)
            have hsucc : ∀ y, y ∈ (succ x).getD [] ↔
                (∃ label : Unit, (label, y) ∈ ([] : List (Unit × α))) ∧ false = false := by
              simp [hs]
            refine ih (inv.expand hq hclean hsucc) ?_
            simp only [Frontier.unseen] at hfuel ⊢
            omega

theorem checkClosure_iff {succ : α → Option (List α)} {bad missing : α → Bool} {nodes : List α}
    (hnodes : ∀ x, x ∉ nodes → succ x = none) (seeds : List α) :
    checkClosure succ bad missing
        (seeds.length + (nodes.flatMap fun x => (succ x).getD []).length) (.start seeds) = true ↔
      ∀ y, Reaches (fun x => (succ x).getD []) seeds y → Clean succ bad missing y := by
  refine checkClosure_of_invariant (nodes.flatMap fun x => (succ x).getD []) ?_ _
    (.initial _ _ seeds) ?_
  · intro x y hy
    have hx : x ∈ nodes := by
      by_contra h
      rw [hnodes x h] at hy
      simp at hy
    exact List.mem_flatMap.mpr ⟨x, hx, hy⟩
  · exact Nat.add_le_add_left (Frontier.unseen_le _ _) _

end NixCache.Lib.Worklist

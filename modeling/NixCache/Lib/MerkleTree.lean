import Mathlib.Data.List.Nodup
/-!
# Layered Merkle trees

A tree is built level by level: each pair of neighbours is hashed into one node, and a last node
without a neighbour is hashed alone.  Two lists of one length with the same root are equal unless
the hash collides on two of the node encodings that were hashed for them.
-/

namespace NixCache.Lib.MerkleTree

variable {δ : Type}

/-- The hash tells the listed messages apart. -/
def CollisionFree (hash : List UInt8 → δ) (messages : List (List UInt8)) : Prop :=
  ∀ x ∈ messages, ∀ y ∈ messages, hash x = hash y → x = y

theorem CollisionFree.mono {hash : List UInt8 → δ} {small big : List (List UInt8)}
    (h : CollisionFree hash big) (hsub : ∀ x ∈ small, x ∈ big) : CollisionFree hash small :=
  fun x hx y hy => h x (hsub x hx) y (hsub y hy)

/-- It is enough that some part of the hashes tells the messages apart. -/
theorem CollisionFree.of_nodup {γ : Type} {hash : List UInt8 → δ} (part : δ → γ)
    {messages : List (List UInt8)} (h : (messages.map fun m => part (hash m)).Nodup) :
    CollisionFree hash messages :=
  fun _ hx _ hy heq => List.inj_on_of_nodup_map h hx hy (congrArg part heq)

/-- Equal hashes of two lists of listed messages come from equal messages. -/
theorem CollisionFree.map_inj {hash : List UInt8 → δ} {xs ys : List (List UInt8)}
    (h : CollisionFree hash (xs ++ ys)) (heq : xs.map hash = ys.map hash) : xs = ys := by
  induction xs generalizing ys with
  | nil => simpa [eq_comm] using heq
  | cons x xs ih =>
      cases ys with
      | nil => simp at heq
      | cons y ys =>
          rw [List.map_cons, List.map_cons, List.cons.injEq] at heq
          have hhead : x = y := h x (by simp) y (by simp) heq.1
          have htail : xs = ys := ih (h.mono fun z hz => by
            rcases List.mem_append.mp hz with hz | hz <;> simp [hz]) heq.2
          rw [hhead, htail]

section Tree

variable (hash : List UInt8 → δ) (node : Nat → δ → Option δ → List UInt8)

/-- The encodings of the nodes above one level, a pair of neighbours at a time. -/
def nodeEncodings (level : Nat) : List δ → List (List UInt8)
  | left :: right :: rest => node level left (some right) :: nodeEncodings level rest
  | [left] => [node level left none]
  | [] => []

/-- `while level.len() > 1`: replace the level by the hashes of its nodes. -/
def climb : Nat → Nat → List δ → List δ
  | 0, _, digests => digests
  | fuel + 1, level, digests =>
      if digests.length ≤ 1 then digests
      else climb fuel (level + 1) ((nodeEncodings node level digests).map hash)

/-- Every node encoding that `climb` hashes. -/
def climbEncodings : Nat → Nat → List δ → List (List UInt8)
  | 0, _, _ => []
  | fuel + 1, level, digests =>
      if digests.length ≤ 1 then []
      else nodeEncodings node level digests ++
        climbEncodings fuel (level + 1) ((nodeEncodings node level digests).map hash)

variable {hash node}

theorem length_nodeEncodings (level : Nat) (digests : List δ) :
    (nodeEncodings node level digests).length = (digests.length + 1) / 2 := by
  induction digests using nodeEncodings.induct with
  | case1 left right rest ih =>
      simp only [nodeEncodings, List.length_cons, ih]
      omega
  | case2 left => simp [nodeEncodings]
  | case3 => simp [nodeEncodings]

theorem nodeEncodings_injective {level : Nat}
    (hnode : ∀ l r l' r', node level l r = node level l' r' → l = l' ∧ r = r') :
    Function.Injective (nodeEncodings node level) := by
  intro xs ys h
  induction xs using nodeEncodings.induct generalizing ys with
  | case1 left right rest ih =>
      match ys with
      | left' :: right' :: rest' =>
          simp only [nodeEncodings, List.cons.injEq] at h
          obtain ⟨hl, hr⟩ := hnode _ _ _ _ h.1
          rw [hl, Option.some.inj hr, ih h.2]
      | [left'] =>
          simp only [nodeEncodings, List.cons.injEq] at h
          exact absurd (hnode _ _ _ _ h.1).2 (by simp)
      | [] => simp [nodeEncodings] at h
  | case2 left =>
      match ys with
      | left' :: right' :: rest' =>
          simp only [nodeEncodings, List.cons.injEq] at h
          exact absurd (hnode _ _ _ _ h.1).2 (by simp)
      | [left'] =>
          simp only [nodeEncodings, List.cons.injEq, and_true] at h
          rw [(hnode _ _ _ _ h).1]
      | [] => simp [nodeEncodings] at h
  | case3 =>
      match ys with
      | left' :: right' :: rest' => simp [nodeEncodings] at h
      | [left'] => simp [nodeEncodings] at h
      | [] => rfl

/-- With fuel for its length, a non-empty list climbs to a single digest. -/
theorem length_climb {fuel : Nat} (level : Nat) {digests : List δ} (hne : digests ≠ [])
    (hfuel : digests.length ≤ fuel) : (climb hash node fuel level digests).length = 1 := by
  induction fuel generalizing level digests with
  | zero => exact absurd (List.length_eq_zero_iff.mp (Nat.le_zero.mp hfuel)) hne
  | succ fuel ih =>
      have hpos := List.length_pos_of_ne_nil hne
      unfold climb
      split
      · omega
      · have hlength : ((nodeEncodings node level digests).map hash).length =
            (digests.length + 1) / 2 := by
          rw [List.length_map, length_nodeEncodings]
        apply ih
        · apply List.ne_nil_of_length_pos
          omega
        · omega

/-- Lists of one length that climb to the same digests are equal. -/
theorem climb_injective (node : Nat → δ → Option δ → List UInt8)
    (hnode : ∀ level l r l' r', node level l r = node level l' r' → l = l' ∧ r = r') :
    ∀ (fuel level : Nat) (xs ys : List δ), xs.length = ys.length →
      CollisionFree hash (climbEncodings hash node fuel level xs ++
        climbEncodings hash node fuel level ys) →
      climb hash node fuel level xs = climb hash node fuel level ys → xs = ys := by
  intro fuel
  induction fuel with
  | zero =>
      intro level xs ys _ _ h
      exact h
  | succ fuel ih =>
      intro level xs ys hlength hfree h
      unfold climb at h
      unfold climbEncodings at hfree
      by_cases hone : xs.length ≤ 1
      · rw [if_pos hone, if_pos (by omega)] at h
        exact h
      · have hone' : ¬ ys.length ≤ 1 := by omega
        rw [if_neg hone, if_neg hone'] at h
        rw [if_neg hone, if_neg hone'] at hfree
        have hlevel : ((nodeEncodings node level xs).map hash).length =
            ((nodeEncodings node level ys).map hash).length := by
          rw [List.length_map, List.length_map, length_nodeEncodings, length_nodeEncodings, hlength]
        have hmap := ih (level + 1) _ _ hlevel (hfree.mono fun z hz => by
          rcases List.mem_append.mp hz with hz | hz <;> simp [hz]) h
        have hnodes := (hfree.mono fun z hz => by
          rcases List.mem_append.mp hz with hz | hz <;> simp [hz] :
            CollisionFree hash (nodeEncodings node level xs ++ nodeEncodings node level ys)).map_inj
          hmap
        exact nodeEncodings_injective (hnode level) hnodes

end Tree

end NixCache.Lib.MerkleTree

import Formula.Proofs.Tree

/-! The depth of a tree is found by a traversal instead of recursion: a pending node is taken out and its
children are put in. A round visits one node and leaves the deepest level in reach as it is, so every
traversal ends after as many rounds as there are nodes, whichever node each round takes, and has then found
the height. -/
namespace Formula.Expr

theorem count_eq (e : Expr) : e.count = 1 + countAll e.args := by
  cases e with
  | constant v => simp [count, args, countAll]
  | call name args => simp [count, Expr.args]

theorem heightAll_eq_max (args : List Expr) : heightAll args = (args.map height).max?.getD 0 := by
  induction args with
  | nil => rfl
  | cons e rest ih =>
    rw [heightAll, ih, List.map_cons, List.max?_cons]
    cases (rest.map height).max? <;> simp

/-- The deepest level below the nodes of a work list. -/
def reach : List (Expr × Nat) → Nat
  | [] => 0
  | (node, level) :: rest => max (level + heightAll node.args) (reach rest)

/-- The nodes that a work list still stands for. -/
def remaining : List (Expr × Nat) → Nat
  | [] => 0
  | (node, _) :: rest => node.count + remaining rest

theorem reach_append (first second : List (Expr × Nat)) :
    reach (first ++ second) = max (reach first) (reach second) := by
  induction first with
  | nil => simp [reach]
  | cons head rest ih =>
    simp only [List.cons_append, reach, ih]
    omega

theorem remaining_append (first second : List (Expr × Nat)) :
    remaining (first ++ second) = remaining first + remaining second := by
  induction first with
  | nil => simp [remaining]
  | cons head rest ih =>
    simp only [List.cons_append, remaining, ih]
    omega

theorem reach_perm {first second : List (Expr × Nat)} (same : first.Perm second) :
    reach first = reach second := by
  induction same with
  | nil => rfl
  | cons head _ ih => simp only [reach, ih]
  | swap one other rest =>
    simp only [reach]
    omega
  | trans _ _ here there => exact here.trans there

theorem remaining_perm {first second : List (Expr × Nat)} (same : first.Perm second) :
    remaining first = remaining second := by
  induction same with
  | nil => rfl
  | cons head _ ih => simp only [remaining, ih]
  | swap one other rest =>
    simp only [remaining]
    omega
  | trans _ _ here there => exact here.trans there

theorem remaining_children (args : List Expr) (level : Nat) :
    remaining (args.map (·, level)) = countAll args := by
  induction args with
  | nil => rfl
  | cons e rest ih => simp only [List.map_cons, remaining, countAll, ih]

theorem reach_children (args : List Expr) (level : Nat) :
    max level (reach (args.map (·, level + 1))) = level + heightAll args := by
  induction args with
  | nil => simp [reach, heightAll]
  | cons e rest ih =>
    have top := height_eq e
    simp only [List.map_cons, reach, heightAll]
    omega

theorem remaining_eq_zero_iff {pending : List (Expr × Nat)} : remaining pending = 0 ↔ pending = [] := by
  cases pending with
  | nil => simp [remaining]
  | cons head rest =>
    have := count_eq head.1
    simp [remaining]
    omega

/-- A traversal under way: the deepest level found so far, and the nodes to visit with their levels. -/
structure Traversal where
  found : Nat
  pending : List (Expr × Nat)

namespace Traversal

variable {n : Nat} {state later : Traversal}

def start (e : Expr) : Traversal := ⟨0, [(e, 1)]⟩

/-- One round takes some pending node, whichever, and puts its children anywhere among the others. -/
inductive Round : Traversal → Traversal → Prop
  | visit {found level : Nat} {node : Expr} {pending rest next : List (Expr × Nat)}
      (taken : pending.Perm ((node, level) :: rest))
      (put : next.Perm (node.args.map (·, level + 1) ++ rest)) :
      Round ⟨found, pending⟩ ⟨max found level, next⟩

/-- So many rounds in a row. -/
inductive Rounds : Nat → Traversal → Traversal → Prop
  | none {state : Traversal} : Rounds 0 state state
  | more {n : Nat} {state later last : Traversal} (round : Round state later)
      (rest : Rounds n later last) : Rounds (n + 1) state last

theorem Round.reach (round : Round state later) :
    max later.found (reach later.pending) = max state.found (reach state.pending) := by
  obtain @⟨found, level, node, pending, rest, next, taken, put⟩ := round
  have below := reach_children node.args level
  simp only [reach_perm taken, reach_perm put, reach_append, Expr.reach]
  omega

theorem Round.remaining (round : Round state later) :
    remaining state.pending = remaining later.pending + 1 := by
  obtain @⟨found, level, node, pending, rest, next, taken, put⟩ := round
  have counted := count_eq node
  simp only [remaining_perm taken, remaining_perm put, remaining_append, remaining_children, Expr.remaining]
  omega

theorem Rounds.reach (rounds : Rounds n state later) :
    max later.found (reach later.pending) = max state.found (reach state.pending) := by
  induction rounds with
  | none => rfl
  | more round _ ih => exact ih.trans round.reach

theorem Rounds.remaining (rounds : Rounds n state later) :
    remaining state.pending = remaining later.pending + n := by
  induction rounds with
  | none => rfl
  | more round _ ih =>
    have := round.remaining
    omega

theorem wellFounded_round : WellFounded fun later state => Round state later := by
  refine Subrelation.wf ?_ (measure fun state : Traversal => Expr.remaining state.pending).wf
  intro later state round
  have := round.remaining
  change Expr.remaining later.pending < Expr.remaining state.pending
  omega

theorem exists_round_iff : (∃ later, Round state later) ↔ state.pending ≠ [] := by
  constructor
  · rintro ⟨later, round⟩ done
    have := round.remaining
    simp [done, Expr.remaining] at this
  · intro left
    obtain ⟨found, pending⟩ := state
    obtain ⟨⟨node, level⟩, rest, rfl⟩ := List.exists_cons_of_ne_nil left
    exact ⟨_, .visit (.refl _) (.refl _)⟩

end Traversal

open Traversal

/-- The loop goes through rounds that take the node put in last, until its fuel or the nodes are used up. -/
theorem deepest_rounds (fuel found : Nat) (pending : List (Expr × Nat)) :
    ∃ rest, Rounds (min fuel (remaining pending)) ⟨found, pending⟩ ⟨deepest fuel found pending, rest⟩ := by
  induction fuel generalizing found pending with
  | zero => exact ⟨pending, by simpa [deepest] using .none⟩
  | succ fuel ih =>
    cases pending with
    | nil => exact ⟨[], by simpa [deepest, remaining] using .none⟩
    | cons head rest =>
      obtain ⟨node, level⟩ := head
      have round : Round ⟨found, (node, level) :: rest⟩
          ⟨max found level, (node.args.map (·, level + 1)).reverse ++ rest⟩ :=
        .visit (.refl _) ((List.reverse_perm _).append_right rest)
      obtain ⟨last, rounds⟩ := ih (max found level) ((node.args.map (·, level + 1)).reverse ++ rest)
      have size : min (fuel + 1) (remaining ((node, level) :: rest)) =
          min fuel (remaining ((node.args.map (·, level + 1)).reverse ++ rest)) + 1 := by
        have := round.remaining
        simp only at this
        omega
      exact ⟨last, size ▸ .more round rounds⟩

theorem deepest_traversal {fuel : Nat} {pending : List (Expr × Nat)} (room : remaining pending ≤ fuel)
    (found : Nat) : Rounds (remaining pending) ⟨found, pending⟩ ⟨deepest fuel found pending, []⟩ := by
  obtain ⟨rest, rounds⟩ := deepest_rounds fuel found pending
  rw [Nat.min_eq_right room] at rounds
  have used := rounds.remaining
  simp only at used
  obtain rfl := remaining_eq_zero_iff.1 (by omega : remaining rest = 0)
  exact rounds

/-- With room for every node left, the loop finds the deepest of them. -/
theorem deepest_eq {fuel : Nat} {pending : List (Expr × Nat)} (room : remaining pending ≤ fuel)
    (found : Nat) : deepest fuel found pending = max found (reach pending) := by
  have same := (deepest_traversal room found).reach
  simpa [reach] using same

theorem reach_start (e : Expr) : reach (start e).pending = e.height := by
  have top := height_eq e
  simp only [start, reach]
  omega

theorem remaining_start (e : Expr) : remaining (start e).pending = e.count := by
  simp [start, remaining]

theorem depth_eq_height (e : Expr) : e.depth = e.height := by
  have found : deepest e.count 0 [(e, 1)] = max 0 (reach [(e, 1)]) :=
    deepest_eq (Nat.le_of_eq (remaining_start e)) 0
  rw [depth, found, ← reach_start, start, Nat.zero_max]

/-- The depth of a tree is one for a node without children and otherwise one more than the greatest depth
of its children. No traversal of the tree goes on forever, whichever nodes its rounds take; it stops with
nothing pending, after as many rounds as there are nodes, and has then found the depth; and the loop is
such a traversal, for which that number of rounds or any greater one is allowed. -/
theorem depth_any_order (e : Expr) :
    e.depth = 1 + (e.args.map depth).max?.getD 0 ∧
    WellFounded (fun later state => Round state later) ∧
    (∀ state, (∃ later, Round state later) ↔ state.pending ≠ []) ∧
    (∀ n last, Rounds n (start e) last →
      (last.pending = [] ↔ n = e.count) ∧ (last.pending = [] → last.found = e.depth)) ∧
    ∀ fuel, e.count ≤ fuel →
      Rounds e.count (start e) ⟨deepest fuel 0 [(e, 1)], []⟩ ∧ deepest fuel 0 [(e, 1)] = e.depth := by
  have finds {n : Nat} {last : Traversal} (rounds : Rounds n (start e) last) (done : last.pending = []) :
      last.found = e.depth := by
    have same := rounds.reach
    rw [reach_start, done, ← depth_eq_height] at same
    simpa [reach, start] using same
  refine ⟨?_, wellFounded_round, fun state => exists_round_iff, fun n last rounds => ⟨?_, finds rounds⟩, ?_⟩
  · simp only [funext depth_eq_height, height_eq e, heightAll_eq_max]
  · have used := rounds.remaining
    rw [remaining_start] at used
    rw [← remaining_eq_zero_iff]
    omega
  · intro fuel room
    have enough : remaining (start e).pending ≤ fuel := by rwa [remaining_start]
    have whole := deepest_traversal enough 0
    rw [remaining_start] at whole
    exact ⟨whole, finds whole rfl⟩

def magnitude : Expr := .call "+" [.call "abs" [.constant (.int 1)], .constant (.int 2)]

/-- Level by level: the second argument is visited between the call of `abs` and its argument, whereas the
loop visits it first. -/
theorem depth_any_order_levels :
    Rounds 4 (start magnitude) ⟨3, []⟩ ∧ magnitude.count = 4 ∧ magnitude.depth = 3 := by
  have levels : Rounds 4 (start magnitude) ⟨3, []⟩ :=
    .more (.visit (.refl _) (.refl _)) <| .more (.visit (.refl _) (.swap _ _ _)) <|
      .more (.visit (.refl _) (.refl _)) <| .more (.visit (.refl _) (.refl _)) .none
  obtain ⟨_, _, _, finds, _⟩ := depth_any_order magnitude
  obtain ⟨counted, found⟩ := finds 4 _ levels
  exact ⟨levels, (counted.1 rfl).symm, (found rfl).symm⟩

end Formula.Expr

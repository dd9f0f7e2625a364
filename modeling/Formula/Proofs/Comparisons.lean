import Formula.Proofs.Equality
import Formula.Proofs.Fallbacks

/-! Comparisons of values. Two numbers compare, or two strings; the order turns round with its operands, and
comes to equal exactly where equality does, so that the comparison functions tell one story. -/
namespace Formula

namespace Binary64

theorem order?_swap (x y : Float) : order? y x = (order? x y).map Ordering.swap := by
  rw [order?_eq, order?_eq]
  cases extended? x with
  | none => cases extended? y <;> rfl
  | some v =>
    cases extended? y with
    | none => rfl
    | some w => exact congrArg some (cmp_swap v w).symm

theorem isSome_order?_iff {x y : Float} :
    (order? x y).isSome = true ↔ x.isNaN = false ∧ y.isNaN = false := by
  rw [order?_eq, ← Bool.not_eq_true, ← Bool.not_eq_true, ← extended?_eq_none_iff, ← extended?_eq_none_iff]
  cases extended? x <;> cases extended? y <;> simp

theorem isNaN_ofInt (word : Int64) : (Float.ofInt word.toInt).isNaN = false := by
  obtain ⟨v, denoted, -⟩ := nearest_int64 word
  rw [← Bool.not_eq_true, ← extended?_eq_none_iff, extended?_of_rational denoted]
  exact Option.some_ne_none _

end Binary64

namespace Value

theorem order?_swap (a b : Value) : b.order? a = (a.order? b).map Ordering.swap := by
  cases a with
  | int m =>
    cases b with
    | int n => exact congrArg some Std.OrientedCmp.eq_swap
    | float y => exact Binary64.order?_swap _ _
    | _ => rfl
  | float x =>
    cases b with
    | int n => exact Binary64.order?_swap _ _
    | float y => exact Binary64.order?_swap _ _
    | _ => rfl
  | str s =>
    cases b with
    | str t => exact congrArg some Std.OrientedCmp.eq_swap
    | _ => rfl
  | _ => cases b <;> rfl

/-- Two numbers compare, or two strings. -/
def Comparable (a b : Value) : Prop :=
  (a.isNumber = true ∧ a.NanFree) ∧ (b.isNumber = true ∧ b.NanFree) ∨ ∃ s t, a = .str s ∧ b = .str t

theorem isSome_order?_iff {a b : Value} : (a.order? b).isSome = true ↔ a.Comparable b := by
  cases a <;> cases b <;> simp only [order?, Comparable, isNumber, NanFree, Binary64.isSome_order?_iff,
    Binary64.isNaN_ofInt, Option.isSome_some, Option.isSome_none] <;> simp

theorem order?_eq_iff_looseEq {a b : Value} (comparable : a.Comparable b) :
    a.order? b = some .eq ↔ a.looseEq b = true := by
  cases a <;> cases b <;> simp_all [order?, looseEq, Comparable, isNumber, Binary64.beq_iff_order?]

theorem Comparable.passes {a b : Value} (comparable : a.Comparable b) :
    Check.numberOrString.passes a = true ∧ Check.numberOrString.passes b = true := by
  obtain ⟨⟨left, _⟩, right, _⟩ | ⟨s, t, rfl, rfl⟩ := comparable
  · exact ⟨Builtins.numberOrString_of_number left, Builtins.numberOrString_of_number right⟩
  · exact ⟨rfl, rfl⟩

end Value

namespace Expr

open Builtins

variable {options : Options} {depth : Nat} {memory : Memory} {x y : Expr} {a b : Value}

theorem evalAt_notEqual (left : x.evalAt .builtins options (depth + 1) memory = .ok a)
    (right : y.evalAt .builtins options (depth + 1) memory = .ok b) :
    (call "!=" [x, y]).evalAt .builtins options depth memory = .ok (.bool (!a.looseEq b)) := by
  have found : Registry.builtins.find? "!=" = some ⟨"!=", .boolean, .binary,
      strict none (binary notEqual)⟩ := by
    rw [Registry.builtins_eq]
    rfl
  obtain ⟨use, computed⟩ := evalAt_strict_binary found (by rfl) ⟨left, Check.admits_none _⟩
    ⟨right, Check.admits_none _⟩
  exact computed

theorem evalAt_ordered (name : String) (accepted : List Ordering) {order : Ordering}
    (found : Registry.builtins.find? name = some (comparison name accepted))
    (left : x.evalAt .builtins options (depth + 1) memory = .ok a)
    (right : y.evalAt .builtins options (depth + 1) memory = .ok b) (compared : a.order? b = some order) :
    (call name [x, y]).evalAt .builtins options depth memory = .ok (.bool (accepted.contains order)) := by
  obtain ⟨first, second⟩ := (Value.isSome_order?_iff.1 (compared ▸ Option.isSome_some)).passes
  obtain ⟨use, computed⟩ := evalAt_strict_binary found (by rfl) ⟨left, Check.admits_some first⟩
    ⟨right, Check.admits_some second⟩
  rw [computed, ordered, compared]
  rfl

/-- One of less, equal and greater is true, and the other three functions follow from these. -/
def OneStory (comes : String → Bool → Prop) : Prop :=
  ∃ less equal greater : Bool, [less, equal, greater].count true = 1 ∧
    comes "<" less ∧ comes "==" equal ∧ comes ">" greater ∧
    comes "<=" (less || equal) ∧ comes ">=" (greater || equal) ∧ comes "!=" (!equal)

theorem oneStory (left : x.evalAt .builtins options (depth + 1) memory = .ok a)
    (right : y.evalAt .builtins options (depth + 1) memory = .ok b) (comparable : a.Comparable b) :
    OneStory fun name truth =>
      (call name [x, y]).evalAt .builtins options depth memory = .ok (.bool truth) := by
  obtain ⟨order, compared⟩ := Option.isSome_iff_exists.1 (Value.isSome_order?_iff.2 comparable)
  have equal : a.looseEq b = (order == .eq) := by
    rw [Bool.eq_iff_iff, ← Value.order?_eq_iff_looseEq comparable, compared, Option.some_inj, beq_iff_eq]
  have same := evalAt_equal left right
  have other := evalAt_notEqual left right
  have less := evalAt_ordered "<" [.lt] (by rw [Registry.builtins_eq]; rfl) left right compared
  have greater := evalAt_ordered ">" [.gt] (by rw [Registry.builtins_eq]; rfl) left right compared
  have atMost := evalAt_ordered "<=" [.lt, .eq] (by rw [Registry.builtins_eq]; rfl) left right compared
  have atLeast := evalAt_ordered ">=" [.gt, .eq] (by rw [Registry.builtins_eq]; rfl) left right compared
  rw [equal] at same other
  refine ⟨_, _, _, ?_, less, same, greater, atMost.trans ?_, atLeast.trans ?_, other⟩ <;>
    cases order <;> rfl

/-- Equality and order tell one story. Equality is symmetric, holds of a value and itself exactly where no
double in it is other than a number, and holds of two objects that have the same keys with equal values.
Two values have an order exactly if both are numbers or both are strings; it turns round with them, and
is that of equals where they are equal. So of two such operands one of less, equal and greater is true, and
the other functions follow from these; and of all operands inequality is the opposite of equality. -/
theorem equality_order_agree :
    (∀ a b : Value, a.looseEq b = b.looseEq a) ∧
    (∀ a : Value, a.looseEq a = true ↔ a.NanFree) ∧
    (∀ as bs : List (String × Value), Fields.Ascending as → Fields.Ascending bs →
      ((Value.object as).looseEq (.object bs) = true ↔ Value.SameFields as bs)) ∧
    (∀ a b : Value, (a.order? b).isSome = true ↔ a.Comparable b) ∧
    (∀ a b : Value, b.order? a = (a.order? b).map Ordering.swap) ∧
    (∀ a b : Value, a.Comparable b → (a.order? b = some .eq ↔ a.looseEq b = true)) ∧
    (∀ options depth memory x y (a b : Value),
      evalAt .builtins options x (depth + 1) memory = .ok a →
      evalAt .builtins options y (depth + 1) memory = .ok b →
        (∃ equal, (call "==" [x, y]).evalAt .builtins options depth memory = .ok (.bool equal) ∧
          (call "!=" [x, y]).evalAt .builtins options depth memory = .ok (.bool !equal)) ∧
        (a.Comparable b → OneStory fun name truth =>
          (call name [x, y]).evalAt .builtins options depth memory = .ok (.bool truth))) := by
  refine ⟨Value.looseEq_comm, Value.looseEq_self_iff, ?_, ?_, Value.order?_swap, ?_, ?_⟩
  · intro as bs ascending ascending'
    exact Value.looseEq_object_iff_same ascending ascending'
  · intro a b
    exact Value.isSome_order?_iff
  · intro a b comparable
    exact Value.order?_eq_iff_looseEq comparable
  · intro options depth memory x y a b left right
    exact ⟨⟨_, evalAt_equal left right, evalAt_notEqual left right⟩, oneStory left right⟩

/-- An integer that is no double is equal to the one it is rounded to and neither less nor greater, and
members that are zeros are the same whatever their sign. -/
theorem equality_order_agree_rounded :
    let odd : Value := .int 9007199254740993
    let even : Value := .float 9007199254740992
    odd.Comparable even ∧ odd.order? even = some .eq ∧
    Value.SameFields [("a", .float 0.0), ("b", .int 1)] [("a", .float (-0.0)), ("b", .float 1)] ∧
    OneStory fun name truth =>
      (call name [.constant odd, .constant even]).eval .builtins {} .empty = .ok (.bool truth) := by
  intro odd even
  have value (v : Value) : (Expr.constant v).evalAt .builtins {} (0 + 1) .empty = .ok v :=
    evalAt_constant (by decide) _ _
  obtain ⟨_, _, objects, places, _, equals, functions⟩ := equality_order_agree
  have comparable : odd.Comparable even := (places odd even).1 (by decide +kernel)
  refine ⟨comparable, (equals odd even comparable).2 (by decide +kernel), ?_, ?_⟩
  · have ascending (v w : Value) : Fields.Ascending [("a", v), ("b", w)] :=
      List.pairwise_pair.2 (show "a" < "b" by decide)
    exact (objects _ _ (ascending _ _) (ascending _ _)).1 (by decide +kernel)
  · exact (functions {} 0 .empty _ _ odd even (value odd) (value even)).2 comparable

end Expr

end Formula

import Formula.Proofs.Connectives
import Formula.Proofs.Extremes
import Formula.Proofs.IntegerArithmetic

/-! Calls of a function inside a call of the same function. A connective or `coalesce` may take the
arguments of such a call in the place of the call, errors included. An operator and an extreme fold their
arguments from the left, so they may take those of a call in the first place: then the values agree, while
an error may be another, because the inner call computes before the later arguments are evaluated. -/
namespace Formula

section Folds

variable {step : Value → Value → Except Fault Value}

theorem foldArgs_append_iff {first rest : List Value} {w : Value} : ∀ {acc : Value},
    foldArgs step acc (first ++ rest) = .ok w ↔
      ∃ v, foldArgs step acc first = .ok v ∧ foldArgs step v rest = .ok w := by
  induction first with
  | nil => simp [foldArgs]
  | cons u first ih =>
    intro acc
    simp only [List.cons_append, foldArgs]
    cases step acc u with
    | error fault => simp
    | ok next => exact ih

theorem passes_foldArgs {demand : Check} (closed : ∀ a b v, demand.passes a = true → demand.passes b = true →
      step a b = .ok v → demand.passes v = true) {rest : List Value} {v : Value}
    (passes : ∀ w ∈ rest, demand.passes w = true) : ∀ {acc : Value}, demand.passes acc = true →
      foldArgs step acc rest = .ok v → demand.passes v = true := by
  induction rest with
  | nil =>
    rintro acc start ⟨⟩
    exact start
  | cons w rest ih =>
    intro acc start folded
    obtain ⟨here, later⟩ := List.forall_mem_cons.1 passes
    simp only [foldArgs] at folded
    cases next : step acc w with
    | error fault => simp [next] at folded
    | ok u =>
      simp only [next] at folded
      exact ih later (closed acc w u start here next) folded

end Folds

/-- The function folds a step over its arguments, and the step stays with the values that its check lets
through. -/
structure Builtins.Folds (name : String) (demand : Check) (step : Value → Value → Except Fault Value) :
    Prop where
  logic : ∃ function compute, Registry.builtins.find? name = some function ∧
    function.logic = strict (some demand) compute ∧
    ∀ call first rest, compute call (first :: rest) = foldArgs step first rest
  closed : ∀ a b v, demand.passes a = true → demand.passes b = true → step a b = .ok v →
    demand.passes v = true

namespace Builtins

theorem Operator.folds (op : Operator) : Folds op.name op.demand op.apply where
  logic := by
    obtain ⟨function, found, logic⟩ := Expr.find?_operator op
    exact ⟨function, _, found, logic, fun _ _ _ => rfl⟩
  closed := by
    cases op with
    | plus => exact independent_add.closed
    | minus => exact numeric_subtract.independent.closed
    | times => exact numeric_multiply.independent.closed
    | quotient => exact numeric_divide.independent.closed

theorem foldArgs_keep (extreme : Extreme) (rest : List Value) : ∀ best,
    foldArgs (fun best v => .ok (extreme.keep best v)) best rest =
      .ok (rest.foldl extreme.keep best) := by
  induction rest with
  | nil => exact fun _ => rfl
  | cons v rest ih => exact fun best => ih (extreme.keep best v)

theorem Extreme.folds (extreme : Extreme) :
    Folds extreme.name .number fun best v => .ok (extreme.keep best v) where
  logic := by
    obtain ⟨function, found, logic⟩ := Expr.find?_extreme extreme
    refine ⟨function, _, found, logic, fun _ first rest => ?_⟩
    rw [apply_cons, foldArgs_keep]
  closed := by
    rintro a b v left right ⟨⟩
    rcases extreme.keep_mem a b with kept | kept
    · rwa [kept]
    · rwa [kept]

end Builtins

namespace Expr

open Builtins

variable {options : Options} {depth : Nat} {memory : Memory}

theorem calm_argument {name : String} {function : Function} {check : Option Check} {compute : Compute}
    {e : Expr} {rest : List Expr} (found : Registry.builtins.find? name = some function)
    (logic : function.logic = strict check compute)
    (calm : Calm ((call name (e :: rest)).evalAt .builtins options depth memory)) :
    Calm (e.evalAt .builtins options (depth + 1) memory) := by
  have room := room_of_calm calm
  have known : Registry.builtins.find? (call name (e :: rest)).name = some function := found
  rw [evalAt_eq, Registry.enter_known room known, logic, strict, args, gather,
    Plan.run_present (by rfl)] at calm
  exact calm.of_bind

section Folds

variable {name : String} {demand : Check} {step : Value → Value → Except Fault Value}

/-- When a call of a folding function comes to a value. -/
theorem evalAt_folds_iff (folds : Folds name demand step) {args : List Expr} (present : args ≠ [])
    {w : Value} : (call name args).evalAt .builtins options depth memory = .ok w ↔
      depth < options.maxDepth ∧ ∃ first rest,
        Gathered (some demand) (fun arg scope => arg.evalAt .builtins options (depth + 1) scope) memory
          args (first :: rest) ∧ foldArgs step first rest = .ok w := by
  obtain ⟨function, compute, found, logic, computes⟩ := folds.logic
  rw [evalAt_strict_iff found logic]
  refine and_congr_right fun _ => ?_
  constructor
  · rintro ⟨values, gathered, computed⟩
    cases values with
    | nil => exact absurd (List.forall₂_nil_right_iff.1 gathered) present
    | cons first rest => exact ⟨first, rest, gathered, computes _ _ _ ▸ computed⟩
  · rintro ⟨first, rest, gathered, folded⟩
    exact ⟨_, gathered, (computes _ _ _).trans folded⟩

/-- The arguments of a call in the first place of a call of the same function may be folded in its place. -/
theorem evalAt_regroup (folds : Folds name demand step) {inner : List Expr} (present : inner ≠ [])
    (after : List Expr)
    (calm : Calm ((call name (call name inner :: after)).evalAt .builtins options depth memory)) (w : Value) :
    (call name (call name inner :: after)).evalAt .builtins options depth memory = .ok w ↔
      (call name (inner ++ after)).evalAt .builtins options depth memory = .ok w := by
  obtain ⟨function, compute, found, logic, -⟩ := folds.logic
  -- One level nearer to the root, the inner call has its arguments where the flat call has them.
  have nearer : CutOf ((call name inner).evalAt .builtins options (depth + 1) memory)
      ((call name inner).evalAt .builtins options depth memory) := evalAt_cutOf _ (Nat.le_succ depth) memory
  rw [evalAt_folds_iff folds (List.cons_ne_nil _ _), evalAt_folds_iff folds (by simp [present])]
  refine and_congr_right fun room => ?_
  constructor
  · rintro ⟨v, rest, gathered, folded⟩
    obtain ⟨⟨value, -⟩, others⟩ := List.forall₂_cons.1 gathered
    beta_reduce at value
    rw [value] at nearer
    obtain ⟨-, first, firsts, inside, total⟩ := (evalAt_folds_iff folds present).1 nearer.ok
    exact ⟨first, firsts ++ rest, gathered_append_iff.2 ⟨first :: firsts, rest, rfl, inside, others⟩,
      foldArgs_append_iff.2 ⟨v, total, folded⟩⟩
  · rintro ⟨u, _, gathered, folded⟩
    obtain ⟨before, rest, split, inside, others⟩ := gathered_append_iff.1 gathered
    cases before with
    | nil => exact absurd (List.forall₂_nil_right_iff.1 inside) present
    | cons _ firsts =>
      obtain ⟨rfl, rfl⟩ := List.cons.inj split
      obtain ⟨v, total, folded⟩ := foldArgs_append_iff.1 folded
      have value : (call name inner).evalAt .builtins options (depth + 1) memory = .ok v :=
        (nearer (calm_argument found logic calm)).trans
          ((evalAt_folds_iff folds present).2 ⟨room, u, firsts, inside, total⟩)
      obtain ⟨start, later⟩ := List.forall_mem_cons.1 inside.passes
      have passes := passes_foldArgs folds.closed later start total
      exact ⟨v, rest, .cons ⟨value, Check.admits_some passes⟩ others, folded⟩

end Folds

/-- A call inside a call of the same function agrees with one call of all the arguments, unless it
overflows the depth limit. For the connectives and `coalesce`, wherever the inner call stands, the two come
to the same value or the same error. For the operators and extremes, with the inner call in the first place,
they come to the same values; an error may be another, because the flat call checks its later arguments
before it computes. -/
theorem nested_agree (options : Options) (depth : Nat) (memory : Memory) :
    (∀ (search : Search) (before inner after : List Expr),
      let nested := call search.name (before ++ call search.name inner :: after)
      let flat := call search.name (before ++ inner ++ after)
      Calm (nested.evalAt .builtins options depth memory) →
        nested.evalAt .builtins options depth memory = flat.evalAt .builtins options depth memory) ∧
    (∀ (op : Operator) (inner after : List Expr),
      let nested := call op.name (call op.name inner :: after)
      let flat := call op.name (inner ++ after)
      inner ≠ [] → Calm (nested.evalAt .builtins options depth memory) →
        ∀ w, nested.evalAt .builtins options depth memory = .ok w ↔
          flat.evalAt .builtins options depth memory = .ok w) ∧
    (∀ (extreme : Extreme) (inner after : List Expr),
      let nested := call extreme.name (call extreme.name inner :: after)
      let flat := call extreme.name (inner ++ after)
      inner ≠ [] → Calm (nested.evalAt .builtins options depth memory) →
        ∀ w, nested.evalAt .builtins options depth memory = .ok w ↔
          flat.evalAt .builtins options depth memory = .ok w) := by
  refine ⟨fun search => evalAt_splice search, fun op inner after present => ?_,
    fun extreme inner after present => ?_⟩
  · exact evalAt_regroup op.folds present after
  · exact evalAt_regroup extreme.folds present after

/-- An argument that fails behind the one that decides, for `coalesce` and `||`; an addition that becomes a
concatenation on the way; and the least of three numbers. -/
theorem nested_agree_cases :
    let search := call "coalesce" [constant .null, call "coalesce" [constant .null, constant (.int 1)],
      call "unknown" []]
    let choice := call "||" [constant (.bool false), call "||" [constant .null, constant (.int 1)],
      call "unknown" []]
    let sum := call "+" [call "+" [constant (.int 1), constant (.str "a")], constant (.int 2)]
    let least := call "min" [call "min" [constant (.int 3), constant (.int 1)], constant (.int 2)]
    (Calm (search.evalAt .builtins {} 0 .empty) ∧
      (call "coalesce" [constant .null, constant .null, constant (.int 1), call "unknown" []]).evalAt
        .builtins {} 0 .empty = .ok (.int 1)) ∧
    (Calm (choice.evalAt .builtins {} 0 .empty) ∧
      (call "||" [constant (.bool false), constant .null, constant (.int 1), call "unknown" []]).evalAt
        .builtins {} 0 .empty = .ok (.bool true)) ∧
    (Calm (sum.evalAt .builtins {} 0 .empty) ∧
      (call "+" [constant (.int 1), constant (.str "a"), constant (.int 2)]).evalAt .builtins {} 0 .empty =
        .ok (.str "1a2")) ∧
    (Calm (least.evalAt .builtins {} 0 .empty) ∧
      (call "min" [constant (.int 3), constant (.int 1), constant (.int 2)]).evalAt .builtins {} 0 .empty =
        .ok (.int 1)) := by
  intro search choice sum least
  have found : search.evalAt .builtins {} 0 .empty = .ok (.int 1) :=
    Outcome.eq_int (by rw [Registry.builtins_eq]; decide +kernel)
  have chosen : choice.evalAt .builtins {} 0 .empty = .ok (.bool true) :=
    Outcome.eq_bool (by rw [Registry.builtins_eq]; decide +kernel)
  have summed : sum.evalAt .builtins {} 0 .empty = .ok (.str "1a2") :=
    Outcome.eq_str (by rw [Registry.builtins_eq]; decide +kernel)
  have smallest : least.evalAt .builtins {} 0 .empty = .ok (.int 1) :=
    Outcome.eq_int (by rw [Registry.builtins_eq]; decide +kernel)
  obtain ⟨searches, operators, extremes⟩ := nested_agree {} 0 .empty
  have calm {e : Expr} {v : Value} (value : e.evalAt .builtins {} 0 .empty = .ok v) :
      Calm (e.evalAt .builtins {} 0 .empty) := value ▸ calm_ok v
  refine ⟨⟨calm found, ?_⟩, ⟨calm chosen, ?_⟩, ⟨calm summed, ?_⟩, ⟨calm smallest, ?_⟩⟩
  · exact (searches .present [constant .null] [constant .null, constant (.int 1)] [call "unknown" []]
      (calm found)).symm.trans found
  · exact (searches (.truth true) [constant (.bool false)] [constant .null, constant (.int 1)]
      [call "unknown" []] (calm chosen)).symm.trans chosen
  · exact (operators .plus [constant (.int 1), constant (.str "a")] [constant (.int 2)]
      (List.cons_ne_nil _ _) (calm summed) _).1 summed
  · exact (extremes .least [constant (.int 3), constant (.int 1)] [constant (.int 2)]
      (List.cons_ne_nil _ _) (calm smallest) _).1 smallest

end Expr

end Formula

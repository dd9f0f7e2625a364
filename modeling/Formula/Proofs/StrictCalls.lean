import Formula.Proofs.Endings
import Mathlib.Data.List.Forall2

/-! Strict calls. A strict call comes to a value exactly when all its arguments do, each is admitted by
the check, and the computation on their values comes to it. -/
namespace Formula

/-- The values that the arguments of a strict call come to over this memory. -/
def Gathered (check : Option Check) (evaluate : Expr → Memory → Outcome) (memory : Memory) :
    List Expr → List Value → Prop :=
  List.Forall₂ fun arg v => evaluate arg memory = .ok v ∧ Check.Admits check v

theorem gathered_of_passes {demand : Check} {evaluate : Expr → Memory → Outcome} {memory : Memory}
    {args : List Expr} {values : List Value}
    (evaluated : List.Forall₂ (fun arg v => evaluate arg memory = .ok v) args values)
    (passes : ∀ v ∈ values, demand.passes v = true) : Gathered (some demand) evaluate memory args values := by
  induction evaluated with
  | nil => exact .nil
  | cons value _ ih =>
    obtain ⟨here, later⟩ := List.forall_mem_cons.1 passes
    exact .cons ⟨value, Check.admits_some here⟩ (ih later)

theorem Gathered.passes {demand : Check} {evaluate : Expr → Memory → Outcome} {memory : Memory}
    {args : List Expr} {values : List Value} (gathered : Gathered (some demand) evaluate memory args values) :
    ∀ v ∈ values, demand.passes v = true := by
  induction gathered with
  | nil => simp
  | cons first _ ih => exact List.forall_mem_cons.2 ⟨first.2 demand rfl, ih⟩

theorem gathered_append_iff {check : Option Check} {evaluate : Expr → Memory → Outcome} {memory : Memory}
    {first rest : List Expr} {values : List Value} :
    Gathered check evaluate memory (first ++ rest) values ↔
      ∃ before after, values = before ++ after ∧ Gathered check evaluate memory first before ∧
        Gathered check evaluate memory rest after := by
  constructor
  · intro gathered
    have before := List.forall₂_take first.length gathered
    have after := List.forall₂_drop first.length gathered
    rw [List.take_left] at before
    rw [List.drop_left] at after
    exact ⟨_, _, (List.take_append_drop first.length values).symm, before, after⟩
  · rintro ⟨before, after, rfl, left, right⟩
    exact List.rel_append left right

section Gathering

variable {check : Option Check} {evaluate : Expr → Memory → Outcome} {memory : Memory}

theorem gather_ok_iff {next : List Value → Plan} {arg : Expr} {rest done : List Expr}
    {seen : List Value} {w : Value} :
    (gather check none next (arg :: rest) done.length seen).run memory
        ((done ++ arg :: rest).map evaluate) = .ok w ↔
      ∃ v, (evaluate arg memory = .ok v ∧ Check.Admits check v) ∧
        (gather check none next rest (done.length + 1) (v :: seen)).run memory
          ((done ++ arg :: rest).map evaluate) = .ok w := by
  have present : (done ++ arg :: rest)[done.length]? = some arg := by simp
  rw [gather, Plan.run_present present, Memory.extend]
  cases value : evaluate arg memory with
  | error e => simp [Except.bind]
  | ok v =>
    cases check with
    | none => simp [Except.bind, Check.Admits]
    | some demand =>
      by_cases passes : demand.passes v = true <;>
        simp [Except.bind, Check.Admits, passes, Plan.fail, Plan.run]

theorem run_gather_iff {next : List Value → Plan} {w : Value} (rest : List Expr) : ∀ done seen,
    (gather check none next rest done.length seen).run memory ((done ++ rest).map evaluate) = .ok w ↔
      ∃ values, Gathered check evaluate memory rest values ∧
        (next (seen.reverse ++ values)).run memory ((done ++ rest).map evaluate) = .ok w := by
  -- By induction on the arguments still to come; `done` are the values of those before them.
  induction rest with
  | nil => simp [gather, Gathered]
  | cons arg rest ih =>
    intro done seen
    have later (v : Value) := ih (done ++ [arg]) (v :: seen)
    simp only [List.length_append, List.length_singleton, List.append_assoc, List.singleton_append,
      List.reverse_cons] at later
    simp only [gather_ok_iff, later, Gathered, List.forall₂_cons_left_iff]
    constructor
    · rintro ⟨v, first, values, others, value⟩
      exact ⟨v :: values, ⟨v, values, first, others, rfl⟩, value⟩
    · rintro ⟨_, ⟨v, values, first, others, rfl⟩, value⟩
      exact ⟨v, first, values, others, value⟩

theorem run_gather_of_gathered {next : List Value → Plan} {rest : List Expr} {values : List Value}
    (gathered : Gathered check evaluate memory rest values) : ∀ done seen,
    (gather check none next rest done.length seen).run memory ((done ++ rest).map evaluate) =
      (next (seen.reverse ++ values)).run memory ((done ++ rest).map evaluate) := by
  induction gathered with
  | nil => simp [gather]
  | @cons arg v rest values first others ih =>
    intro done seen
    have present : (done ++ arg :: rest)[done.length]? = some arg := by simp
    have later := ih (done ++ [arg]) (v :: seen)
    simp only [List.length_append, List.length_singleton, List.append_assoc, List.singleton_append,
      List.reverse_cons] at later
    rw [gather, Plan.run_present present, Memory.extend, first.1, Except.bind]
    cases check with
    | none => exact later
    | some demand =>
      simp only [first.2 demand rfl, if_true]
      exact later

theorem run_done_iff {result : Except Fault Value} {children : List (Memory → Outcome)} {w : Value} :
    (Plan.done result).run memory children = .ok w ↔ result = .ok w := by
  cases result <;> simp [Plan.run]

end Gathering

section Computing

variable {call : Call} {args : List Value} {w : Value}

theorem mapError_ok_iff {α ε δ : Type} {f : ε → δ} {result : Except ε α} {a : α} :
    result.mapError f = .ok a ↔ result = .ok a := by
  cases result <;> simp [Except.mapError]

theorem converted_ok_iff {α : Type} {result : Except CastError α} {a : α} :
    converted call result = .ok a ↔ result = .ok a := by
  cases result <;> simp [converted]

end Computing

/-- A strict call whose arguments come to admitted values comes to what is computed from them. It lies
within the depth limit as its first argument does. -/
theorem Expr.evalAt_strict {options : Options} {name : String} {args : List Expr}
    {function : Function} {check : Option Check} {compute : Compute} {depth : Nat} {memory : Memory}
    {values : List Value} (found : Registry.builtins.find? name = some function)
    (logic : function.logic = strict check compute) (present : values ≠ [])
    (gathered : Gathered check (fun arg scope => arg.evalAt .builtins options (depth + 1) scope) memory
      args values) :
    (call name args).evalAt .builtins options depth memory =
      (compute ⟨call name args, options, depth + 1, Registry.builtins.size⟩ values).mapError .fault := by
  have room : depth < options.maxDepth := by
    cases gathered with
    | nil => exact absurd rfl present
    | cons first _ =>
      have := room_of_ok first.1
      omega
  have known : Registry.builtins.find? (call name args).name = some function := found
  rw [evalAt_eq, Registry.enter_known room known, logic, strict]
  refine (run_gather_of_gathered gathered [] []).trans ?_
  simp only [List.reverse_nil, List.nil_append]
  cases compute ⟨call name args, options, depth + 1, Registry.builtins.size⟩ values <;> rfl

theorem Expr.evalAt_strict_unary {options : Options} {name : String} {x : Expr} {function : Function}
    {check : Option Check} {compute : Call → Value → Except Fault Value} {depth : Nat} {memory : Memory}
    {a : Value} (found : Registry.builtins.find? name = some function)
    (logic : function.logic = strict check (unary compute))
    (argument : x.evalAt .builtins options (depth + 1) memory = .ok a ∧ Check.Admits check a) :
    ∃ use : Call, use.options = options ∧
      (call name [x]).evalAt .builtins options depth memory = (compute use a).mapError .fault := by
  refine ⟨⟨call name [x], options, depth + 1, Registry.builtins.size⟩, rfl, ?_⟩
  rw [evalAt_strict found logic (by simp) (.cons argument .nil), unary]

theorem Expr.evalAt_strict_binary {options : Options} {name : String} {x y : Expr} {function : Function}
    {check : Option Check} {compute : Call → Value → Value → Except Fault Value} {depth : Nat}
    {memory : Memory} {a b : Value} (found : Registry.builtins.find? name = some function)
    (logic : function.logic = strict check (binary compute))
    (left : x.evalAt .builtins options (depth + 1) memory = .ok a ∧ Check.Admits check a)
    (right : y.evalAt .builtins options (depth + 1) memory = .ok b ∧ Check.Admits check b) :
    ∃ use, (call name [x, y]).evalAt .builtins options depth memory =
      (compute use a b).mapError .fault := by
  refine ⟨⟨call name [x, y], options, depth + 1, Registry.builtins.size⟩, ?_⟩
  rw [evalAt_strict found logic (by simp) (.cons left (.cons right .nil)), binary]

/-- When a strict call comes to a value. -/
theorem Expr.evalAt_strict_iff {options : Options} {name : String} {args : List Expr}
    {function : Function} {check : Option Check} {compute : Compute} {depth : Nat} {memory : Memory}
    {w : Value} (found : Registry.builtins.find? name = some function)
    (logic : function.logic = strict check compute) :
    (call name args).evalAt .builtins options depth memory = .ok w ↔
      depth < options.maxDepth ∧ ∃ values,
        Gathered check (fun arg scope => arg.evalAt .builtins options (depth + 1) scope) memory args
          values ∧
        compute ⟨call name args, options, depth + 1, Registry.builtins.size⟩ values = .ok w := by
  rw [evalAt_eq]
  rcases Nat.lt_or_ge depth options.maxDepth with room | limit
  · have known : Registry.builtins.find? (call name args).name = some function := found
    rw [Registry.enter_known room known, logic, strict]
    refine (run_gather_iff args [] []).trans ?_
    simp [run_done_iff, room]
  · rw [Registry.enter_at_limit limit]
    simp [Nat.not_lt.2 limit]

end Formula

import Formula.Builtins.All
import Formula.Proofs.Evaluation

/-! How a plan can end. `Plan.Ends` looks at every ending that a plan may come to, whatever the
values of its children turn out to be, so it speaks about a function alone; what it says carries
over to every run of the plan. -/
namespace Formula

namespace Plan

/-- Every ending has the property, for all values of the children and the answers of this memory. -/
def Ends (memory : Memory) (property : Except Fault Value → Prop) : Plan → Prop
  | .done result => property result
  | .child _ _ next => ∀ v, (next v).Ends memory property
  | .read path next => (next (memory.resolve path)).Ends memory property

variable {memory : Memory} {property : Except Fault Value → Prop}

theorem Ends.run {plan : Plan} (ends : plan.Ends memory property) {evaluate : Expr → Memory → Outcome}
    {args : List Expr} {e : EvalError} (failed : plan.run memory (args.map evaluate) = .error e) :
    (∃ child ∈ args, ∃ bindings, evaluate child (memory.extend bindings) = .error e) ∨
      ∃ fault, e = .fault fault ∧ property (.error fault) := by
  induction plan with
  | done result =>
    cases result with
    | ok v => simp [Plan.run] at failed
    | error fault =>
      simp only [Plan.run, Except.error.injEq] at failed
      exact .inr ⟨fault, failed.symm, ends⟩
  | child index bindings next ih =>
    cases present : args[index]? with
    | none =>
      rw [run_absent present] at failed
      exact ih .null (ends .null) failed
    | some child =>
      rw [run_present present] at failed
      cases value : evaluate child (memory.extend bindings) with
      | error first =>
        simp only [value, Except.bind, Except.error.injEq] at failed
        exact .inl ⟨child, List.mem_of_getElem? present, bindings, failed ▸ value⟩
      | ok v =>
        simp only [value, Except.bind] at failed
        exact ih v (ends v) failed
  | read path next ih => exact ih _ ends failed

theorem Ends.run_ok {plan : Plan} (ends : plan.Ends memory property) {evaluate : Expr → Memory → Outcome}
    {args : List Expr} {v : Value} (value : plan.run memory (args.map evaluate) = .ok v) :
    property (.ok v) := by
  induction plan with
  | done result =>
    cases result with
    | ok w =>
      simp only [Plan.run, Except.ok.injEq] at value
      exact value ▸ ends
    | error fault => simp [Plan.run] at value
  | child index bindings next ih =>
    cases present : args[index]? with
    | none =>
      rw [run_absent present] at value
      exact ih .null (ends .null) value
    | some child =>
      rw [run_present present] at value
      cases below : evaluate child (memory.extend bindings) with
      | error first => simp [below, Except.bind] at value
      | ok w =>
        simp only [below, Except.bind] at value
        exact ih w (ends w) value
  | read path next ih => exact ih _ ends value

theorem ends_of_always (always : ∀ result, property result) (plan : Plan) :
    plan.Ends memory property := by
  induction plan with
  | done result => exact always result
  | child index bindings next ih => exact ih
  | read path next ih => exact ih _

end Plan

/-- The values that get past the check of a function, if it has one. -/
def Check.Admits (check : Option Check) (v : Value) : Prop :=
  ∀ demand, check = some demand → demand.passes v = true

theorem Check.admits_none (v : Value) : Check.Admits none v := by
  rintro _ ⟨⟩

theorem Check.admits_some {demand : Check} {v : Value} (passes : demand.passes v = true) :
    Check.Admits (some demand) v := by
  rintro _ ⟨⟩
  exact passes

/-- What a strict function may be given: a value for each child, all of them admitted. -/
def Supplied (check : Option Check) (children : List Expr) (args : List Value) : Prop :=
  args.length = children.length ∧ ∀ v ∈ args, Check.Admits check v

section Gathering

variable {check : Option Check} {bindings : Option (List (String × Value))}

theorem Supplied.cons {e : Expr} {rest : List Expr} {v : Value} {args : List Value}
    (admitted : Check.Admits check v) (supplied : Supplied check rest args) :
    Supplied check (e :: rest) (v :: args) :=
  ⟨by simp [supplied.1], List.forall_mem_cons.2 ⟨admitted, supplied.2⟩⟩

/-- A strict plan ends where its computation does, or at a value that its check refuses. -/
theorem ends_gather {memory : Memory} {property : Except Fault Value → Prop} {next : List Value → Plan}
    (refused : ∀ e demand, check = some demand → property (.error (.node e (.check demand))))
    (rest : List Expr) :
    ∀ index seen, (∀ args, Supplied check rest args → (next (seen.reverse ++ args)).Ends memory property) →
      (gather check bindings next rest index seen).Ends memory property := by
  induction rest with
  | nil =>
    intro index seen ends
    simpa [gather] using ends [] ⟨rfl, by simp⟩
  | cons e rest ih =>
    intro index seen ends v
    have later (admitted : Check.Admits check v) :
        (gather check bindings next rest (index + 1) (v :: seen)).Ends memory property := by
      apply ih
      intro args supplied
      simpa using ends (v :: args) (supplied.cons admitted)
    cases check with
    | none => exact later (by simp [Check.Admits])
    | some demand =>
      by_cases passes : demand.passes v = true
      · simp only [passes, if_true]
        exact later (by simp [Check.Admits, passes])
      · simp only [passes]
        exact refused e demand rfl

/-- Two strict plans that go on alike with all values they may be given are the same plan. -/
theorem gather_congr {next other : List Value → Plan} (rest : List Expr) :
    ∀ index seen, (∀ args, Supplied check rest args →
        next (seen.reverse ++ args) = other (seen.reverse ++ args)) →
      gather check bindings next rest index seen = gather check bindings other rest index seen := by
  induction rest with
  | nil =>
    intro index seen same
    simpa [gather] using same [] ⟨rfl, by simp⟩
  | cons e rest ih =>
    intro index seen same
    have later {v : Value} (admitted : Check.Admits check v) :
        gather check bindings next rest (index + 1) (v :: seen) =
          gather check bindings other rest (index + 1) (v :: seen) := by
      apply ih
      intro args supplied
      simpa using same (v :: args) (supplied.cons admitted)
    simp only [gather]
    congr 1
    funext v
    cases check with
    | none => exact later (by simp [Check.Admits])
    | some demand =>
      by_cases passes : demand.passes v = true
      · simp only [passes, if_true]
        exact later (by simp [Check.Admits, passes])
      · simp [passes]

theorem ends_strict {memory : Memory} {property : Except Fault Value → Prop} {compute : Compute}
    {call : Call} (refused : ∀ e demand, check = some demand → property (.error (.node e (.check demand))))
    (ends : ∀ args, Supplied check call.node.args args → property (compute call args)) :
    (strict check compute call).Ends memory property :=
  ends_gather refused _ 0 [] fun args supplied => ends args supplied

theorem strict_congr {compute other : Compute} {call : Call}
    (same : ∀ args, Supplied check call.node.args args → compute call args = other call args) :
    strict check compute call = strict check other call :=
  gather_congr _ 0 [] fun args supplied => congrArg Plan.done (same args supplied)

end Gathering

section Lazy

open Builtins

variable {memory : Memory} {property : Except Fault Value → Prop}

theorem ends_untilTruth {stop : Bool} (booleans : ∀ b, property (.ok (.bool b))) (args : List Expr) :
    ∀ index, (untilTruth stop args index).Ends memory property := by
  induction args with
  | nil => intro index; exact booleans _
  | cons e rest ih =>
    intro index v
    by_cases decided : (v.isTruthy == stop) = true
    · simp only [decided, if_true]
      exact booleans stop
    · simp only [decided]
      exact ih (index + 1)

theorem ends_untilPresent (values : ∀ v, property (.ok v)) (args : List Expr) :
    ∀ index, (untilPresent args index).Ends memory property := by
  induction args with
  | nil => intro index; exact values _
  | cons e rest ih =>
    intro index v
    by_cases absent : v.isNull = true
    · simp only [absent, if_true]
      exact ih (index + 1)
    · simp only [absent]
      exact values v

theorem ends_visit {iterator : String} {next : List (Value × Value) → Plan}
    (ends : ∀ results, (next results).Ends memory property) (items : List Value) :
    ∀ seen, (visit iterator next items seen).Ends memory property := by
  induction items with
  | nil => intro seen; exact ends _
  | cons item rest ih => intro seen v; exact ih _

end Lazy

end Formula

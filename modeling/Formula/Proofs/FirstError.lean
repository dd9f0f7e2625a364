import Formula.Proofs.Endings
import Formula.Proofs.Forms
import Formula.Proofs.Trace

/-! The first error wins. As soon as one call of a run fails, nothing is called any more: what still
returns are the calls that enclose the failed one, each with the same error. A strict function asks
for its arguments from left to right and goes no further than the first that fails or is refused. -/
namespace Formula

/-- One call was still running when the other returned: it lies on the way of requests to the other,
and its evaluation visits the other. -/
structure Return.Encloses (registry : Registry) (options : Options) (outer inner : Return) : Prop where
  leads : outer.requests <+: inner.requests
  apart : outer.requests ≠ inner.requests
  visits : Expr.Visits registry options outer.node outer.depth outer.memory
    inner.node inner.depth inner.memory

/-- From the first failed call on, only enclosing calls return, with its error, and so does the run. -/
def Run.FailsFast (registry : Registry) (options : Options) (run : Run) : Prop :=
  ∀ before r after e, run.log = before ++ r :: after → r.outcome = .error e →
    run.outcome = .error e ∧
    ∀ later ∈ after, later.outcome = .error e ∧ later.Encloses registry options r

namespace Run.FailsFast

variable {registry : Registry} {options : Options} {run : Run}

theorem empty (outcome : Outcome) : (⟨[], outcome⟩ : Run).FailsFast registry options := by
  intro before r after e split
  simp at split

theorem calm (fast : run.FailsFast registry options) {v : Value} (value : run.outcome = .ok v)
    {r : Return} (logged : r ∈ run.log) (e : EvalError) : r.outcome ≠ .error e := by
  obtain ⟨before, after, split⟩ := List.append_of_mem logged
  intro failed
  have stopped := (fast before r after e split failed).1
  simp [value] at stopped

theorem below (fast : run.FailsFast registry options) (n : Nat) :
    (⟨run.log.map (·.below n), run.outcome⟩ : Run).FailsFast registry options := by
  intro before r after e split failed
  obtain ⟨before, rest, own, rfl, tail⟩ := List.map_eq_append_iff.1 split
  obtain ⟨s, after, rfl, rfl, rfl⟩ := List.map_eq_cons_iff.1 tail
  obtain ⟨stopped, enclosed⟩ := fast before s after e own failed
  refine ⟨stopped, ?_⟩
  intro later member
  obtain ⟨t, inside, rfl⟩ := List.mem_map.1 member
  obtain ⟨same, leads, apart, visits⟩ := enclosed t inside
  refine ⟨same, ?_, ?_, visits⟩
  · exact List.cons_prefix_cons.2 ⟨rfl, leads⟩
  · simpa [Return.below] using apart

theorem append {rest : Run} (fast : rest.FailsFast registry options) {log : List Return}
    (calm : ∀ r ∈ log, ∀ e, r.outcome ≠ .error e) :
    (⟨log ++ rest.log, rest.outcome⟩ : Run).FailsFast registry options := by
  intro before r after e split failed
  rcases List.append_eq_append_iff.1 split with ⟨more, rfl, tail⟩ | ⟨more, rfl, tail⟩
  · exact fast more r after e tail failed
  · cases more with
    | nil => exact fast [] r after e (by simpa using tail.symm) failed
    | cons s more =>
      obtain ⟨rfl, -⟩ := List.cons.inj tail
      exact absurd failed (calm r (by simp) e)

theorem close (fast : run.FailsFast registry options) {node : Expr} {depth : Nat} {memory : Memory}
    (below : ∀ r ∈ run.log, r.requests ≠ [] ∧
      Expr.Visits registry options node depth memory r.node r.depth r.memory) :
    (run.close node depth memory).FailsFast registry options := by
  intro before r after e split failed
  -- The last entry is the root: it is the failed call itself, or it encloses one below.
  rcases List.eq_nil_or_concat after with rfl | ⟨after, root, rfl⟩
  · obtain ⟨-, last⟩ := List.append_inj' (split : run.log ++ [_] = before ++ [r]) rfl
    obtain rfl := List.singleton_inj.1 last
    exact ⟨failed, by simp⟩
  · have snoc : run.log ++ [⟨[], node, depth, memory, run.outcome⟩] = (before ++ r :: after) ++ [root] := by
      simpa [Run.close] using split
    obtain ⟨inner, last⟩ := List.append_inj' snoc rfl
    obtain rfl := List.singleton_inj.1 last
    obtain ⟨stopped, enclosed⟩ := fast before r after e inner failed
    obtain ⟨led, visits⟩ := below r (by simp [inner])
    refine ⟨stopped, ?_⟩
    intro later member
    rw [List.concat_eq_append, List.mem_append, List.mem_singleton] at member
    rcases member with inside | rfl
    · exact enclosed later inside
    · exact ⟨stopped, List.nil_prefix, led.symm, visits⟩

end Run.FailsFast

/-- A plan asks for nothing more once a child has failed. -/
theorem Plan.trace_failsFast {registry : Registry} {options : Options} {trace : Expr → Memory → Run}
    {args : List Expr} {memory : Memory}
    (each : ∀ child ∈ args, ∀ scope, (trace child scope).FailsFast registry options) (plan : Plan) :
    ∀ asked, (plan.trace memory (args.map trace) asked).FailsFast registry options := by
  induction plan with
  | done result =>
    intro asked
    cases result with
    | ok v => exact .empty _
    | error fault => exact .empty _
  | child index bindings next ih =>
    intro asked
    cases present : args[index]? with
    | none => rw [trace_absent present]; exact ih .null asked
    | some child =>
      have first := each child (List.mem_of_getElem? present) (memory.extend bindings)
      have lifted := first.below asked
      cases value : (trace child (memory.extend bindings)).outcome with
      | error e => rw [trace_error present value, ← value]; exact lifted
      | ok v =>
        rw [trace_ok present value]
        refine (ih v (asked + 1)).append ?_
        intro r inside
        exact lifted.calm value inside
  | read path next ih => exact ih _

namespace Expr

variable {registry : Registry} {options : Options}

theorem traceAt_failsFast (e : Expr) (depth : Nat) (memory : Memory) :
    (e.traceAt registry options depth memory).FailsFast registry options := by
  -- By induction on the tree; what encloses a call is the nodes on the way down to it.
  induction e using descend generalizing depth memory with
  | node e ih =>
    rw [traceAt_eq]
    refine Run.FailsFast.close ?_ ?_
    · rcases Nat.lt_or_ge depth options.maxDepth with room | limit
      · cases found : registry.find? e.name with
        | none => rw [Registry.traceBelow_unknown room found]; exact .empty _
        | some function =>
          rw [Registry.traceBelow_known room found]
          exact Plan.trace_failsFast (fun child member scope => ih child member (depth + 1) scope) _ 0
      · rw [Registry.traceBelow_at_limit limit]
        exact .empty _
    · intro r logged
      obtain ⟨_, _, _, _, s, n, _, _, _, _, _, same⟩ := mem_traceBelow logged
      exact ⟨by simp [same, Return.below], visits_of_mem (mem_traceAt.2 (.inl logged))⟩

def argumentLog (registry : Registry) (options : Options) (depth : Nat) (memory : Memory)
    (args : List Expr) (first : Nat) : List Return :=
  (args.zipIdx first).flatMap fun (arg, n) =>
    (arg.traceAt registry options depth memory).log.map (·.below n)

end Expr

/-- An argument that a strict function goes on from: it has a value, and the check admits it. -/
def Check.Passed (check : Option Check) (outcome : Outcome) : Prop :=
  ∃ v, outcome = .ok v ∧ Check.Admits check v

/-- An argument that a strict function stops at: it fails, or the check refuses its value. -/
inductive Check.Stops (check : Option Check) (arg : Expr) : Outcome → EvalError → Prop
  | failed (e : EvalError) : Stops check arg (.error e) e
  | refused {v : Value} {demand : Check} (checked : check = some demand)
      (refusal : demand.passes v = false) :
      Stops check arg (.ok v) (.fault (.node arg (.check demand)))

section Strict

variable {registry : Registry} {options : Options} {depth : Nat} {memory : Memory}
  {check : Option Check}

theorem gather_admitted {next : List Value → Plan} {arg : Expr} {rest : List Expr} {index asked : Nat}
    {seen : List Value} {trace : Expr → Memory → Run} {args : List Expr} {v : Value}
    (present : args[index]? = some arg) (value : (trace arg memory).outcome = .ok v)
    (admitted : Check.Admits check v) :
    (gather check none next (arg :: rest) index seen).trace memory (args.map trace) asked =
      ⟨(trace arg memory).log.map (·.below asked) ++
          ((gather check none next rest (index + 1) (v :: seen)).trace memory (args.map trace)
            (asked + 1)).log,
        ((gather check none next rest (index + 1) (v :: seen)).trace memory (args.map trace)
          (asked + 1)).outcome⟩ := by
  rw [gather, Plan.trace_ok present value, Memory.extend]
  cases check with
  | none => rfl
  | some demand => simp only [admitted demand rfl, if_true]

theorem gather_stopped {next : List Value → Plan} {arg : Expr} {rest : List Expr} {index asked : Nat}
    {seen : List Value} {trace : Expr → Memory → Run} {args : List Expr} {e : EvalError}
    (present : args[index]? = some arg) (stops : Check.Stops check arg (trace arg memory).outcome e) :
    (gather check none next (arg :: rest) index seen).trace memory (args.map trace) asked =
      ⟨(trace arg memory).log.map (·.below asked), .error e⟩ := by
  generalize run : (trace arg memory).outcome = outcome at stops
  cases stops with
  | failed e => rw [gather, Plan.trace_error present run, Memory.extend]
  | refused checked refusal =>
    rw [gather, Plan.trace_ok present run, Memory.extend, checked]
    simp [refusal, Plan.fail, Plan.trace]

theorem trace_gather {next : List Value → Plan} {child : Expr} {after : List Expr} {e : EvalError}
    (stops : Check.Stops check child (child.evalAt registry options depth memory) e)
    (before : List Expr) : ∀ done seen,
    (∀ arg ∈ before, Check.Passed check (arg.evalAt registry options depth memory)) →
    (gather check none next (before ++ child :: after) done.length seen).trace memory
        ((done ++ (before ++ child :: after)).map fun arg scope =>
          arg.traceAt registry options depth scope) done.length =
      ⟨Expr.argumentLog registry options depth memory (before ++ [child]) done.length, .error e⟩ := by
  -- By induction on the arguments before the one that stops; `done` are those already seen.
  induction before with
  | nil =>
    intro done seen _
    rw [← Expr.outcome_traceAt] at stops
    rw [List.nil_append, gather_stopped (by simp) stops]
    simp [Expr.argumentLog]
  | cons arg before ih =>
    intro done seen passed
    obtain ⟨⟨v, value, admitted⟩, others⟩ := List.forall_mem_cons.1 passed
    rw [← Expr.outcome_traceAt] at value
    have rest := ih (done ++ [arg]) (v :: seen) others
    simp only [List.length_append, List.length_singleton, List.append_assoc, List.singleton_append] at rest
    rw [List.cons_append, gather_admitted (by simp) value admitted, rest]
    simp [Expr.argumentLog]

end Strict

namespace Expr

variable {options : Options}

theorem strict_stops {name : String} {function : Function} {check : Option Check} {compute : Compute}
    (found : Registry.builtins.find? name = some function) (logic : function.logic = strict check compute)
    {before after : List Expr} {child : Expr} {depth : Nat} {memory : Memory} {e : EvalError}
    (room : depth < options.maxDepth)
    (passed : ∀ arg ∈ before, Check.Passed check (arg.evalAt .builtins options (depth + 1) memory))
    (stops : Check.Stops check child (child.evalAt .builtins options (depth + 1) memory) e) :
    (call name (before ++ child :: after)).traceAt .builtins options depth memory =
      (⟨argumentLog .builtins options (depth + 1) memory (before ++ [child]) 0, .error e⟩ : Run).close
        (call name (before ++ child :: after)) depth memory := by
  rw [traceAt_eq, Registry.traceBelow_known room found, logic]
  exact congrArg (Run.close · _ depth memory) (trace_gather stops before [] [] passed)

/-- The first error wins. In the log of a run, after a call that failed there are only calls that
enclose it, each with the very same error, which is the outcome of the run. A strict function stops
at the first argument that fails or is refused: nothing is evaluated after it, its error is the error
of the node, whatever stands to its right and whatever the function would have computed. -/
theorem first_error_wins (e : Expr) (options : Options) (memory : Memory) :
    (e.traceAt .builtins options 0 memory).Records .builtins options e 0 memory ∧
    (∀ before r after error, (e.traceAt .builtins options 0 memory).log = before ++ r :: after →
      r.outcome = .error error →
        e.eval .builtins options memory = .error error ∧
        ∀ later ∈ after, later.outcome = .error error ∧ later.Encloses .builtins options r) ∧
    (∀ f ∈ Builtins.all, f.name ∉ Builtins.selective → ∃ check compute, f.logic = strict check compute) ∧
    (∀ name function check compute, Registry.builtins.find? name = some function →
      function.logic = strict check compute →
        ∀ before child after depth scope error, depth < options.maxDepth →
          (∀ arg ∈ before, Check.Passed check (arg.evalAt .builtins options (depth + 1) scope)) →
          Check.Stops check child (child.evalAt .builtins options (depth + 1) scope) error →
            let node := call name (before ++ child :: after)
            node.evalAt .builtins options depth scope = .error error ∧
            (node.traceAt .builtins options depth scope).log =
              argumentLog .builtins options (depth + 1) scope (before ++ [child]) 0 ++
                [⟨[], node, depth, scope, .error error⟩]) := by
  have records := traceAt_records .builtins options e 0 memory
  refine ⟨records, ?_, Builtins.strict_of_mem, ?_⟩
  · intro before r after error split failed
    obtain ⟨stopped, enclosed⟩ := traceAt_failsFast e 0 memory before r after error split failed
    exact ⟨records.outcome.symm.trans stopped, enclosed⟩
  · intro name function check compute found logic before child after depth scope error room passed
      stops node
    have run : node.traceAt .builtins options depth scope = _ :=
      strict_stops found logic room passed stops
    refine ⟨?_, congrArg Run.log run⟩
    rw [← outcome_traceAt, run]
    rfl

def tenOverEach : Expr :=
  .call "foreach" [accessor "xs", accessor "x", .call "/" [.constant (.int 10), accessor "x"]]

/-- With 5, 0 and 2 in `xs` the second body fails and the third is never called; and a boolean ends a
sum before an unknown function is looked up. -/
theorem first_error_wins_each :
    let memory : Memory := .document (.object [("xs", .array [.int 5, .int 0, .int 2])])
    let run := tenOverEach.traceAt .builtins {} 0 memory
    run.log.map (·.requests) = [[0], [1, 0], [1, 1], [1], [2, 0], [2, 1], [2], []] ∧
    (∃ before r after error, run.log = before ++ r :: after ∧ r.requests = [2] ∧
      r.outcome = .error error ∧ tenOverEach.eval .builtins {} memory = .error error ∧
      ∀ later ∈ after, later.outcome = .error error ∧ later.Encloses .builtins {} r) ∧
    (call "+" ([.constant (.int 1)] ++ .constant (.bool true) :: [.call "boom" []])).evalAt .builtins {}
      0 memory = .error (.fault (.node (.constant (.bool true)) (.check .numberOrString))) := by
  intro memory run
  obtain ⟨_, fast, _, strictly⟩ := first_error_wins tenOverEach {} memory
  refine ⟨?_, ?_, ?_⟩
  · show (tenOverEach.traceAt .builtins {} 0 memory).log.map (·.requests) = _
    rw [Registry.builtins_eq]
    decide +kernel
  · have failure : (run.log.any fun r => r.requests == [2] && r.outcome.toOption.isNone) = true := by
      show ((tenOverEach.traceAt .builtins {} 0 memory).log.any _) = true
      rw [Registry.builtins_eq]
      decide +kernel
    obtain ⟨r, logged, second⟩ := List.any_eq_true.1 failure
    obtain ⟨before, after, split⟩ := List.append_of_mem logged
    simp only [Bool.and_eq_true, beq_iff_eq] at second
    cases ended : r.outcome with
    | ok v => simp [ended, Except.toOption] at second
    | error error =>
      obtain ⟨stopped, enclosed⟩ := fast before r after error split ended
      exact ⟨before, r, after, error, split, second.1, ended, stopped, enclosed⟩
  · have found : Registry.builtins.find? "+" = some ⟨"+", .number ∪ .string,
        .all [.atLeast 2, .ofType (.number ∪ .string)],
        strict (some .numberOrString) (folding (Builtins.add .standard))⟩ := by
      rw [Registry.builtins_eq]
      rfl
    have literal (v : Value) : (constant v).evalAt .builtins {} 1 memory = .ok v :=
      evalAt_constant (by decide) v memory
    have passed : ∀ arg ∈ [constant (.int 1)],
        Check.Passed (some .numberOrString) (arg.evalAt .builtins {} 1 memory) := by
      simp only [List.mem_singleton, forall_eq]
      exact ⟨.int 1, literal _, by simp [Check.Admits, Check.passes]⟩
    have stops : Check.Stops (some .numberOrString) (constant (.bool true))
        ((constant (.bool true)).evalAt .builtins {} 1 memory)
        (.fault (.node (.constant (.bool true)) (.check .numberOrString))) := by
      rw [literal]
      exact .refused rfl rfl
    exact (strictly "+" _ _ _ found rfl _ _ [.call "boom" []] 0 memory _ (by decide) passed stops).1

end Expr

end Formula

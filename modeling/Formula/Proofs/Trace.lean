import Formula.Proofs.Evaluation

/-! The evaluator with a log. Every call of the evaluator is written down at the moment it returns,
with the requests that lead to it from the root, so that the order of a run can be spoken about. The
log changes nothing: the outcome is that of the plain evaluator, and the calls in the log are the
nodes that the plain evaluator visits. -/
namespace Formula

/-- A call of the evaluator at its return. `requests` tells, from the root down, which request of its
parent each call on the way was, counted from zero. -/
structure Return where
  requests : List Nat
  node : Expr
  depth : Nat
  memory : Memory
  outcome : Outcome

/-- The call as its grandparent sees it, below request `n`. -/
def Return.below (n : Nat) (r : Return) : Return := { r with requests := n :: r.requests }

/-- The calls of a run in the order in which they return, and what the run comes to. -/
structure Run where
  log : List Return
  outcome : Outcome

/-- Carries a plan out like `Plan.run`; the requests before this point are counted in `asked`. -/
def Plan.trace (memory : Memory) (children : List (Memory → Run)) : Plan → Nat → Run
  | .done (.ok v), _ => ⟨[], .ok v⟩
  | .done (.error fault), _ => ⟨[], .error (.fault fault)⟩
  | .child index bindings next, asked =>
    match children[index]? with
    | none => (next .null).trace memory children asked
    | some evaluate =>
      let first := evaluate (memory.extend bindings)
      match first.outcome with
      | .ok v =>
        let rest := (next v).trace memory children (asked + 1)
        ⟨first.log.map (·.below asked) ++ rest.log, rest.outcome⟩
      | .error e => ⟨first.log.map (·.below asked), .error e⟩
  | .read path next, asked => (next (memory.resolve path)).trace memory children asked

def Registry.traceBelow (registry : Registry) (options : Options) (node : Expr) (depth : Nat)
    (children : List (Memory → Run)) (memory : Memory) : Run :=
  if options.maxDepth ≤ depth then ⟨[], .error (.tooDeep depth options.maxDepth)⟩
  else
    match registry.find? node.name with
    | none => ⟨[], .error (.unknownFunction node.name)⟩
    | some function =>
      (function.logic ⟨node, options, depth + 1, registry.size⟩).trace memory children 0

section Below

variable {registry : Registry} {options : Options} {node : Expr} {depth : Nat}
  {children : List (Memory → Run)} {memory : Memory}

theorem Registry.traceBelow_at_limit (limit : options.maxDepth ≤ depth) :
    registry.traceBelow options node depth children memory =
      ⟨[], .error (.tooDeep depth options.maxDepth)⟩ := by
  simp [traceBelow, limit]

theorem Registry.traceBelow_unknown (room : depth < options.maxDepth)
    (unknown : registry.find? node.name = none) :
    registry.traceBelow options node depth children memory =
      ⟨[], .error (.unknownFunction node.name)⟩ := by
  simp [traceBelow, Nat.not_le.2 room, unknown]

theorem Registry.traceBelow_known {function : Function} (room : depth < options.maxDepth)
    (found : registry.find? node.name = some function) :
    registry.traceBelow options node depth children memory =
      (function.logic ⟨node, options, depth + 1, registry.size⟩).trace memory children 0 := by
  simp [traceBelow, Nat.not_le.2 room, found]

end Below

/-- The run of a node: the calls below it return first, then its own. -/
def Run.close (run : Run) (node : Expr) (depth : Nat) (memory : Memory) : Run :=
  ⟨run.log ++ [⟨[], node, depth, memory, run.outcome⟩], run.outcome⟩

namespace Expr

mutual

def traceAt (registry : Registry) (options : Options) : Expr → Nat → Memory → Run
  | .constant v, depth, memory =>
    (registry.traceBelow options (.constant v) depth [] memory).close (.constant v) depth memory
  | .call name args, depth, memory =>
    (registry.traceBelow options (.call name args) depth
      (traceAll registry options args (depth + 1)) memory).close (.call name args) depth memory

def traceAll (registry : Registry) (options : Options) : List Expr → Nat → List (Memory → Run)
  | [], _ => []
  | e :: rest, depth =>
    (fun memory => traceAt registry options e depth memory) :: traceAll registry options rest depth

end

theorem traceAll_eq_map {registry : Registry} {options : Options} (args : List Expr) (depth : Nat) :
    traceAll registry options args depth =
      args.map fun e memory => e.traceAt registry options depth memory := by
  induction args with
  | nil => simp [traceAll]
  | cons e rest ih => simp [traceAll, ih]

theorem traceAt_eq {registry : Registry} {options : Options} (e : Expr) (depth : Nat)
    (memory : Memory) : e.traceAt registry options depth memory =
      (registry.traceBelow options e depth
        (e.args.map fun child scope => child.traceAt registry options (depth + 1) scope)
        memory).close e depth memory := by
  cases e with
  | constant v => simp [traceAt, args]
  | call name args => simp [traceAt, Expr.args, traceAll_eq_map]

end Expr

namespace Plan

variable {trace : Expr → Memory → Run} {evaluate : Expr → Memory → Outcome} {args : List Expr}
  {index asked : Nat} {bindings : Option (List (String × Value))} {next : Value → Plan}
  {memory : Memory}

theorem trace_absent (absent : args[index]? = none) :
    (Plan.child index bindings next).trace memory (args.map trace) asked =
      (next .null).trace memory (args.map trace) asked := by
  rw [Plan.trace, List.getElem?_map, absent]
  rfl

theorem trace_ok {child : Expr} (present : args[index]? = some child) {v : Value}
    (value : (trace child (memory.extend bindings)).outcome = .ok v) :
    (Plan.child index bindings next).trace memory (args.map trace) asked =
      ⟨(trace child (memory.extend bindings)).log.map (·.below asked) ++
          ((next v).trace memory (args.map trace) (asked + 1)).log,
        ((next v).trace memory (args.map trace) (asked + 1)).outcome⟩ := by
  simp only [Plan.trace, List.getElem?_map, present, Option.map_some, value]

theorem trace_error {child : Expr} (present : args[index]? = some child) {e : EvalError}
    (failed : (trace child (memory.extend bindings)).outcome = .error e) :
    (Plan.child index bindings next).trace memory (args.map trace) asked =
      ⟨(trace child (memory.extend bindings)).log.map (·.below asked), .error e⟩ := by
  simp only [Plan.trace, List.getElem?_map, present, Option.map_some, failed]

/-- With runs of the children that come to what the children evaluate to, the run of the plan comes
to what the plan evaluates to. -/
theorem outcome_trace (same : ∀ child ∈ args, ∀ scope, (trace child scope).outcome = evaluate child scope)
    (plan : Plan) : ∀ asked, (plan.trace memory (args.map trace) asked).outcome =
      plan.run memory (args.map evaluate) := by
  induction plan with
  | done result => intro asked; cases result <;> rfl
  | child index bindings next ih =>
    intro asked
    cases present : args[index]? with
    | none => rw [trace_absent present, run_absent present, ih]
    | some child =>
      have equal := same child (List.mem_of_getElem? present) (memory.extend bindings)
      rw [run_present present]
      cases value : (trace child (memory.extend bindings)).outcome with
      | ok v => rw [trace_ok present value, ← equal, value, ih, Except.bind]
      | error e => rw [trace_error present value, ← equal, value, Except.bind]
  | read path next ih => exact ih _

theorem mem_trace (same : ∀ child ∈ args, ∀ scope, (trace child scope).outcome = evaluate child scope)
    (plan : Plan) {r : Return} : ∀ asked, r ∈ (plan.trace memory (args.map trace) asked).log →
      ∃ index bindings child s n, Asks memory (args.map evaluate) plan index bindings ∧
        args[index]? = some child ∧ s ∈ (trace child (memory.extend bindings)).log ∧
        asked ≤ n ∧ r = s.below n := by
  induction plan with
  | done result => intro asked logged; cases result <;> simp [Plan.trace] at logged
  | child index bindings next ih =>
    intro asked logged
    cases present : args[index]? with
    | none =>
      rw [trace_absent present] at logged
      obtain ⟨other, scope, child, s, n, asks, rest⟩ := ih .null asked logged
      exact ⟨other, scope, child, s, n, .absent (by simp [present]) asks, rest⟩
    | some child =>
      have equal := same child (List.mem_of_getElem? present) (memory.extend bindings)
      have here (inside : r ∈ (trace child (memory.extend bindings)).log.map (·.below asked)) :
          ∃ i scope part s n, Asks memory (args.map evaluate) (.child index bindings next) i scope ∧
            args[i]? = some part ∧ s ∈ (trace part (memory.extend scope)).log ∧ asked ≤ n ∧
            r = s.below n := by
        obtain ⟨s, member, rfl⟩ := List.mem_map.1 inside
        exact ⟨index, bindings, child, s, asked, .now, present, member, Nat.le_refl _, rfl⟩
      cases value : (trace child (memory.extend bindings)).outcome with
      | error e =>
        rw [trace_error present value] at logged
        exact here logged
      | ok v =>
        rw [trace_ok present value] at logged
        rcases List.mem_append.1 logged with inside | later
        · exact here inside
        · obtain ⟨other, scope, part, s, n, asks, there, member, after, rfl⟩ := ih v (asked + 1) later
          have valued : evaluate child (memory.extend bindings) = .ok v := equal.symm.trans value
          exact ⟨other, scope, part, s, n, .later (by simp [present]) valued asks, there, member,
            by omega, rfl⟩
  | read path next ih =>
    intro asked logged
    obtain ⟨other, scope, child, s, n, asks, rest⟩ := ih _ asked logged
    exact ⟨other, scope, child, s, n, .read asks, rest⟩

theorem Asks.logged (same : ∀ child ∈ args, ∀ scope, (trace child scope).outcome = evaluate child scope)
    {plan : Plan} (asks : Asks memory (args.map evaluate) plan index bindings) {child : Expr}
    (present : args[index]? = some child) {s : Return}
    (member : s ∈ (trace child (memory.extend bindings)).log) :
    ∀ asked, ∃ n, s.below n ∈ (plan.trace memory (args.map trace) asked).log := by
  induction asks with
  | now =>
    intro asked
    refine ⟨asked, ?_⟩
    have inside := List.mem_map_of_mem (f := (·.below asked)) member
    cases value : (trace child (memory.extend _)).outcome with
    | ok v => rw [trace_ok present value]; exact List.mem_append_left _ inside
    | error e => rw [trace_error present value]; exact inside
  | @later i scope next evaluated v _ _ found valued _ ih =>
    intro asked
    obtain ⟨first, here, rfl⟩ : ∃ first, args[i]? = some first ∧ evaluate first = evaluated := by
      simpa using found
    have value : (trace first (memory.extend scope)).outcome = .ok v :=
      (same first (List.mem_of_getElem? here) _).trans valued
    obtain ⟨n, later⟩ := ih present member (asked + 1)
    rw [trace_ok here value]
    exact ⟨n, List.mem_append_right _ later⟩
  | absent missing _ ih =>
    intro asked
    rw [trace_absent (by simpa using missing)]
    exact ih present member asked
  | read _ ih =>
    intro asked
    exact ih present member asked

/-- No two calls of a run were led to by the same requests. -/
theorem nodup_trace (each : ∀ child ∈ args, ∀ scope, ((trace child scope).log.map (·.requests)).Nodup)
    (same : ∀ child ∈ args, ∀ scope, (trace child scope).outcome = evaluate child scope)
    (plan : Plan) :
    ∀ asked, ((plan.trace memory (args.map trace) asked).log.map (·.requests)).Nodup := by
  induction plan with
  | done result => intro asked; cases result <;> simp [Plan.trace]
  | child index bindings next ih =>
    intro asked
    cases present : args[index]? with
    | none => rw [trace_absent present]; exact ih .null asked
    | some child =>
      have once : (((trace child (memory.extend bindings)).log.map (·.below asked)).map
          (·.requests)).Nodup := by
        have lifted : (((trace child (memory.extend bindings)).log.map (·.requests)).map
            (asked :: ·)).Nodup :=
          List.Pairwise.map (asked :: ·) (fun a b apart => by simpa using apart)
            (each child (List.mem_of_getElem? present) (memory.extend bindings))
        simpa [List.map_map, Function.comp_def, Return.below] using lifted
      cases value : (trace child (memory.extend bindings)).outcome with
      | error e => rw [trace_error present value]; exact once
      | ok v =>
        rw [trace_ok present value, List.map_append]
        -- The children that are asked for later are led to by requests with a larger number.
        refine List.nodup_append.2 ⟨once, ih v (asked + 1), ?_⟩
        intro first inside second later
        obtain ⟨r, member, rfl⟩ := List.mem_map.1 later
        obtain ⟨_, _, _, s, n, _, _, _, after, rfl⟩ := mem_trace same (next v) (asked + 1) member
        obtain ⟨t, low, rfl⟩ := List.mem_map.1 inside
        obtain ⟨u, _, rfl⟩ := List.mem_map.1 low
        simp only [Return.below, ne_eq, List.cons.injEq, not_and]
        omega
  | read path next ih => intro asked; exact ih _ asked

end Plan

/-- What the log of a run tells about the evaluation of `e`: its outcome, every node that it visits
and what that node evaluates to, each call once. -/
structure Run.Records (registry : Registry) (options : Options) (e : Expr) (depth : Nat)
    (memory : Memory) (run : Run) : Prop where
  outcome : run.outcome = e.evalAt registry options depth memory
  outcomes : ∀ r ∈ run.log, r.outcome = r.node.evalAt registry options r.depth r.memory
  visits : ∀ node level scope, Expr.Visits registry options e depth memory node level scope ↔
    ∃ r ∈ run.log, r.node = node ∧ r.depth = level ∧ r.memory = scope
  once : (run.log.map (·.requests)).Nodup

namespace Expr

variable {registry : Registry} {options : Options}

theorem outcome_traceAt (registry : Registry) (options : Options) (e : Expr) (depth : Nat)
    (memory : Memory) :
    (e.traceAt registry options depth memory).outcome = e.evalAt registry options depth memory := by
  induction e using descend generalizing depth memory with
  | node e ih =>
    rw [traceAt_eq, evalAt_eq, Run.close]
    rcases Nat.lt_or_ge depth options.maxDepth with room | limit
    · cases found : registry.find? e.name with
      | none => rw [Registry.traceBelow_unknown room found, Registry.enter_unknown room found]
      | some function =>
        rw [Registry.traceBelow_known room found, Registry.enter_known room found]
        exact Plan.outcome_trace (fun child member scope => ih child member (depth + 1) scope) _ 0
    · rw [Registry.traceBelow_at_limit limit, Registry.enter_at_limit limit]

/-- Every call below a node was made for a request of its plan. -/
theorem mem_traceBelow {e : Expr} {depth : Nat} {memory : Memory} {r : Return}
    (logged : r ∈ (registry.traceBelow options e depth
      (e.args.map fun child scope => child.traceAt registry options (depth + 1) scope) memory).log) :
    ∃ function index bindings child s n, depth < options.maxDepth ∧
      registry.find? e.name = some function ∧
      Plan.Asks memory (e.args.map fun child scope => child.evalAt registry options (depth + 1) scope)
        (function.logic ⟨e, options, depth + 1, registry.size⟩) index bindings ∧
      e.args[index]? = some child ∧
      s ∈ (child.traceAt registry options (depth + 1) (memory.extend bindings)).log ∧
      r = s.below n := by
  rcases Nat.lt_or_ge depth options.maxDepth with room | limit
  · cases found : registry.find? e.name with
    | none => simp [Registry.traceBelow_unknown room found] at logged
    | some function =>
      rw [Registry.traceBelow_known room found] at logged
      obtain ⟨index, bindings, child, s, n, asks, present, member, _, same⟩ :=
        Plan.mem_trace (fun child _ scope => outcome_traceAt registry options child (depth + 1) scope) _ 0 logged
      exact ⟨function, index, bindings, child, s, n, room, rfl, asks, present, member, same⟩
  · simp [Registry.traceBelow_at_limit limit] at logged

theorem mem_traceAt {e : Expr} {depth : Nat} {memory : Memory} {r : Return} :
    r ∈ (e.traceAt registry options depth memory).log ↔
      r ∈ (registry.traceBelow options e depth
        (e.args.map fun child scope => child.traceAt registry options (depth + 1) scope) memory).log ∨
      r = ⟨[], e, depth, memory, e.evalAt registry options depth memory⟩ := by
  have root := outcome_traceAt registry options e depth memory
  rw [traceAt_eq, Run.close] at root ⊢
  rw [← root, List.mem_append, List.mem_singleton]

theorem visits_of_mem {e : Expr} {depth : Nat} {memory : Memory} {r : Return}
    (logged : r ∈ (e.traceAt registry options depth memory).log) :
    Visits registry options e depth memory r.node r.depth r.memory := by
  induction e using descend generalizing depth memory r with
  | node e ih =>
    rcases mem_traceAt.1 logged with below | rfl
    · obtain ⟨function, index, bindings, child, s, n, room, found, asks, present, member, rfl⟩ :=
        mem_traceBelow below
      have inner := ih child (List.mem_of_getElem? present) member
      exact .child room found asks present inner
    · exact .self

theorem Visits.logged {e node : Expr} {depth level : Nat} {memory scope : Memory}
    (visits : Visits registry options e depth memory node level scope) :
    ∃ r ∈ (e.traceAt registry options depth memory).log,
      r.node = node ∧ r.depth = level ∧ r.memory = scope := by
  induction visits with
  | self => exact ⟨_, mem_traceAt.2 (.inr rfl), rfl, rfl, rfl⟩
  | @child e depth memory function index bindings part node level scope room found asked present _ ih =>
    obtain ⟨r, member, same⟩ := ih
    obtain ⟨n, logged⟩ := Plan.Asks.logged
      (fun child _ scope => outcome_traceAt registry options child (depth + 1) scope) asked present member 0
    rw [← Registry.traceBelow_known room found] at logged
    exact ⟨r.below n, mem_traceAt.2 (.inl logged), same⟩

theorem outcome_of_mem {e : Expr} {depth : Nat} {memory : Memory} {r : Return}
    (logged : r ∈ (e.traceAt registry options depth memory).log) :
    r.outcome = r.node.evalAt registry options r.depth r.memory := by
  induction e using descend generalizing depth memory r with
  | node e ih =>
    rcases mem_traceAt.1 logged with below | rfl
    · obtain ⟨_, _, _, child, s, n, _, _, _, present, member, rfl⟩ := mem_traceBelow below
      have inner := ih child (List.mem_of_getElem? present) member
      exact inner
    · rfl

theorem nodup_traceAt (e : Expr) (depth : Nat) (memory : Memory) :
    ((e.traceAt registry options depth memory).log.map (·.requests)).Nodup := by
  induction e using descend generalizing depth memory with
  | node e ih =>
    rw [traceAt_eq, Run.close, List.map_append]
    refine List.nodup_append.2 ⟨?_, by simp, ?_⟩
    · rcases Nat.lt_or_ge depth options.maxDepth with room | limit
      · cases found : registry.find? e.name with
        | none => simp [Registry.traceBelow_unknown room found]
        | some function =>
          rw [Registry.traceBelow_known room found]
          exact Plan.nodup_trace (fun child member scope => ih child member (depth + 1) scope)
            (fun child _ scope => outcome_traceAt registry options child (depth + 1) scope) _ 0
      · simp [Registry.traceBelow_at_limit limit]
    · intro requests below own root
      obtain ⟨r, member, rfl⟩ := List.mem_map.1 below
      obtain ⟨_, _, _, _, s, n, _, _, _, _, _, rfl⟩ := mem_traceBelow member
      obtain rfl : own = [] := by simpa using root
      simp [Return.below]

/-- The log of a run is complete, repeats nothing and reports the outcomes of the plain evaluator. -/
theorem traceAt_records (registry : Registry) (options : Options) (e : Expr) (depth : Nat)
    (memory : Memory) :
    (e.traceAt registry options depth memory).Records registry options e depth memory where
  outcome := outcome_traceAt registry options e depth memory
  outcomes _ logged := outcome_of_mem logged
  visits node level scope := by
    refine ⟨Visits.logged, ?_⟩
    rintro ⟨r, logged, rfl, rfl, rfl⟩
    exact visits_of_mem logged
  once := nodup_traceAt e depth memory

end Expr

end Formula

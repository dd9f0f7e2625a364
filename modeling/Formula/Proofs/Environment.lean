import Formula.Proofs.Evaluation
import Formula.Proofs.Forms
import Formula.Proofs.Layers
import Formula.Proofs.PathGrammar
import Formula.Proofs.Uniform

/-! An evaluation sees its surroundings through the paths of its accessors and through nothing else,
and there it takes null for missing. Two runs are related by what their memories answer at the paths
of the tree; every layer that an iteration lays over both memories keeps them related. -/
namespace Formula

namespace Memory

/-- An answer that stands for nothing: null, or missing. -/
def Absent (answer : Except MemoryError Value) : Prop :=
  answer = .ok .null ∨ ∃ path, answer = .error (.notFound path)

/-- Two answers that are equal, or both stand for nothing. -/
def Same (first second : Except MemoryError Value) : Prop :=
  first = second ∨ Absent first ∧ Absent second

/-- Two memories that answer each of these paths the same. -/
def Alike (paths : List String) (first second : Memory) : Prop :=
  ∀ path ∈ paths, Same (first.resolve path) (second.resolve path)

variable {paths : List String} {first second : Memory}

theorem Alike.extend (alike : Alike paths first second) :
    ∀ bindings, Alike paths (first.extend bindings) (second.extend bindings)
  | none => alike
  | some bindings => by
    intro path member
    cases read : Memory.steps path with
    | error e => exact .inl (by simp only [Memory.extend, Memory.over, read])
    | ok steps =>
      rw [Memory.extend, Memory.extend, resolve_over read, resolve_over read]
      cases entered? bindings steps with
      | some inside => exact .inl rfl
      | none => exact alike path member

end Memory

namespace Plan

/-- The plan reads no path but its own, and goes on alike with answers that are the same. -/
def ReadsOnly (own : Option String) : Plan → Prop
  | .done _ => True
  | .child _ _ next => ∀ v, (next v).ReadsOnly own
  | .read path next => own = some path ∧ (∀ answer, (next answer).ReadsOnly own) ∧
      ∀ first second, Memory.Same first second → next first = next second

variable {own : Option String} {first second : Memory} {evaluate other : Expr → Memory → Outcome}
  {args : List Expr}

theorem readsOnly_done (result : Except Fault Value) : (done result).ReadsOnly own := trivial

/-- Over two memories that answer the own path the same, with children that come to the same, the
plan comes to the same. -/
theorem ReadsOnly.run {plan : Plan} (reads : plan.ReadsOnly own)
    (answers : ∀ path, own = some path → Memory.Same (first.resolve path) (second.resolve path))
    (each : ∀ child ∈ args, ∀ bindings,
      evaluate child (first.extend bindings) = other child (second.extend bindings)) :
    plan.run first (args.map evaluate) = plan.run second (args.map other) := by
  induction plan with
  | done result => cases result <;> rfl
  | child index bindings next ih =>
    cases present : args[index]? with
    | none =>
      rw [run_absent present, run_absent present]
      exact ih .null (reads .null)
    | some child =>
      rw [run_present present, run_present present,
        each child (List.mem_of_getElem? present) bindings]
      exact congrArg _ (funext fun v => ih v (reads v))
  | read path next ih =>
    obtain ⟨named, later, blind⟩ := reads
    have answered : next (first.resolve path) = next (second.resolve path) :=
      blind _ _ (answers path named)
    rw [Plan.run, Plan.run, answered]
    exact ih _ (later _)

theorem readsOnly_gather {check : Option Check} {bindings : Option (List (String × Value))}
    {next : List Value → Plan} (later : ∀ args, (next args).ReadsOnly own) (rest : List Expr) :
    ∀ index seen, (gather check bindings next rest index seen).ReadsOnly own := by
  induction rest with
  | nil => intro index seen; exact later _
  | cons e rest ih =>
    intro index seen v
    cases check with
    | none => exact ih _ _
    | some demand =>
      by_cases passes : demand.passes v = true
      · simp only [passes, if_true]
        exact ih _ _
      · simp only [passes]
        trivial

end Plan

namespace Builtins

variable {own : Option String}

theorem readsOnly_strict {check : Option Check} {compute : Compute} (call : Call) :
    (strict check compute call).ReadsOnly own :=
  Plan.readsOnly_gather (fun _ => Plan.readsOnly_done _) _ 0 []

theorem readsOnly_constant (call : Call) : (constant call).ReadsOnly own := by
  unfold constant
  split <;> trivial

theorem readsOnly_accessor (call : Call) : (accessor call).ReadsOnly call.node.path? := by
  unfold accessor
  split
  · trivial
  · rename_i path named
    refine ⟨named, ?_, ?_⟩
    · intro answer
      simp only []
      split <;> trivial
    · rintro first second (rfl | ⟨nothing, neither⟩)
      · rfl
      · rcases nothing with rfl | ⟨_, rfl⟩ <;> rcases neither with rfl | ⟨_, rfl⟩ <;> rfl

theorem readsOnly_untilTruth (stop : Bool) (args : List Expr) :
    ∀ index, (untilTruth stop args index).ReadsOnly own := by
  induction args with
  | nil => intro index; trivial
  | cons e rest ih =>
    intro index v
    by_cases decided : (v.isTruthy == stop) = true
    · simp only [decided, if_true]
      trivial
    · simp only [decided]
      exact ih (index + 1)

theorem readsOnly_branch (call : Call) : (branch call).ReadsOnly own := by
  unfold branch
  split
  · exact fun v w => trivial
  · trivial

theorem readsOnly_untilPresent (args : List Expr) :
    ∀ index, (untilPresent args index).ReadsOnly own := by
  induction args with
  | nil => intro index; trivial
  | cons e rest ih =>
    intro index v
    by_cases absent : v.isNull = true
    · simp only [absent, if_true]
      exact ih (index + 1)
    · simp only [absent]
      trivial

theorem readsOnly_visit {iterator : String} {next : List (Value × Value) → Plan}
    (later : ∀ results, (next results).ReadsOnly own) (items : List Value) :
    ∀ seen, (visit iterator next items seen).ReadsOnly own := by
  induction items with
  | nil => intro seen; exact later _
  | cons item rest ih => intro seen v; exact ih _

theorem readsOnly_iteration {finish : List (Value × Value) → Value} (call : Call) :
    (iteration finish call).ReadsOnly own := by
  unfold iteration
  split
  · split
    · trivial
    · intro collection
      cases visited : items call collection with
      | error fault => simp only [visited]; trivial
      | ok items =>
        simp only [visited]
        exact readsOnly_visit (fun _ => Plan.readsOnly_done _) _ []
  · trivial

theorem readsOnly_all (f : Function) (member : f ∈ all) (call : Call) :
    (f.logic call).ReadsOnly call.node.path? := by
  cases form_of_mem f member with
  | strict check compute => exact readsOnly_strict call
  | constant => exact readsOnly_constant call
  | accessor => exact readsOnly_accessor call
  | connective stop => exact readsOnly_untilTruth stop _ 0
  | branch => exact readsOnly_branch call
  | coalesce => exact readsOnly_untilPresent _ 0
  | iteration finish => exact readsOnly_iteration call

end Builtins

/-- The function of the node makes the same plan under both settings. -/
def Options.Indistinct (first second : Options) (node : Expr) : Prop :=
  ∀ function ∈ Builtins.all, function.name = node.name → ∀ depth known,
    function.logic ⟨node, first, depth, known⟩ = function.logic ⟨node, second, depth, known⟩

namespace Expr

theorem evalAt_indistinct {first second : Options} (limits : first.maxDepth = second.maxDepth)
    {e : Expr} {memory other : Memory} (memories : Memory.Alike e.paths memory other)
    (indistinct : ∀ node ∈ e.nodes, first.Indistinct second node) (depth : Nat) :
    e.evalAt .builtins first depth memory = e.evalAt .builtins second depth other := by
  -- By induction on the tree, over all pairs of memories at once: a body is evaluated over both with the
  -- same layer on top.
  induction e using descend generalizing depth memory other with
  | node e ih =>
    rw [evalAt_eq, evalAt_eq]
    rcases Nat.lt_or_ge depth first.maxDepth with room | limit
    · have second_room : depth < second.maxDepth := limits ▸ room
      cases found : Registry.builtins.find? e.name with
      | none => rw [Registry.enter_unknown room found, Registry.enter_unknown second_room found]
      | some function =>
        rw [Registry.enter_known room found, Registry.enter_known second_room found]
        have standard := Registry.mem_builtins found
        -- One plan runs over both memories.
        rw [indistinct e (self_mem_nodes e) function standard (Registry.find?_name found)]
        apply (Builtins.readsOnly_all function standard _).run
        · intro path own
          exact memories path (path_mem_paths own)
        · intro child member bindings
          apply ih child member
          · intro path named
            exact memories.extend bindings path (paths_of_child member named)
          · intro node inside
            exact indistinct node (nodes_of_child member inside)
    · rw [Registry.enter_at_limit limit, Registry.enter_at_limit (limits ▸ limit), limits]

theorem evalAt_environment {first second : Options} (limits : first.maxDepth = second.maxDepth)
    (cultures : first.locale = second.locale) {e : Expr} {memory other : Memory}
    (memories : Memory.Alike e.paths memory other)
    (substitutes : ∀ path ∈ e.paths, first.whenNull path = second.whenNull path) (depth : Nat) :
    e.evalAt .builtins first depth memory = e.evalAt .builtins second depth other := by
  refine evalAt_indistinct limits memories (fun node inside function standard _ depth known => ?_) depth
  have alike : Call.Alike ⟨node, first, depth, known⟩ ⟨node, second, depth, known⟩ :=
    ⟨rfl, congrArg Culture.usesComma cultures,
      fun path own => substitutes path (List.mem_filterMap.2 ⟨node, inside, own⟩)⟩
  exact alike.standard function standard

/-- Two runs of a tree with one depth limit and one culture have one outcome, value or error, as soon
as their memories answer every path of the tree the same or both with null or missing, and their
substitutes for null agree on these paths. -/
theorem eval_environment (e : Expr) {first second : Options} (limits : first.maxDepth = second.maxDepth)
    (cultures : first.locale = second.locale) {memory other : Memory}
    (memories : Memory.Alike e.paths memory other)
    (substitutes : ∀ path ∈ e.paths, first.whenNull path = second.whenNull path) :
    e.eval .builtins first memory = e.eval .builtins second other :=
  evalAt_environment limits cultures memories substitutes 0

def sumOfPresent : Expr :=
  .call "sum" [.call "foreach" [accessor "xs", accessor "x",
    .call "coalesce" [accessor "y", accessor "x"]]]

/-- Inside the body `y` falls through to the memory below, where it is null in one run and missing in
the other; `z` and its substitute are not in the tree. -/
theorem eval_environment_body :
    let memory : Memory := .document (.object [("xs", .array [.int 5]), ("y", .null), ("z", .int 1)])
    let other : Memory := .document (.object [("xs", .array [.int 5])])
    let options : Options := { whenNull := fun path => if path = "z" then some (.int 7) else none }
    Memory.Alike sumOfPresent.paths memory other ∧
    (∀ path ∈ sumOfPresent.paths, ({} : Options).whenNull path = options.whenNull path) ∧
    sumOfPresent.eval .builtins {} memory = .ok (.int 5) ∧
    sumOfPresent.eval .builtins options other = .ok (.int 5) := by
  intro memory other options
  have paths : sumOfPresent.paths = ["xs", "x", "y", "x"] := by decide +kernel
  have memories : Memory.Alike sumOfPresent.paths memory other := by
    have xs : Memory.steps "xs" = .ok [.key "xs"] := by decide +kernel
    have x : Memory.steps "x" = .ok [.key "x"] := by decide +kernel
    have y : Memory.steps "y" = .ok [.key "y"] := by decide +kernel
    simp only [paths, Memory.Alike, List.forall_mem_cons, List.not_mem_nil, false_imp_iff,
      implies_true, and_true]
    refine ⟨.inl ?_, .inl ?_, .inr ⟨.inl ?_, .inr ⟨"y", ?_⟩⟩, .inl ?_⟩
    · rw [Memory.resolve_document xs, Memory.resolve_document xs]; rfl
    · rw [Memory.resolve_document x, Memory.resolve_document x]; rfl
    · rw [Memory.resolve_document y]; rfl
    · rw [Memory.resolve_document y]; rfl
    · rw [Memory.resolve_document x, Memory.resolve_document x]; rfl
  have substitutes : ∀ path ∈ sumOfPresent.paths,
      ({} : Options).whenNull path = options.whenNull path := by
    simp [paths, options]
  have value : sumOfPresent.eval .builtins {} memory = .ok (.int 5) :=
    Outcome.eq_int (by rw [Registry.builtins_eq]; decide +kernel)
  have same : sumOfPresent.eval .builtins {} memory = sumOfPresent.eval .builtins options other :=
    eval_environment sumOfPresent (by rfl) (by rfl) memories substitutes
  exact ⟨memories, substitutes, value, same ▸ value⟩

end Expr

end Formula

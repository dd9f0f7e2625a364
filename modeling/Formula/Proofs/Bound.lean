import Formula.Proofs.Fallbacks
import Formula.Proofs.Guards
import Formula.Proofs.Layers

/-! A bound tree never comes to an error about its own shape. Evaluation enters only nodes that were
checked, the check of a node guards the logic of its function, and nothing in arithmetic falls back
on a substitute. -/
namespace Formula

/-- An error about the shape of a tree, which has nothing to do with any value: a name that no
function has, or a complaint about the children, the literal, the path or the iterator of a node. -/
def EvalError.Structural : EvalError → Prop
  | .unknownFunction _ => True
  | .fault (.node _ complaint) => complaint.structural = true
  | _ => False

theorem Fault.Legitimate.not_structural {memory : Memory} {fault : Fault}
    (legitimate : fault.Legitimate memory) : ¬ (EvalError.fault fault).Structural := by
  cases fault with
  | node e complaint =>
    have ofValues : complaint.structural = false := legitimate
    simp only [EvalError.Structural, ofValues, Bool.false_eq_true, not_false_eq_true]
  | overflow | absOverflow | divisionByZero | memory | custom => simp [EvalError.Structural]

theorem Fault.Legitimate.not_memory {memory : Memory} (layered : memory.Layered) {cause : MemoryError} :
    ¬ (Fault.memory cause).Legitimate memory := by
  rintro ⟨⟨path, steps, read, refused⟩, present⟩
  exact present path (layered.missing read refused)

namespace Expr

variable {options : Options}

/-- A bound tree fails at the depth limit or by a legitimate fault in the scope of some node. -/
theorem evalAt_error {e : Expr} (bound : Registry.builtins.validateTree e = .ok ()) (depth : Nat)
    (memory : Memory) {error : EvalError}
    (failed : e.evalAt .builtins options depth memory = .error error) :
    (∃ level limit, error = .tooDeep level limit) ∨ ∃ fault scope, error = .fault fault ∧
      fault.Legitimate scope ∧ (memory.Layered → scope.Layered) := by
  -- By induction on the tree, at all depths and over all memories at once.
  induction e using descend generalizing depth memory with
  | node e ih =>
    obtain ⟨children, accepted⟩ := Registry.validateTree_ok bound
    obtain ⟨function, found, ruled⟩ := Registry.validate_ok accepted
    rw [evalAt_eq] at failed
    rcases Nat.lt_or_ge depth options.maxDepth with room | limit
    · rw [Registry.enter_known room found] at failed
      have sound := Builtins.sound_all function (Registry.mem_builtins found)
      have ends := sound Registry.builtins.signatures ⟨e, options, depth + 1, Registry.builtins.size⟩
        memory (Registry.find?_name found) ruled
      rcases ends.run failed with ⟨child, member, bindings, below⟩ | ⟨fault, rfl, fair⟩
      · rcases ih child member (children child member) (depth + 1) (memory.extend bindings) below with
          overflow | ⟨fault, scope, same, legitimate, layers⟩
        · exact .inl overflow
        · exact .inr ⟨fault, scope, same, legitimate, fun layered => layers (layered.extend bindings)⟩
      · exact .inr ⟨fault, memory, rfl, fair fault rfl, id⟩
    · rw [Registry.enter_at_limit limit] at failed
      exact .inl ⟨depth, options.maxDepth, (Except.error.inj failed).symm⟩

theorem Visits.bound {e node : Expr} {depth level : Nat} {memory scope : Memory}
    (visits : Visits .builtins options e depth memory node level scope)
    (bound : Registry.builtins.validateTree e = .ok ()) :
    Registry.builtins.validateTree node = .ok () ∧ (memory.Layered → scope.Layered) := by
  induction visits with
  | self => exact ⟨bound, id⟩
  | @child e depth memory function index bindings part node level scope _ _ _ present _ ih =>
    have member := List.mem_of_getElem? present
    obtain ⟨deeper, layers⟩ := ih ((Registry.validateTree_ok bound).1 part member)
    exact ⟨deeper, fun layered => layers (layered.extend bindings)⟩

/-- At every node that the evaluation of a bound tree enters, the tree itself included, the name is
known, the outcome is no error about the shape of the tree, no fallback of arithmetic matters, and
over a layered memory no path is refused. -/
theorem visits_of_bound {e : Expr} (bound : Registry.builtins.validateTree e = .ok ())
    {memory : Memory} {node : Expr} {level : Nat} {scope : Memory}
    (visited : Visits .builtins options e 0 memory node level scope) :
    (∃ function, Registry.builtins.find? node.name = some function ∧
      function.rule Registry.builtins.signatures node = .ok ()) ∧
    (∀ error, node.evalAt .builtins options level scope = .error error → ¬ error.Structural) ∧
    (∀ fallback, node.evalAt (.builtinsWith fallback) options level scope =
      node.evalAt .builtins options level scope) ∧
    (memory.Layered → ∀ cause,
      node.evalAt .builtins options level scope ≠ .error (.fault (.memory cause))) := by
  obtain ⟨inside, layers⟩ := visited.bound bound
  refine ⟨Registry.validate_ok (Registry.validateTree_ok inside).2, ?_, ?_, ?_⟩
  · intro error failed
    rcases evalAt_error inside level scope failed with ⟨depth, limit, rfl⟩ | ⟨fault, _, rfl, fair, _⟩
    · exact id
    · exact fair.not_structural
  · intro fallback
    exact evalAt_builtinsWith inside fallback options level scope
  · intro layered cause failed
    rcases evalAt_error inside level scope failed with
      ⟨depth, limit, same⟩ | ⟨fault, inner, same, fair, deeper⟩
    · simp at same
    · obtain rfl : Fault.memory cause = fault := by simpa using same
      exact Fault.Legitimate.not_memory (deeper (layers layered)) fair

def lessOneEach : Expr :=
  .call "foreach" [accessor "xs", accessor "x", .call "-" [accessor "x", .constant (.int 1)]]

/-- The body of `foreach(xs, x, x - 1)` is entered with `x` bound to an item of `xs`. -/
theorem visits_of_bound_body :
    let body : Expr := .call "-" [accessor "x", .constant (.int 1)]
    let memory : Memory := .document (.object [("xs", .array [.int 5])])
    let scope : Memory := Memory.over [("x", .int 5)] memory
    Registry.builtins.validateTree lessOneEach = .ok () ∧ memory.Layered ∧
      Visits .builtins {} lessOneEach 0 memory body 1 scope ∧
      (∀ error, body.evalAt .builtins {} 1 scope = .error error → ¬ error.Structural) ∧
      ∀ cause, body.evalAt .builtins {} 1 scope ≠ .error (.fault (.memory cause)) := by
  intro body memory scope
  have accepted : (Registry.builtins.validateTree lessOneEach).toOption = some () := by decide +kernel
  have bound : Registry.builtins.validateTree lessOneEach = .ok () := by
    cases checked : Registry.builtins.validateTree lessOneEach with
    | ok => rfl
    | error e => simp [checked, Except.toOption] at accepted
  have items : (accessor "xs").evalAt .builtins {} 1 memory = .ok (.array [.int 5]) := by
    have read : Memory.steps "xs" = .ok [.key "xs"] := by decide +kernel
    have found : Registry.builtins.find? (accessor "xs").name =
        some ⟨accessorName, .any, Rule.accessor, Builtins.accessor⟩ := rfl
    rw [evalAt_eq, Registry.enter_known (by decide) found]
    simp [Builtins.accessor, accessor, path?, Plan.run, memory, Memory.resolve_document read,
      Memory.find, Value.walk, Value.step, Fields.get?, Plan.succeed]
  have visited : Visits .builtins {} lessOneEach 0 memory body 1 scope := by
    have found : Registry.builtins.find? lessOneEach.name =
        some ⟨"foreach", .array, .iteration, Builtins.foreach⟩ := rfl
    have iterator : (accessor "x").iterator? = some "x" := by decide +kernel
    have asked : Plan.Asks memory
        (lessOneEach.args.map fun child scope => child.evalAt .builtins {} 1 scope)
        (Builtins.foreach ⟨lessOneEach, {}, 1, Registry.builtins.size⟩) 2 (some [("x", .int 5)]) := by
      simp only [Builtins.foreach, Builtins.iteration, lessOneEach, args, iterator]
      exact .later rfl items .now
    exact .child (by decide) found asked rfl .self
  obtain ⟨_, calm, _, wellFormed⟩ := visits_of_bound bound visited
  exact ⟨bound, .document _, visited, calm, wellFormed (.document _)⟩

end Expr

end Formula

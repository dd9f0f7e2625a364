import Formula.Memory

/-! Memories made of layers: bindings over bindings over one document. -/
namespace Formula.Memory

/-- A document under any number of layers. -/
inductive Layered : Memory → Prop
  | document (root : Value) : Layered (document root)
  | layer (bindings : List (String × Value)) {below : Memory} (layered : Layered below) :
      Layered (Memory.over bindings below)

theorem Layered.extend {memory : Memory} (layered : memory.Layered) :
    ∀ bindings, (memory.extend bindings).Layered
  | none => layered
  | some bindings => .layer bindings layered

/-- The binding that the first step names, and the steps that lead on inside it. -/
def entered? (bindings : List (String × Value)) : List Step → Option (Value × List Step)
  | .key name :: steps => (Fields.get? name bindings).map (·, steps)
  | _ => none

variable {path : String} {steps : List Step}

theorem resolve_document (read : Memory.steps path = .ok steps) (root : Value) :
    (document root).resolve path = find path root steps := by
  simp only [document, read]

/-- A layer answers for the bindings it has and leaves every other path to the memory below. -/
theorem resolve_over (read : Memory.steps path = .ok steps) (bindings : List (String × Value))
    (below : Memory) : (Memory.over bindings below).resolve path =
      match entered? bindings steps with
      | some (v, rest) => find path v rest
      | none => below.resolve path := by
  simp only [Memory.over, read]
  match steps with
  | .key name :: rest => cases bound : Fields.get? name bindings <;> simp [entered?, bound]
  | [] | .index _ :: _ => rfl

theorem find_error {root : Value} {e : MemoryError} (failed : find path root steps = .error e) :
    e = .notFound path := by
  unfold find at failed
  split at failed
  · simp at failed
  · exact (Except.error.inj failed).symm

/-- A layered memory knows one error for a well-formed path. -/
theorem Layered.missing {memory : Memory} (layered : memory.Layered)
    (read : Memory.steps path = .ok steps) {e : MemoryError}
    (failed : memory.resolve path = .error e) : e = .notFound path := by
  induction layered with
  | document root =>
    rw [resolve_document read] at failed
    exact find_error failed
  | layer bindings layered ih =>
    rw [resolve_over read] at failed
    split at failed
    · exact find_error failed
    · exact ih failed

end Formula.Memory

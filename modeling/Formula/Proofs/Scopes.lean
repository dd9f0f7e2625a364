import Formula.Builtins.All
import Formula.Eval
import Formula.Proofs.Layers
import Formula.Proofs.PathGrammar

/-! Layers over a document are one document. A layer that lies over an object can be written into
the object, so a stack of layers comes down to the object that the bindings override from the
bottom layer to the top one. -/
namespace Formula

namespace Fields

variable {α : Type}

/-- The fields after binding one name after another; the last binding of a name stands. -/
def override (fields bindings : List (String × α)) : List (String × α) :=
  bindings.foldl (fun fields binding => insert binding.1 binding.2 fields) fields

theorem override_append (fields first second : List (String × α)) :
    override fields (first ++ second) = override (override fields first) second :=
  List.foldl_append

theorem get?_override (name : String) (bindings : List (String × α)) :
    ∀ fields, get? name (override fields bindings) =
      (bindings.reverse.lookup name).or (get? name fields) := by
  induction bindings with
  | nil => simp [override]
  | cons binding rest ih =>
    intro fields
    obtain ⟨key, v⟩ := binding
    have step : override fields ((key, v) :: rest) = override (insert key v fields) rest := rfl
    rw [step, ih, get?_insert, List.reverse_cons, List.lookup_append, Option.or_assoc]
    by_cases same : key = name
    · simp [same]
    · have apart : (name == key) = false := by simpa using fun equal => same equal.symm
      simp [same, apart, List.lookup_cons]

theorem get?_ofList (name : String) (bindings : List (String × α)) :
    get? name (ofList bindings) = bindings.reverse.lookup name := by
  have last := get?_override name bindings []
  rw [get?, Option.or_none] at last
  exact last

end Fields

namespace Memory

/-- Layers over an object, the bottom layer first; each layer is filled binding by binding. -/
def stack (fields : List (String × Value)) (layers : List (List (String × Value))) : Memory :=
  layers.foldl (fun below layer => Memory.over (Fields.ofList layer) below) (document (.object fields))

theorem over_document (fields layer : List (String × Value)) :
    Memory.over (Fields.ofList layer) (document (.object fields)) =
      document (.object (Fields.override fields layer)) := by
  have same (path : String) : (Memory.over (Fields.ofList layer) (document (.object fields))).resolve path =
      (document (.object (Fields.override fields layer))).resolve path := by
    cases read : Memory.steps path with
    | error e => simp only [Memory.over, document, read]
    | ok steps =>
      rw [resolve_over read, resolve_document read, resolve_document read]
      cases steps with
      | nil => exact absurd rfl (Path.steps_ok_iff.1 read).steps_nonempty
      | cons step rest =>
        cases step with
        | index position => rfl
        | key name =>
          simp only [entered?, find, Value.walk, Value.step, Fields.get?_override,
            Fields.get?_ofList]
          cases layer.reverse.lookup name <;> rfl
  exact congrArg Memory.mk (funext same)

theorem stack_eq (layers : List (List (String × Value))) :
    ∀ fields, stack fields layers = document (.object (Fields.override fields layers.flatten)) := by
  -- By induction on the layers: what lies below them is one object at every step.
  induction layers with
  | nil => intro fields; rfl
  | cons layer rest ih =>
    intro fields
    have step : stack fields (layer :: rest) = stack (Fields.override fields layer) rest := by
      simp only [stack, List.foldl_cons, over_document]
    rw [step, ih, List.flatten_cons, Fields.override_append]

/-- Layers over an object answer every path as the one object does that they override; what starts
at a bound name is found inside its last binding or nowhere; and every evaluation over the layers
comes to the same as over the object. -/
theorem stack_flattened (fields : List (String × Value)) (layers : List (List (String × Value))) :
    (∀ path, (stack fields layers).resolve path =
      (document (.object (Fields.override fields layers.flatten))).resolve path) ∧
    (∀ path name rest v, Memory.steps path = .ok (.key name :: rest) →
      layers.flatten.reverse.lookup name = some v →
        (stack fields layers).resolve path = find path v rest ∧
        (v.walk rest = none → (stack fields layers).resolve path = .error (.notFound path))) ∧
    (∀ (e : Expr) options, e.eval .builtins options (stack fields layers) =
      e.eval .builtins options (document (.object (Fields.override fields layers.flatten)))) := by
  have flat := stack_eq layers fields
  refine ⟨fun path => by rw [flat], ?_, fun e options => by rw [flat]⟩
  intro path name rest v read bound
  have inside : (stack fields layers).resolve path = find path v rest := by
    rw [flat, resolve_document read]
    simp [find, Value.walk, Value.step, Fields.get?_override, bound]
  refine ⟨inside, ?_⟩
  intro missing
  rw [inside, find, missing]

/-- A null local hides the object of its name, with everything inside it; an item is found in the layer that
binds its array, and a field that no layer hides in the document. -/
theorem stack_flattened_null :
    let memory := stack [("x", .object [("y", .int 1)]), ("z", .int 2)]
      [[("x", .int 3), ("x", .null)], [("w", .array [.int 4])]]
    Memory.steps "x.y" = .ok [.key "x", .key "y"] ∧ memory.resolve "x.y" = .error (.notFound "x.y") ∧
    Memory.steps "w[0]" = .ok [.key "w", .index 0] ∧ memory.resolve "w[0]" = .ok (.int 4) ∧
    memory.resolve "z" = .ok (.int 2) := by
  intro memory
  have hidden : Memory.steps "x.y" = .ok [.key "x", .key "y"] := by decide +kernel
  have item : Memory.steps "w[0]" = .ok [.key "w", .index 0] := by decide +kernel
  have field : Memory.steps "z" = .ok [.key "z"] := by decide +kernel
  obtain ⟨flat, inside, -⟩ := stack_flattened [("x", .object [("y", .int 1)]), ("z", .int 2)]
    [[("x", .int 3), ("x", .null)], [("w", .array [.int 4])]]
  refine ⟨hidden, (inside _ _ _ .null hidden rfl).2 rfl, item, (inside _ _ _ _ item rfl).1, ?_⟩
  exact (flat "z").trans (resolve_document field _)

end Memory

end Formula

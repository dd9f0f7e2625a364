import Formula.Builtins.All
import Formula.Eval
import Formula.Proofs.Tree

/-! The evaluator one node at a time: a node is entered with its children as functions of a
memory, and the function of its name runs over them. `Visits` says which nodes a run enters, at
which depth and over which memory. -/
namespace Formula

namespace Plan

variable {evaluate : Expr → Memory → Outcome} {args : List Expr} {index : Nat}
  {bindings : Option (List (String × Value))} {next : Value → Plan} {memory : Memory}

theorem run_present {child : Expr} (present : args[index]? = some child) :
    (Plan.child index bindings next).run memory (args.map evaluate) =
      (evaluate child (memory.extend bindings)).bind
        fun v => (next v).run memory (args.map evaluate) := by
  simp only [run, List.getElem?_map, present, Option.map_some]
  cases evaluate child (memory.extend bindings) <;> rfl

theorem run_absent (absent : args[index]? = none) :
    (Plan.child index bindings next).run memory (args.map evaluate) =
      (next .null).run memory (args.map evaluate) := by
  rw [run, List.getElem?_map, absent]
  rfl

end Plan

namespace Registry

theorem find?_name {registry : Registry} {name : String} {function : Function}
    (found : registry.find? name = some function) : function.name = name := by
  have same := List.find?_some found
  simpa using same

theorem find?_mem {registry : Registry} {name : String} {function : Function}
    (found : registry.find? name = some function) : function ∈ registry.functions :=
  List.mem_of_find?_eq_some found

section Registering

variable {registry : Registry} {function : Function} {added rest : List Function} {name : String}

theorem contains_iff : registry.contains name = true ↔ name ∈ registry.functions.map (·.name) := by
  simp [contains, find?]

theorem register_taken (taken : registry.contains function.name = true) :
    registry.register function = .error (.duplicate function.name) := by
  rw [register, if_pos taken]

theorem register_fresh (fresh : registry.contains function.name = false) :
    registry.register function = .ok ⟨registry.functions ++ [function]⟩ := by
  rw [register, if_neg (by simp [fresh])]

theorem registerAll_taken (taken : registry.contains function.name = true) :
    registry.registerAll (function :: rest) = (registry, .error (.duplicate function.name)) := by
  rw [registerAll, register_taken taken]

theorem registerAll_fresh (fresh : registry.contains function.name = false) :
    registry.registerAll (function :: rest) =
      (⟨registry.functions ++ [function]⟩ : Registry).registerAll rest := by
  rw [registerAll, register_fresh fresh]

theorem contains_append :
    (⟨registry.functions ++ added⟩ : Registry).contains name = true ↔
      registry.contains name = true ∨ name ∈ added.map (·.name) := by
  simp only [contains_iff, List.map_append, List.mem_append]

theorem registerAll_append (added rest : List Function) : ∀ registry : Registry,
    (added.map (·.name)).Nodup → (∀ f ∈ added, registry.contains f.name = false) →
    registry.registerAll (added ++ rest) = (⟨registry.functions ++ added⟩ : Registry).registerAll rest := by
  induction added with
  | nil => simp
  | cons function added ih =>
    intro registry distinct fresh
    obtain ⟨head, tail⟩ := List.forall_mem_cons.1 fresh
    rw [List.map_cons, List.nodup_cons] at distinct
    rw [List.cons_append, registerAll_fresh head, ih _ distinct.2, List.append_assoc, List.singleton_append]
    intro f member
    rw [← Bool.not_eq_true, contains_append, tail f member]
    rintro (⟨⟨⟩⟩ | same)
    rw [List.map_cons, List.map_nil, List.mem_singleton] at same
    exact distinct.1 (same ▸ List.mem_map_of_mem member)

end Registering

/-- No two standard functions share a name, so every one of them is registered. -/
theorem functions_builtinsWith (fallback : Builtins.Fallback) :
    (builtinsWith fallback).functions = Builtins.allWith fallback := by
  have names : (Builtins.allWith fallback).map (·.name) = Builtins.all.map (·.name) := rfl
  have distinct : (Builtins.all.map (·.name)).Nodup := by decide +kernel
  have registered := registerAll_append (Builtins.allWith fallback) [] empty (names ▸ distinct)
    (fun _ _ => rfl)
  rw [List.append_nil] at registered
  rw [builtinsWith, registered]
  rfl

/-- The registry as a plain list; runs on given inputs are computed over it. -/
theorem builtins_eq : builtins = ⟨Builtins.all⟩ :=
  congrArg Registry.mk (functions_builtinsWith .standard)

theorem mem_builtins {name : String} {function : Function}
    (found : builtins.find? name = some function) : function ∈ Builtins.all := by
  have member := find?_mem found
  rw [builtins, functions_builtinsWith] at member
  exact member

theorem find?_constant : builtins.find? Expr.constantName =
    some ⟨Expr.constantName, .any, Rule.constant, Builtins.constant⟩ := by
  rw [builtins_eq]
  rfl

theorem find?_accessor : builtins.find? Expr.accessorName =
    some ⟨Expr.accessorName, .any, Rule.accessor, Builtins.accessor⟩ := by
  rw [builtins_eq]
  rfl

variable {registry : Registry} {options : Options} {node : Expr} {depth : Nat}
  {children : List (Memory → Outcome)} {memory : Memory}

theorem enter_at_limit (limit : options.maxDepth ≤ depth) :
    registry.enter options node depth children memory = .error (.tooDeep depth options.maxDepth) := by
  simp [enter, limit]

theorem enter_unknown (room : depth < options.maxDepth) (unknown : registry.find? node.name = none) :
    registry.enter options node depth children memory = .error (.unknownFunction node.name) := by
  simp [enter, Nat.not_le.2 room, unknown]

theorem enter_known {function : Function} (room : depth < options.maxDepth)
    (found : registry.find? node.name = some function) :
    registry.enter options node depth children memory =
      (function.logic ⟨node, options, depth + 1, registry.size⟩).run memory children := by
  simp [enter, Nat.not_le.2 room, found]

end Registry

namespace Expr

variable {registry : Registry} {options : Options}

theorem evalAll_eq_map (args : List Expr) (depth : Nat) :
    evalAll registry options args depth =
      args.map fun e memory => e.evalAt registry options depth memory := by
  induction args with
  | nil => simp [evalAll]
  | cons e rest ih => simp [evalAll, ih]

/-- A constant is a node without children; a child is evaluated one level further down. -/
theorem evalAt_eq (e : Expr) (depth : Nat) (memory : Memory) :
    e.evalAt registry options depth memory = registry.enter options e depth
      (e.args.map fun child scope => child.evalAt registry options (depth + 1) scope) memory := by
  cases e with
  | constant v => simp [evalAt, args]
  | call name args => simp [evalAt, Expr.args, evalAll_eq_map]

theorem room_of_ok {e : Expr} {depth : Nat} {memory : Memory} {v : Value}
    (value : e.evalAt registry options depth memory = .ok v) : depth < options.maxDepth := by
  rcases Nat.lt_or_ge depth options.maxDepth with room | limit
  · exact room
  · rw [evalAt_eq, Registry.enter_at_limit limit] at value
    cases value

theorem evalAt_constant {depth : Nat} (room : depth < options.maxDepth) (v : Value) (memory : Memory) :
    (constant v).evalAt .builtins options depth memory = .ok v := by
  rw [evalAt_eq, Registry.enter_known room Registry.find?_constant]
  rfl

def answered (options : Options) (path : String) : Except MemoryError Value → Outcome
  | .ok .null | .error (.notFound _) => .ok ((options.whenNull path).getD .null)
  | .ok v => .ok v
  | .error e => .error (.fault (.memory e))

theorem answered_value (silent : ∀ path, options.whenNull path = none) (path : String) (v : Value) :
    answered options path (.ok v) = .ok v := by
  cases v <;> simp [answered, silent]

theorem answered_missing (silent : ∀ path, options.whenNull path = none) (path missing : String) :
    answered options path (.error (.notFound missing)) = .ok .null := by
  simp [answered, silent]

section Accessors

variable {options : Options} {e : Expr} {depth : Nat} {memory : Memory}

theorem name_of_path {path : String} (own : e.path? = some path) : e.name = accessorName := by
  unfold path? at own
  split at own
  · split at own
    · assumption
    · simp at own
  · simp at own

theorem pathless_of_name (apart : e.name ≠ accessorName) : e.path? = none := by
  cases own : e.path? with
  | none => rfl
  | some path => exact absurd (name_of_path own) apart

theorem evalAt_pathless (room : depth < options.maxDepth) (name : e.name = accessorName)
    (pathless : e.path? = none) : e.evalAt .builtins options depth memory =
      .error (.fault (.node e .noPath)) := by
  rw [evalAt_eq, Registry.enter_known room (name ▸ Registry.find?_accessor)]
  simp only [Builtins.accessor, pathless]
  rfl

theorem evalAt_path (room : depth < options.maxDepth) {path : String} (own : e.path? = some path) :
    e.evalAt .builtins options depth memory = answered options path (memory.resolve path) := by
  have name := name_of_path own
  rw [evalAt_eq, Registry.enter_known room (name ▸ Registry.find?_accessor)]
  simp only [Builtins.accessor, own, Plan.run]
  cases memory.resolve path with
  | ok v => cases v <;> rfl
  | error e => cases e <;> rfl

end Accessors

end Expr

/-- Values cannot be compared as a whole, so a run on given inputs is looked at through what its
value is read as: a number, a truth, a text or some numbers. -/
theorem Outcome.eq_of_read {α : Type} {outcome : Outcome} {read : Value → Option α} {value : α → Value}
    (only : ∀ v a, read v = some a → v = value a) {a : α}
    (holds : outcome.toOption.bind read = some a) : outcome = .ok (value a) := by
  cases outcome with
  | error e => cases holds
  | ok v => rw [only v a holds]

theorem Outcome.eq_int {outcome : Outcome} {n : Int64}
    (holds : outcome.toOption.bind Value.asInt? = some n) : outcome = .ok (.int n) := by
  apply eq_of_read _ holds
  rintro (_ | _ | _ | _ | _ | _ | _) n <;> simp [Value.asInt?]

theorem Outcome.eq_str {outcome : Outcome} {text : String}
    (holds : outcome.toOption.bind Value.asString? = some text) : outcome = .ok (.str text) := by
  apply eq_of_read _ holds
  rintro (_ | _ | _ | _ | _ | _ | _) text <;> simp [Value.asString?]

theorem Outcome.eq_bool {outcome : Outcome} {b : Bool}
    (holds : outcome.toOption.bind Value.asBool? = some b) : outcome = .ok (.bool b) := by
  apply eq_of_read _ holds
  rintro (_ | _ | _ | _ | _ | _ | _) b <;> simp [Value.asBool?]

theorem Value.ints_of_mapM {items : List Value} : ∀ {ns : List Int64},
    items.mapM Value.asInt? = some ns → items = ns.map .int := by
  induction items with
  | nil =>
    rintro _ ⟨⟩
    rfl
  | cons item rest ih =>
    intro ns holds
    rw [List.mapM_cons] at holds
    obtain ⟨n, here, holds⟩ := Option.bind_eq_some_iff.1 holds
    obtain ⟨others, later, holds⟩ := Option.bind_eq_some_iff.1 holds
    cases holds
    cases item with
    | int m =>
      cases here
      rw [ih later, List.map_cons]
    | null | bool | float | str | array | object => cases here

theorem Outcome.eq_ints {outcome : Outcome} {ns : List Int64}
    (holds : (outcome.toOption.bind Value.asArray?).bind (·.mapM Value.asInt?) = some ns) :
    outcome = .ok (.array (ns.map .int)) := by
  match outcome, holds with
  | .ok (.array items), holds => rw [Value.ints_of_mapM holds]

theorem Registry.validateTree_of_toOption {registry : Registry} {e : Expr}
    (accepted : (registry.validateTree e).toOption = some ()) : registry.validateTree e = .ok () := by
  cases checked : registry.validateTree e with
  | ok => rfl
  | error error => simp [checked, Except.toOption] at accepted

/-- The requests that a plan makes, with the bindings it lays over the memory. A request comes
only after the values of all earlier ones. -/
inductive Plan.Asks (memory : Memory) (children : List (Memory → Outcome)) :
    Plan → Nat → Option (List (String × Value)) → Prop
  | now {index bindings next} : Asks memory children (.child index bindings next) index bindings
  | later {index bindings next evaluate v asked scope} (present : children[index]? = some evaluate)
      (value : evaluate (memory.extend bindings) = .ok v)
      (rest : Asks memory children (next v) asked scope) :
      Asks memory children (.child index bindings next) asked scope
  | absent {index bindings next asked scope} (missing : children[index]? = none)
      (rest : Asks memory children (next .null) asked scope) :
      Asks memory children (.child index bindings next) asked scope
  | read {path next asked scope} (rest : Asks memory children (next (memory.resolve path)) asked scope) :
      Asks memory children (.read path next) asked scope

/-- Evaluating a tree at a depth and over a memory comes to evaluate a node of it at a depth and
over a memory of its own. -/
inductive Expr.Visits (registry : Registry) (options : Options) :
    Expr → Nat → Memory → Expr → Nat → Memory → Prop
  | self {e depth memory} : Visits registry options e depth memory e depth memory
  | child {e depth memory function index bindings part node level scope}
      (room : depth < options.maxDepth) (found : registry.find? e.name = some function)
      (asked : Plan.Asks memory
        (e.args.map fun child scope => child.evalAt registry options (depth + 1) scope)
        (function.logic ⟨e, options, depth + 1, registry.size⟩) index bindings)
      (present : e.args[index]? = some part)
      (rest : Visits registry options part (depth + 1) (memory.extend bindings) node level scope) :
      Visits registry options e depth memory node level scope

end Formula

import Formula.Proofs.Evaluation
import Formula.Proofs.Rules
import Formula.Proofs.Uniform

/-! Registering more functions changes nothing for the trees that are bound already. A rule asks the
registry only for the types of the children, which are known in a bound tree, and a name that is known
keeps its function. -/
namespace Formula

namespace Rule

/-- The rule looks at the known functions only for the types of the children. -/
def Local (rule : Rule) : Prop :=
  ∀ (first second : Signatures) (node : Expr),
    (∀ child ∈ node.args, child.types? first = child.types? second) → rule first node = rule second node

theorem local_anything : anything.Local := fun _ _ _ _ => rfl

theorem local_arity (least : Nat) (most : Option Nat) : (arity least most).Local := fun _ _ _ _ => rfl

theorem checkAll_congr {first second : Signatures} (node : Expr) {children : List Expr}
    (same : ∀ child ∈ children, child.types? first = child.types? second) :
    ∀ types, checkAll first node types children = checkAll second node types children := by
  induction children with
  | nil => intro types; cases types <;> simp [checkAll]
  | cons child rest ih =>
    obtain ⟨head, tail⟩ := List.forall_mem_cons.1 same
    have checked (expected : TypeSet) :
        checkChild first node child expected = checkChild second node child expected := by
      simp only [checkChild, head]
    intro types
    match types with
    | [] => rfl
    | [expected] => simp only [checkAll, checked, ih tail]
    | expected :: next :: types => simp only [checkAll, checked, ih tail]

theorem local_positional (types : List TypeSet) : (positional types).Local :=
  fun _ _ node same => checkAll_congr node same types

theorem local_all {rules : List Rule} (each : ∀ rule ∈ rules, rule.Local) : (all rules).Local := by
  induction rules with
  | nil => exact local_anything
  | cons rule rules ih =>
    obtain ⟨head, tail⟩ := List.forall_mem_cons.1 each
    intro first second node same
    simp only [all, head first second node same, ih tail first second node same]

theorem local_constant : constant.Local := fun _ _ _ _ => rfl

theorem local_accessor : accessor.Local := fun _ _ _ _ => rfl

theorem local_iteration : iteration.Local := fun _ _ _ _ => rfl

end Rule

namespace Builtins

open Rule

/-- The rules of the standard functions ask for nothing else. -/
theorem local_of_mem : ∀ f ∈ Builtins.all, f.rule.Local := by
  simp only [Builtins.all, allWith, accessPackage, arithmeticWith, logicPackage, comparison, textPackage,
    conversionPackage, datePackage, calendarField, shifting, collectionPackage,
    List.forall_mem_append, List.forall_mem_cons, List.not_mem_nil, false_imp_iff, implies_true,
    and_true]
  simp [local_all, local_arity, local_positional, local_anything, local_constant, local_accessor,
    local_iteration, Rule.unary, Rule.binary, Rule.exactly, atLeast, ofType, unaryNumber, binaryNumber,
    numberSequence, unaryString]

end Builtins

namespace Registry

/-- The registry after one further registration; a name that is taken changes nothing. -/
def registered (registry : Registry) (function : Function) : Registry :=
  match registry.register function with
  | .ok extended => extended
  | .error _ => registry

/-- The registry after any number of registrations, those that fail included. -/
def registeredAll (registry : Registry) (functions : List Function) : Registry :=
  functions.foldl registered registry

/-- Every known name keeps its function. -/
def Extends (extended registry : Registry) : Prop :=
  ∀ name function, registry.find? name = some function → extended.find? name = some function

theorem extends_registered (registry : Registry) (function : Function) :
    (registry.registered function).Extends registry := by
  intro name known found
  unfold registered register
  split
  · rename_i extended added
    split at added
    · simp at added
    · cases added
      simp only [find?, List.find?_append]
      rw [show registry.functions.find? (·.name == name) = some known from found]
      rfl
  · exact found

theorem extends_registeredAll (functions : List Function) :
    ∀ registry : Registry, (registry.registeredAll functions).Extends registry := by
  induction functions with
  | nil => exact fun registry name function found => found
  | cons function rest ih =>
    intro registry name known found
    exact ih (registry.registered function) name known
      (extends_registered registry function name known found)

variable {extended registry : Registry} {e : Expr}

theorem find?_of_bound (bound : registry.validateTree e = .ok ()) :
    ∃ function, registry.find? e.name = some function := by
  obtain ⟨function, found, _⟩ := validate_ok (validateTree_ok bound).2
  exact ⟨function, found⟩

theorem Extends.types? (more : extended.Extends registry) (bound : registry.validateTree e = .ok ()) :
    e.types? extended.signatures = e.types? registry.signatures := by
  cases e with
  | constant v => rfl
  | call name args =>
    obtain ⟨function, found⟩ := find?_of_bound bound
    have known : registry.find? name = some function := found
    simp only [Expr.types?, signatures, known, more name function known]

theorem Extends.validateTree (more : extended.Extends registry)
    (asked : ∀ function ∈ registry.functions, function.rule.Local)
    (bound : registry.validateTree e = .ok ()) : extended.validateTree e = .ok () := by
  -- The children come first, so the rule of a node finds their types unchanged.
  induction e using Expr.descend with
  | node e ih =>
    obtain ⟨children, accepted⟩ := validateTree_ok bound
    obtain ⟨function, found, ruled⟩ := validate_ok accepted
    apply validateTree_of_validate
    · have types : ∀ child ∈ e.args,
          child.types? extended.signatures = child.types? registry.signatures :=
        fun child member => more.types? (children child member)
      have still : function.rule extended.signatures e = .ok () :=
        (asked function (find?_mem found) _ _ e types).trans ruled
      simp only [validate, more _ _ found, still]
    · exact fun child member => ih child member (children child member)

theorem Extends.evalAt (more : extended.Extends registry)
    (standard : registry.functions ⊆ Builtins.all) (bound : registry.validateTree e = .ok ())
    (options : Options) (depth : Nat) (memory : Memory) :
    e.evalAt extended options depth memory = e.evalAt registry options depth memory := by
  -- No standard function sees how many functions are known, so a node makes the same plan.
  induction e using Expr.descend generalizing depth memory with
  | node e ih =>
    obtain ⟨function, found⟩ := find?_of_bound bound
    rw [Expr.evalAt_eq, Expr.evalAt_eq]
    rcases Nat.lt_or_ge depth options.maxDepth with room | limit
    · have alike : Call.Alike ⟨e, options, depth + 1, extended.size⟩
          ⟨e, options, depth + 1, registry.size⟩ := ⟨rfl, rfl, fun _ _ => rfl⟩
      have children : (e.args.map fun child scope => child.evalAt extended options (depth + 1) scope) =
          e.args.map fun child scope => child.evalAt registry options (depth + 1) scope := by
        apply List.map_congr_left
        intro child member
        funext scope
        exact ih child member ((validateTree_ok bound).1 child member) (depth + 1) scope
      rw [enter_known room (more _ _ found), enter_known room found,
        alike.standard function (standard (find?_mem found)), children]
    · rw [enter_at_limit limit, enter_at_limit limit]

/-- Extending a registry is conservative. Whatever is registered over standard functions, with
success or not, a tree that is bound stays bound, each of its nodes keeps its static type, and every run
has the outcome it had before. -/
theorem extension_conservative {registry : Registry} (standard : registry.functions ⊆ Builtins.all)
    (functions : List Function) {e : Expr} (bound : registry.validateTree e = .ok ()) :
    (registry.registeredAll functions).validateTree e = .ok () ∧
    (∀ node ∈ e.nodes, (registry.registeredAll functions).typesOf node = registry.typesOf node) ∧
    ∀ options memory,
      e.eval (registry.registeredAll functions) options memory = e.eval registry options memory := by
  have more := extends_registeredAll functions registry
  refine ⟨?_, ?_, ?_⟩
  · apply more.validateTree _ bound
    intro function known
    exact Builtins.local_of_mem function (standard known)
  · intro node inside
    simp only [typesOf, more.types? (Expr.validateTree_of_mem_nodes bound inside)]
  · intro options memory
    exact more.evalAt standard bound options 0 memory

/-- Some of the standard functions. -/
def few : Registry := ⟨Builtins.all.filter fun f => ["constant", "abs", "+"].contains f.name⟩

/-- A host asks for a name of its own and, in vain, for a standard one. -/
def hosted : List Function := [
  ⟨"abs", .string, Rule.unary, fun _ => .fail (.custom "no number")⟩,
  ⟨"host", .string, Rule.anything, fun _ => .succeed (.str "")⟩]

def magnitudePlusOne : Expr :=
  .call "+" [.call "abs" [.constant (.int (-3))], .constant (.int 1)]

/-- The name `abs` stays with the standard function. -/
theorem extension_conservative_abs :
    few.functions ⊆ Builtins.all ∧
    few.validateTree magnitudePlusOne = .ok () ∧
    (few.registeredAll hosted).size = few.size + 1 ∧
    (few.registeredAll hosted).validateTree magnitudePlusOne = .ok () ∧
    magnitudePlusOne.eval (few.registeredAll hosted) {} .empty = .ok (.int 4) := by
  have standard : few.functions ⊆ Builtins.all := List.filter_sublist.subset
  have bound : few.validateTree magnitudePlusOne = .ok () :=
    validateTree_of_toOption (by decide +kernel)
  have value : magnitudePlusOne.eval few {} .empty = .ok (.int 4) :=
    Outcome.eq_int (by decide +kernel)
  obtain ⟨still, _, same⟩ := extension_conservative standard hosted bound
  exact ⟨standard, bound, by decide +kernel, still, (same {} .empty).trans value⟩

/-- A single node is another matter: a child with an unknown name may produce anything, until the name
is given to a function that produces texts. -/
example :
    let host : Function := ⟨"host", .string, Rule.anything, fun _ => .succeed (.str "")⟩
    let node : Expr := .call "abs" [.call "host" []]
    (builtins.validate node).toOption = some () ∧
    ((builtins.register host).toOption.map fun more => (more.validate node).toOption) = some none := by
  rw [builtins_eq]
  decide +kernel

end Registry

end Formula

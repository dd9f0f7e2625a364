import Formula.Proofs.Tree
import Formula.Registry

/-! What a rule promises of the nodes it accepts, and what a bound tree promises of its nodes. -/
namespace Formula

namespace Rule

/-- Every node that the rule accepts has a number of children with the property. -/
def Counts (rule : Rule) (property : Nat → Prop) : Prop :=
  ∀ signatures node, rule signatures node = .ok () → property node.args.length

theorem counts_any (rule : Rule) : rule.Counts fun _ => True :=
  fun _ _ _ => trivial

theorem counts_arity (least : Nat) (most : Option Nat) :
    (arity least most).Counts fun found => least ≤ found ∧ ∀ bound, most = some bound → found ≤ bound := by
  intro signatures node accepted
  simp only [arity] at accepted
  split at accepted
  · simp at accepted
  · split at accepted
    · simp at accepted
    · rename_i enough
      refine ⟨by omega, ?_⟩
      intro bound limited
      subst limited
      simp only at accepted
      split at accepted
      · simp at accepted
      · omega

theorem counts_exactly (n : Nat) : (exactly n).Counts (· = n) := by
  intro signatures node accepted
  have both := counts_arity n (some n) signatures node accepted
  exact Nat.le_antisymm (both.2 n rfl) both.1

theorem counts_atLeast (n : Nat) : (atLeast n).Counts (n ≤ ·) := by
  intro signatures node accepted
  exact (counts_arity n none signatures node accepted).1

theorem all_cons {rule : Rule} {rules : List Rule} {signatures : Signatures} {node : Expr}
    (accepted : all (rule :: rules) signatures node = .ok ()) :
    rule signatures node = .ok () ∧ all rules signatures node = .ok () := by
  simp only [all] at accepted
  cases first : rule signatures node with
  | error e => simp [first, bind, Except.bind] at accepted
  | ok done => exact ⟨rfl, by simpa [first, bind, Except.bind] using accepted⟩

theorem Counts.all {rule : Rule} {property : Nat → Prop} (counts : rule.Counts property)
    (rules : List Rule) : (Rule.all (rule :: rules)).Counts property :=
  fun signatures node accepted => counts signatures node (all_cons accepted).1

theorem constant_accepts (signatures : Signatures) (node : Expr)
    (accepted : constant signatures node = .ok ()) : ∃ v, node = .constant v := by
  cases node with
  | constant v => exact ⟨v, rfl⟩
  | call name args =>
    cases args <;> simp [constant, Expr.args, Expr.value?] at accepted

theorem accessor_accepts (signatures : Signatures) (node : Expr)
    (accepted : accessor signatures node = .ok ()) :
    ∃ path steps, node.args = [.constant (.str path)] ∧ Memory.steps path = .ok steps := by
  simp only [accessor] at accepted
  split at accepted
  · rename_i path shape
    cases read : Memory.steps path with
    | ok steps => exact ⟨path, steps, shape, read⟩
    | error e => simp [read] at accepted
  · simp at accepted

theorem iteration_accepts (signatures : Signatures) (node : Expr)
    (accepted : iteration signatures node = .ok ()) : ∃ collection iterator body name,
      node.args = [collection, iterator, body] ∧ iterator.iterator? = some name := by
  obtain ⟨three, named⟩ := all_cons accepted
  have count := counts_exactly 3 signatures node three
  match shape : node.args, count with
  | [collection, iterator, body], _ =>
    obtain ⟨named, _⟩ := all_cons named
    simp only [shape, List.getElem?_cons_succ, List.getElem?_cons_zero, Option.bind_some] at named
    split at named
    · rename_i name single
      exact ⟨collection, iterator, body, name, rfl, single⟩
    · simp at named

end Rule

namespace Registry

variable {registry : Registry}

theorem validate_ok {node : Expr} (accepted : registry.validate node = .ok ()) :
    ∃ function, registry.find? node.name = some function ∧
      function.rule registry.signatures node = .ok () := by
  simp only [validate] at accepted
  split at accepted
  · simp at accepted
  · rename_i function found
    cases ruled : function.rule registry.signatures node with
    | ok done => exact ⟨function, found, by simp [ruled]⟩
    | error e => simp [ruled] at accepted

theorem validateTrees_ok {args : List Expr} (accepted : registry.validateTrees args = .ok ()) :
    ∀ e ∈ args, registry.validateTree e = .ok () := by
  induction args with
  | nil => simp
  | cons e rest ih =>
    simp only [validateTrees] at accepted
    cases first : registry.validateTree e with
    | error error => simp [first] at accepted
    | ok done =>
      simp only [first] at accepted
      intro other member
      rcases List.mem_cons.1 member with rfl | inRest
      · exact first
      · exact ih accepted other inRest

theorem validateTree_ok {e : Expr} (bound : registry.validateTree e = .ok ()) :
    (∀ child ∈ e.args, registry.validateTree child = .ok ()) ∧ registry.validate e = .ok () := by
  cases e with
  | constant v => exact ⟨by simp [Expr.args], by simpa [validateTree] using bound⟩
  | call name args =>
    simp only [validateTree] at bound
    cases children : registry.validateTrees args with
    | error error => simp [children] at bound
    | ok done => exact ⟨validateTrees_ok children, by simpa [children] using bound⟩

theorem validateTrees_of_mem {args : List Expr}
    (each : ∀ e ∈ args, registry.validateTree e = .ok ()) : registry.validateTrees args = .ok () := by
  induction args with
  | nil => rfl
  | cons e rest ih =>
    simp only [validateTrees, each e List.mem_cons_self]
    exact ih fun other member => each other (List.mem_cons_of_mem _ member)

theorem validateTree_of_validate {e : Expr} (accepted : registry.validate e = .ok ())
    (children : ∀ child ∈ e.args, registry.validateTree child = .ok ()) :
    registry.validateTree e = .ok () := by
  cases e with
  | constant v => simpa [validateTree] using accepted
  | call name args =>
    have bound : registry.validateTrees args = .ok () := validateTrees_of_mem children
    simp only [validateTree, bound]
    exact accepted

end Registry

namespace Expr

variable {e : Expr} {path : String}

/-- An iterator is an accessor, and its name is its whole path. -/
theorem path_of_iterator (single : e.iterator? = some path) : e.path? = some path := by
  unfold iterator? at single
  split at single
  · simp at single
  · rename_i text own
    split at single
    · rw [own, single]
    · simp at single

/-- The path of an iterator is one key, however it is written. -/
theorem key_of_iterator (single : e.iterator? = some path) :
    ∃ key, Path.parse path = .ok [.key key] := by
  unfold iterator? at single
  split at single
  · simp at single
  · split at single
    · rename_i key read
      exact ⟨key, Option.some.inj single ▸ read⟩
    · simp at single

end Expr

/-- Every node of a bound tree is bound. -/
theorem Expr.validateTree_of_mem_nodes {registry : Registry} {e node : Expr}
    (bound : registry.validateTree e = .ok ()) (inside : node ∈ e.nodes) :
    registry.validateTree node = .ok () := by
  induction e using descend with
  | node e ih =>
    rw [nodes_eq, List.mem_cons] at inside
    rcases inside with rfl | below
    · exact bound
    · obtain ⟨child, member, inside⟩ := mem_nodesAll.1 below
      exact ih child member ((Registry.validateTree_ok bound).1 child member) inside

end Formula

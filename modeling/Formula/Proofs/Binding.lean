import Formula.Proofs.Checks
import Formula.Proofs.Evaluation
import Formula.Proofs.Rules

/-! Two ways to a bound tree. One checks a finished tree, the other builds it node by node from the
leaves; both look at the nodes in post-order, so they accept the same trees and report the same fault of
all others. -/
namespace Formula

namespace Expr

mutual

def postorder : Expr → List Expr
  | .constant v => [.constant v]
  | .call name args => postorderAll args ++ [.call name args]

def postorderAll : List Expr → List Expr
  | [] => []
  | e :: rest => e.postorder ++ postorderAll rest

end

theorem postorder_eq (e : Expr) : e.postorder = postorderAll e.args ++ [e] := by
  cases e with
  | constant v => simp [postorder, args, postorderAll]
  | call name args => rw [postorder, Expr.args]

theorem mem_postorderAll {node : Expr} {args : List Expr} :
    node ∈ postorderAll args ↔ ∃ e ∈ args, node ∈ e.postorder := by
  induction args with
  | nil => simp [postorderAll]
  | cons e rest ih => simp [postorderAll, ih]

theorem mem_postorder {e node : Expr} : node ∈ e.postorder ↔ node ∈ e.nodes := by
  induction e using descend with
  | node e ih =>
    have children : node ∈ postorderAll e.args ↔ node ∈ nodesAll e.args := by
      rw [mem_postorderAll, mem_nodesAll]
      exact exists_congr fun child => and_congr_right (ih child)
    rw [postorder_eq, nodes_eq, List.mem_append, List.mem_singleton, List.mem_cons, children, or_comm]

end Expr

namespace Registry

variable (registry : Registry)

mutual

theorem validateTree_eq : (e : Expr) → registry.validateTree e = forM e.postorder registry.validate
  | .constant v => by
    rw [validateTree, Expr.postorder, List.forM_cons, List.forM_nil, bind_pure_unit]
  | .call name args => by
    rw [validateTree, validateTrees_eq args, Expr.postorder, List.forM_append, List.forM_cons, List.forM_nil,
      bind_pure_unit]
    cases forM (Expr.postorderAll args) registry.validate <;> rfl

theorem validateTrees_eq : (args : List Expr) →
    registry.validateTrees args = forM (Expr.postorderAll args) registry.validate
  | [] => rfl
  | e :: rest => by
    rw [validateTrees, validateTree_eq e, validateTrees_eq rest, Expr.postorderAll, List.forM_append]
    cases forM e.postorder registry.validate <;> rfl

end

mutual

/-- Builds a tree from its leaves, from left to right: a literal is checked, every other node is made
over its children as soon as they are there. -/
def assemble : Expr → Except BindError Expr
  | .constant v => (registry.validate (.constant v)).map fun _ => .constant v
  | .call name args => (assembleAll args).bind (registry.make name)

def assembleAll : List Expr → Except BindError (List Expr)
  | [] => .ok []
  | e :: rest => (assemble e).bind fun built => (assembleAll rest).map (built :: ·)

end

mutual

/-- Whatever is built is the tree itself, and nothing is built of a tree that fails the checks. -/
theorem assemble_eq : (e : Expr) → registry.assemble e = (registry.validateTree e).map fun _ => e
  | .constant v => by rw [assemble, validateTree]
  | .call name args => by
    rw [assemble, assembleAll_eq args, validateTree]
    cases registry.validateTrees args with
    | error error => rfl
    | ok done =>
      change registry.make name args = _
      rw [make]
      cases registry.validate (.call name args) <;> rfl

theorem assembleAll_eq : (args : List Expr) →
    registry.assembleAll args = (registry.validateTrees args).map fun _ => args
  | [] => rfl
  | e :: rest => by
    rw [assembleAll, assemble_eq e, assembleAll_eq rest, validateTrees]
    cases registry.validateTree e with
    | error error => rfl
    | ok done => cases registry.validateTrees rest <;> rfl

end

/-- A tree is bound exactly when each of its nodes passes its own check, and the first that does not, in
post-order, decides the error. Building the tree from its leaves gives the tree itself or the same error,
and every part of a bound tree is bound. -/
theorem binding_routes_agree (e : Expr) :
    (registry.validateTree e = .ok () ↔ ∀ node ∈ e.nodes, registry.validate node = .ok ()) ∧
    (∀ error, registry.validateTree e = .error error ↔
      ∃ before node after, e.postorder = before ++ node :: after ∧
        (∀ earlier ∈ before, registry.validate earlier = .ok ()) ∧
        registry.validate node = .error error) ∧
    registry.assemble e = (registry.validateTree e).map (fun _ => e) ∧
    (registry.validateTree e = .ok () → ∀ node ∈ e.nodes, registry.validateTree node = .ok ()) := by
  refine ⟨?_, fun error => ?_, assemble_eq registry e, fun bound node inside => ?_⟩
  · rw [validateTree_eq, forM_ok_iff]
    exact forall_congr' fun node => imp_congr_left Expr.mem_postorder
  · rw [validateTree_eq, forM_error_iff]
  · exact Expr.validateTree_of_mem_nodes bound inside

def threeFaults : Expr := .call "!" [.call "floor" [.constant (.str "x")], .call "nope" []]

def absence : Expr := .call "!" [.call "exists" [.accessor "x"]]

/-- The root has a child too many and its second child calls an unknown function, but the argument of the
first child is met before either. -/
theorem binding_routes_agree_faults :
    (∃ error, builtins.validateTree threeFaults = .error error ∧ builtins.assemble threeFaults = .error error ∧
      error.message = "'x' in floor('x') should be number, found string") ∧
    builtins.validateTree absence = .ok () ∧
      ∀ node ∈ absence.nodes, builtins.validateTree node = .ok () := by
  have failed : ∃ error, builtins.validateTree threeFaults = .error error ∧
      error.message = "'x' in floor('x') should be number, found string" := by
    rw [builtins_eq]
    exact ⟨_, rfl, by decide +kernel⟩
  have bound : builtins.validateTree absence = .ok () :=
    validateTree_of_toOption (by rw [builtins_eq]; decide +kernel)
  obtain ⟨error, fault, text⟩ := failed
  have built := (binding_routes_agree builtins threeFaults).2.2.1
  rw [fault] at built
  exact ⟨⟨error, fault, built, text⟩, bound, (binding_routes_agree builtins absence).2.2.2 bound⟩

end Registry

end Formula

import Formula.Expr.Basic

/-! Induction on expression trees, their nodes and their height. -/
namespace Formula.Expr

/-- Every child of a call is a case of its own, so that a statement about a tree needs no second
one about lists of trees. -/
@[elab_as_elim, induction_eliminator]
theorem induction {motive : Expr → Prop} (constant : ∀ v, motive (.constant v))
    (call : ∀ name args, (∀ e ∈ args, motive e) → motive (.call name args)) :
    ∀ e, motive e
  | .constant v => constant v
  | .call name args => call name args fun e _ => induction constant call e
termination_by e => e
decreasing_by
  have := List.sizeOf_lt_of_mem ‹e ∈ args›
  simp only [Expr.call.sizeOf_spec]
  omega

/-- The same induction where it makes no difference that a constant has no children. -/
@[elab_as_elim]
theorem descend {motive : Expr → Prop} (node : ∀ e, (∀ child ∈ e.args, motive child) → motive e)
    (e : Expr) : motive e := by
  induction e with
  | constant v => exact node _ (by simp [args])
  | call name args ih => exact node _ ih

mutual

/-- The nodes of a tree, each before its children. -/
def nodes : Expr → List Expr
  | .constant v => [.constant v]
  | .call name args => .call name args :: nodesAll args

def nodesAll : List Expr → List Expr
  | [] => []
  | e :: rest => e.nodes ++ nodesAll rest

end

def paths (e : Expr) : List String := e.nodes.filterMap path?

theorem nodes_eq (e : Expr) : e.nodes = e :: nodesAll e.args := by
  cases e with
  | constant v => simp [nodes, args, nodesAll]
  | call name args => simp [nodes, Expr.args]

theorem self_mem_nodes (e : Expr) : e ∈ e.nodes := by
  rw [nodes_eq]
  exact List.mem_cons_self

theorem mem_nodesAll {node : Expr} {args : List Expr} :
    node ∈ nodesAll args ↔ ∃ e ∈ args, node ∈ e.nodes := by
  induction args with
  | nil => simp [nodesAll]
  | cons e rest ih => simp [nodesAll, ih]

theorem nodes_of_child {e child node : Expr} (member : child ∈ e.args) (inside : node ∈ child.nodes) :
    node ∈ e.nodes := by
  rw [nodes_eq]
  exact List.mem_cons_of_mem _ (mem_nodesAll.2 ⟨child, member, inside⟩)

theorem path_mem_paths {e : Expr} {path : String} (own : e.path? = some path) : path ∈ e.paths :=
  List.mem_filterMap.2 ⟨e, self_mem_nodes e, own⟩

theorem paths_of_child {e child : Expr} {path : String} (member : child ∈ e.args)
    (named : path ∈ child.paths) : path ∈ e.paths := by
  obtain ⟨node, inside, own⟩ := List.mem_filterMap.1 named
  exact List.mem_filterMap.2 ⟨node, nodes_of_child member inside, own⟩

mutual

/-- The number of nodes on the longest way down to a leaf. -/
def height : Expr → Nat
  | .constant _ => 1
  | .call _ args => 1 + heightAll args

def heightAll : List Expr → Nat
  | [] => 0
  | e :: rest => max e.height (heightAll rest)

end

theorem height_eq (e : Expr) : e.height = 1 + heightAll e.args := by
  cases e with
  | constant v => simp [height, args, heightAll]
  | call name args => simp [height, Expr.args]

theorem height_pos (e : Expr) : 1 ≤ e.height := by
  rw [height_eq]
  omega

theorem height_le_heightAll {e : Expr} {args : List Expr} (member : e ∈ args) :
    e.height ≤ heightAll args := by
  induction args with
  | nil => simp at member
  | cons head rest ih =>
    simp only [heightAll]
    rcases List.mem_cons.1 member with rfl | inRest
    · omega
    · have := ih inRest
      omega

end Formula.Expr

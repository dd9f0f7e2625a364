import Formula.Builtins.All

/-! The forms of the standard functions. All but a few are strict; the others say for themselves which
of their children they evaluate, the accessor alone reads memory, and an iteration alone evaluates a
child over bindings of its own. -/
namespace Formula.Builtins

/-- The functions that choose which of their children to evaluate; all others are strict. -/
def selective : List String :=
  [Expr.constantName, Expr.accessorName, "&&", "||", "if", "coalesce", "foreach", "where"]

def iterations : List String := ["foreach", "where"]

theorem selective_of_iterations : ∀ name ∈ iterations, name ∈ selective := by decide

/-- What the logic of a standard function is made of, and under which names. -/
inductive Form : Function → Prop
  | strict {name returns rule} (check : Option Check) (compute : Compute) (plain : name ∉ selective) :
      Form ⟨name, returns, rule, Formula.strict check compute⟩
  | constant {returns rule} : Form ⟨Expr.constantName, returns, rule, constant⟩
  | accessor {returns rule} : Form ⟨Expr.accessorName, returns, rule, accessor⟩
  | connective {name returns rule} (stop : Bool) (named : name = "&&" ∨ name = "||") :
      Form ⟨name, returns, rule, connective stop⟩
  | branch {returns rule} : Form ⟨"if", returns, rule, branch⟩
  | coalesce {returns rule} : Form ⟨"coalesce", returns, rule, coalesce⟩
  | iteration {name returns rule} (finish : List (Value × Value) → Value) (named : name ∈ iterations) :
      Form ⟨name, returns, rule, iteration finish⟩

/-- Every standard function has one of the forms. -/
theorem form_of_mem : ∀ f ∈ all, Form f := by
  simp only [all, allWith, accessPackage, arithmeticWith, logicPackage, comparison, textPackage,
    conversionPackage, datePackage, calendarField, shifting, collectionPackage,
    List.forall_mem_append, List.forall_mem_cons, List.not_mem_nil, false_imp_iff, implies_true,
    and_true]
  repeat' apply And.intro
  all_goals first
    | exact .strict _ _ (by decide)
    | exact .constant
    | exact .accessor
    | exact .connective _ (by decide)
    | exact .branch
    | exact .coalesce
    | exact .iteration _ (by decide)

theorem strict_of_mem (f : Function) (member : f ∈ all) (plain : f.name ∉ selective) :
    ∃ check compute, f.logic = strict check compute := by
  cases form_of_mem f member with
  | strict check compute => exact ⟨check, compute, rfl⟩
  | constant | accessor | branch | coalesce => simp [selective] at plain
  | connective stop named => rcases named with rfl | rfl <;> simp [selective] at plain
  | iteration finish named => exact absurd (selective_of_iterations _ named) plain

theorem iteration_of_mem (f : Function) (member : f ∈ all) (named : f.name ∈ iterations) :
    ∃ finish, f.logic = iteration finish := by
  cases form_of_mem f member with
  | strict check compute plain => exact absurd (selective_of_iterations _ named) plain
  | constant | accessor | branch | coalesce =>
    simp [iterations, Expr.constantName, Expr.accessorName] at named
  | connective stop either => rcases either with rfl | rfl <;> simp [iterations] at named
  | iteration finish => exact ⟨finish, rfl⟩

end Formula.Builtins

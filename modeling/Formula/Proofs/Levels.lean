import Formula.Proofs.Evaluation
import Formula.Proofs.Uniform

/-! The level at which a node is entered. No function sees how deep its node lies, so a tree comes to the
same at every level, as far as the depth limit lets it: nearer to the root it is cut off later or no
longer, and nothing else changes. -/
namespace Formula

variable {α β : Type}

/-- Anything but the overflow of the depth limit. -/
def Calm (result : Except EvalError α) : Prop :=
  ∀ level limit, result ≠ .error (.tooDeep level limit)

theorem calm_ok (a : α) : Calm (.ok a) := by
  rintro _ _ ⟨⟩

theorem not_calm_overflow (level limit : Nat) : ¬ Calm (.error (.tooDeep level limit) : Except EvalError α) :=
  fun calm => calm level limit rfl

theorem Calm.of_bind {result : Except EvalError α} {next : α → Except EvalError β}
    (calm : Calm (result.bind next)) : Calm result := by
  rintro level limit rfl
  exact calm level limit rfl

/-- The first result is the second one, unless it is the overflow of the depth limit. -/
def CutOf (first second : Except EvalError α) : Prop := Calm first → first = second

namespace CutOf

theorem refl (result : Except EvalError α) : CutOf result result := fun _ => rfl

theorem overflow (level limit : Nat) (second : Except EvalError α) :
    CutOf (.error (.tooDeep level limit)) second :=
  fun calm => absurd calm (not_calm_overflow level limit)

theorem ok {second : Except EvalError α} {a : α} (cut : CutOf (.ok a) second) : second = .ok a :=
  (cut (calm_ok a)).symm

theorem trans {first second third : Except EvalError α} (here : CutOf first second)
    (there : CutOf second third) : CutOf first third := by
  intro calm
  obtain rfl := here calm
  exact there calm

theorem bind {first second : Except EvalError α} {next other : α → Except EvalError β}
    (start : CutOf first second) (later : ∀ a, CutOf (next a) (other a)) :
    CutOf (first.bind next) (second.bind other) := by
  intro calm
  obtain rfl := start calm.of_bind
  cases first with
  | ok a => exact later a calm
  | error e => rfl

theorem mapM {f g : α → Except EvalError β} (each : ∀ a, CutOf (f a) (g a)) (items : List α) :
    CutOf (items.mapM f) (items.mapM g) := by
  induction items with
  | nil => exact refl _
  | cons item rest ih =>
    rw [List.mapM_cons, List.mapM_cons]
    exact bind (each item) fun b => bind ih fun results => refl _

end CutOf

theorem Plan.run_cutOf {evaluate other : Expr → Memory → Outcome} {args : List Expr}
    (each : ∀ child ∈ args, ∀ scope, CutOf (evaluate child scope) (other child scope))
    (plan : Plan) (memory : Memory) :
    CutOf (plan.run memory (args.map evaluate)) (plan.run memory (args.map other)) := by
  induction plan with
  | done result =>
    cases result with
    | ok v => exact .refl _
    | error fault => exact .refl _
  | child index bindings next ih =>
    cases present : args[index]? with
    | none => simpa only [run_absent present] using ih .null
    | some child =>
      have first := each child (List.mem_of_getElem? present) (memory.extend bindings)
      simpa only [run_present present] using first.bind ih
  | read path next ih => exact ih (memory.resolve path)

namespace Expr

variable {options : Options}

/-- Nearer to the root a tree comes to the same, or overflows no longer. -/
theorem evalAt_cutOf (e : Expr) {level depth : Nat} (higher : level ≤ depth) (memory : Memory) :
    CutOf (e.evalAt .builtins options depth memory) (e.evalAt .builtins options level memory) := by
  induction e using descend generalizing level depth memory with
  | node e ih =>
    rw [evalAt_eq, evalAt_eq]
    rcases Nat.lt_or_ge depth options.maxDepth with room | limit
    · have above : level < options.maxDepth := by omega
      cases found : Registry.builtins.find? e.name with
      | none =>
        rw [Registry.enter_unknown room found, Registry.enter_unknown above found]
        exact .refl _
      | some function =>
        -- No function sees its depth, so one plan runs over the children at both depths.
        have alike : Call.Alike ⟨e, options, depth + 1, Registry.builtins.size⟩
            ⟨e, options, level + 1, Registry.builtins.size⟩ := ⟨rfl, rfl, fun _ _ => rfl⟩
        rw [Registry.enter_known room found, Registry.enter_known above found,
          alike.standard function (Registry.mem_builtins found)]
        apply Plan.run_cutOf
        intro child member scope
        exact ih child member (by omega) scope
    · rw [Registry.enter_at_limit limit]
      exact .overflow _ _ _

theorem evalAt_nearer {e : Expr} {level depth : Nat} {memory : Memory} {v : Value} (higher : level ≤ depth)
    (value : e.evalAt .builtins options depth memory = .ok v) :
    e.evalAt .builtins options level memory = .ok v := by
  have cut : CutOf (e.evalAt .builtins options depth memory) _ := evalAt_cutOf e higher memory
  rw [value] at cut
  exact cut.ok

theorem room_of_calm {e : Expr} {depth : Nat} {memory : Memory}
    (calm : Calm (e.evalAt .builtins options depth memory)) : depth < options.maxDepth := by
  rcases Nat.lt_or_ge depth options.maxDepth with room | limit
  · exact room
  · rw [evalAt_eq, Registry.enter_at_limit limit] at calm
    exact absurd calm (not_calm_overflow _ _)

end Expr

end Formula

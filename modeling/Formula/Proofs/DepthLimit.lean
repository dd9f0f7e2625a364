import Formula.Proofs.Evaluation
import Formula.Proofs.TreeDepth
import Formula.Proofs.Uniform

/-! The depth limit cuts an evaluation off and changes nothing else. For every tree there is a
least limit, no greater than its depth, from which on the outcome is always the same; below it the
outcome is the overflow at the limit. -/
namespace Formula

/-- Outcomes under growing limits, seen from a node at `depth`: the overflow at the limit while
fewer than `needed` levels fit, and one settled outcome as soon as they do. -/
structure Settles (outcomes : Nat → Outcome) (depth needed : Nat) (settled : Outcome) : Prop where
  calm : ∀ level limit, settled ≠ .error (.tooDeep level limit)
  cut : ∀ limit, depth ≤ limit → limit < depth + needed →
    outcomes limit = .error (.tooDeep limit limit)
  steady : ∀ limit, depth + needed ≤ limit → outcomes limit = settled

namespace Settles

variable {outcomes : Nat → Outcome} {depth needed : Nat} {settled : Outcome}

theorem constant (calm : ∀ level limit, settled ≠ .error (.tooDeep level limit)) :
    Settles (fun _ => settled) depth 0 settled where
  calm := calm
  cut limit above below := by omega
  steady _ _ := rfl

theorem andThen (first : Settles outcomes depth needed settled) (next : Value → Nat → Outcome)
    {bound : Nat} (small : needed ≤ bound)
    (later : ∀ v, ∃ more final, more ≤ bound ∧ Settles (next v) depth more final) :
    ∃ more final, more ≤ bound ∧
      Settles (fun limit => (outcomes limit).bind fun v => next v limit) depth more final := by
  cases settled with
  | error e =>
    refine ⟨needed, .error e, small, first.calm, ?_, ?_⟩
    · intro limit above below
      rw [first.cut limit above below, Except.bind]
    · intro limit enough
      rw [first.steady limit enough, Except.bind]
  | ok v =>
    obtain ⟨more, final, fits, rest⟩ := later v
    refine ⟨max needed more, final, by omega, rest.calm, ?_, ?_⟩
    · intro limit above below
      by_cases short : limit < depth + needed
      · rw [first.cut limit above short, Except.bind]
      · rw [first.steady limit (by omega), Except.bind]
        exact rest.cut limit above (by omega)
    · intro limit enough
      rw [first.steady limit (by omega), Except.bind]
      exact rest.steady limit (by omega)

theorem enter (plan : Settles outcomes (depth + 1) needed settled) {entered : Nat → Outcome}
    (stop : entered depth = .error (.tooDeep depth depth))
    (run : ∀ limit, depth < limit → entered limit = outcomes limit) :
    Settles entered depth (needed + 1) settled where
  calm := plan.calm
  cut limit above below := by
    by_cases least : limit = depth
    · rw [least, stop]
    · rw [run limit (by omega)]
      exact plan.cut limit (by omega) (by omega)
  steady limit enough := by
    rw [run limit (by omega)]
    exact plan.steady limit (by omega)

end Settles

/-- A plan settles as soon as its children do, whatever it goes on with. -/
theorem Plan.settles {evaluate : Nat → Expr → Memory → Outcome} {depth bound : Nat}
    {args : List Expr} (each : ∀ child ∈ args, ∀ scope, ∃ needed settled, needed ≤ bound ∧
      Settles (fun limit => evaluate limit child scope) depth needed settled)
    (plan : Plan) (memory : Memory) : ∃ needed settled, needed ≤ bound ∧
      Settles (fun limit => plan.run memory (args.map (evaluate limit))) depth needed settled := by
  induction plan with
  | done result =>
    cases result with
    | ok v => exact ⟨0, .ok v, Nat.zero_le _, Settles.constant (by simp)⟩
    | error fault => exact ⟨0, .error (.fault fault), Nat.zero_le _, Settles.constant (by simp)⟩
  | child index bindings next ih =>
    cases present : args[index]? with
    | none => simpa only [run_absent present] using ih .null
    | some child =>
      obtain ⟨needed, settled, small, first⟩ :=
        each child (List.mem_of_getElem? present) (memory.extend bindings)
      have later := first.andThen
        (fun v limit => (next v).run memory (args.map (evaluate limit))) small ih
      simpa only [run_present present] using later
  | read path next ih => exact ih (memory.resolve path)

namespace Expr

variable (options : Options)

theorem plan_eq {e : Expr} {function : Function}
    (found : Registry.builtins.find? e.name = some function) (limit depth known : Nat) :
    function.logic ⟨e, { options with maxDepth := limit }, depth, known⟩ =
      function.logic ⟨e, options, depth, known⟩ := by
  -- The limit is the only setting that varies, and no plan depends on it.
  have alike : Call.Alike ⟨e, { options with maxDepth := limit }, depth, known⟩
      ⟨e, options, depth, known⟩ := ⟨rfl, rfl, fun _ _ => rfl⟩
  exact alike.standard function (Registry.mem_builtins found)

theorem evalAt_settles (e : Expr) (depth : Nat) (memory : Memory) :
    ∃ needed settled, needed ≤ e.height ∧ 1 ≤ needed ∧ Settles (fun limit =>
      e.evalAt .builtins { options with maxDepth := limit } depth memory) depth needed settled := by
  -- By induction on the tree; depth and memory vary with the scopes of iterations.
  induction e using descend generalizing depth memory with
  | node e ih =>
    have stop : e.evalAt .builtins { options with maxDepth := depth } depth memory =
        .error (.tooDeep depth depth) := by
      rw [evalAt_eq, Registry.enter_at_limit (Nat.le_refl _)]
    cases found : Registry.builtins.find? e.name with
    | none =>
      have unknown : Settles (fun _ => .error (.unknownFunction e.name)) (depth + 1) 0
          (.error (.unknownFunction e.name)) := Settles.constant (by simp)
      refine ⟨1, _, height_pos e, Nat.le_refl _, unknown.enter stop ?_⟩
      intro limit room
      rw [evalAt_eq, Registry.enter_unknown room found]
    | some function =>
      have children : ∀ child ∈ e.args, ∀ scope, ∃ needed settled, needed ≤ heightAll e.args ∧
          Settles (fun limit => child.evalAt .builtins { options with maxDepth := limit } (depth + 1)
            scope) (depth + 1) needed settled := by
        intro child member scope
        obtain ⟨needed, settled, small, _, settles⟩ := ih child member (depth + 1) scope
        exact ⟨needed, settled, Nat.le_trans small (height_le_heightAll member), settles⟩
      obtain ⟨needed, settled, small, plan⟩ := Plan.settles children
        (function.logic ⟨e, options, depth + 1, Registry.builtins.size⟩) memory
      have top := height_eq e
      refine ⟨needed + 1, settled, by omega, by omega, plan.enter stop ?_⟩
      intro limit room
      rw [evalAt_eq, Registry.enter_known room found, plan_eq options found]

/-- The depth limit is a pure cut-off: below some limit, no greater than the depth of the tree, the
outcome is the overflow, and from it on the outcome is always the same and no overflow. -/
theorem eval_cutoff (e : Expr) (memory : Memory) :
    (∃ least settled, 1 ≤ least ∧ least ≤ e.depth ∧
      (∀ level limit, settled ≠ .error (.tooDeep level limit)) ∧
      (∀ limit, limit < least →
        e.eval .builtins { options with maxDepth := limit } memory = .error (.tooDeep limit limit)) ∧
      (∀ limit, least ≤ limit →
        e.eval .builtins { options with maxDepth := limit } memory = settled)) ∧
    (∀ limit, e.depth ≤ limit → ∀ level bound,
      e.eval .builtins { options with maxDepth := limit } memory ≠ .error (.tooDeep level bound)) ∧
    (∀ low high, low ≤ high →
      (∀ level bound,
        e.eval .builtins { options with maxDepth := low } memory ≠ .error (.tooDeep level bound)) →
      e.eval .builtins { options with maxDepth := high } memory =
        e.eval .builtins { options with maxDepth := low } memory) := by
  obtain ⟨least, settled, small, positive, settles⟩ := evalAt_settles options e 0 memory
  have bounded : least ≤ e.depth := depth_eq_height e ▸ small
  have cut (limit : Nat) (below : limit < least) :
      e.eval .builtins { options with maxDepth := limit } memory = .error (.tooDeep limit limit) :=
    settles.cut limit (Nat.zero_le _) (by omega)
  have steady (limit : Nat) (enough : least ≤ limit) :
      e.eval .builtins { options with maxDepth := limit } memory = settled :=
    settles.steady limit (by omega)
  refine ⟨⟨least, settled, positive, bounded, settles.calm, cut, steady⟩, ?_, ?_⟩
  · intro limit deep level bound
    rw [steady limit (by omega)]
    exact settles.calm level bound
  · intro low high ordered calm
    have enough : least ≤ low := by
      rcases Nat.lt_or_ge low least with short | enough
      · exact absurd (cut low short) (calm low low)
      · exact enough
    rw [steady low enough, steady high (by omega)]

end Expr

end Formula

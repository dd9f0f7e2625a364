import Formula.Proofs.Levels

/-! Connectives and `coalesce`. They evaluate their arguments in turn until one of them decides, and an
argument that fails ends the search as well. A call is therefore determined by the outcomes of its arguments
in their order: the laws of De Morgan hold of errors as of values, and a call may be spliced into a call of
the same function. -/
namespace Formula

@[simp] theorem Value.isTruthy_bool (b : Bool) : (Value.bool b).isTruthy = b := by
  cases b <;> rfl

namespace Builtins

/-- The functions that evaluate their arguments up to the first that decides. -/
inductive Search
  | truth (stop : Bool)
  | present
  deriving DecidableEq, Repr

namespace Search

def name : Search → String
  | .truth false => "&&"
  | .truth true => "||"
  | .present => "coalesce"

/-- What a value decides, if it does. -/
def decided? : Search → Value → Option Value
  | .truth stop, v => if v.isTruthy == stop then some (.bool stop) else none
  | .present, v => if v.isNull then none else some v

/-- The result when no argument decides. -/
def undecided : Search → Value
  | .truth stop => .bool !stop
  | .present => .null

def plan : Search → List Expr → Nat → Plan
  | .truth stop => untilTruth stop
  | .present => untilPresent

/-- The first of the outcomes that is an error or decides. -/
def first (search : Search) : List Outcome → Outcome
  | [] => .ok search.undecided
  | outcome :: rest => outcome.bind fun v =>
    match search.decided? v with
    | some w => .ok w
    | none => search.first rest

variable {search : Search} {v w : Value}

theorem plan_nil (search : Search) (index : Nat) : search.plan [] index = .succeed search.undecided := by
  cases search <;> rfl

theorem plan_cons (search : Search) (e : Expr) (rest : List Expr) (index : Nat) :
    search.plan (e :: rest) index = .child index none fun v =>
      match search.decided? v with
      | some w => .succeed w
      | none => search.plan rest (index + 1) := by
  cases search with
  | truth stop =>
    simp only [plan, untilTruth, decided?]
    congr 1
    funext v
    by_cases decides : (v.isTruthy == stop) = true
    · rw [if_pos decides, if_pos decides]
    · rw [if_neg decides, if_neg decides]
  | present =>
    simp only [plan, untilPresent, decided?]
    congr 1
    funext v
    by_cases absent : v.isNull = true
    · rw [if_pos absent, if_pos absent]
    · rw [if_neg absent, if_neg absent]

theorem decided?_undecided (search : Search) : search.decided? search.undecided = none := by
  rcases search with ⟨_ | _⟩ | _ <;> rfl

theorem decided?_decided (decides : search.decided? v = some w) : search.decided? w = some w := by
  cases search with
  | truth stop =>
    simp only [decided?, Option.ite_none_right_eq_some, Option.some.injEq] at decides
    obtain ⟨-, rfl⟩ := decides
    simp [decided?]
  | present =>
    simp only [decided?, Option.ite_none_left_eq_some, Option.some.injEq] at decides
    obtain ⟨present, rfl⟩ := decides
    simp [decided?, present]

/-- The run of a search is determined by the outcomes of its arguments. -/
theorem run_plan {evaluate : Expr → Memory → Outcome} {memory : Memory} (rest : List Expr) : ∀ done,
    (search.plan rest done.length).run memory ((done ++ rest).map evaluate) =
      search.first (rest.map fun e => evaluate e memory) := by
  -- By induction on the arguments still to come; `done` are those before them.
  induction rest with
  | nil =>
    intro done
    rw [plan_nil]
    rfl
  | cons e rest ih =>
    intro done
    have present : (done ++ e :: rest)[done.length]? = some e := by simp
    have later := ih (done ++ [e])
    simp only [List.length_append, List.length_singleton, List.append_assoc, List.singleton_append]
      at later
    rw [plan_cons, Plan.run_present present, Memory.extend, List.map_cons, first]
    congr 1
    funext v
    cases search.decided? v with
    | none => exact later
    | some w => rfl

/-- The outcomes of a call may be searched in the place of its own outcome. -/
theorem first_splice (before inner after : List Outcome) :
    search.first (before ++ search.first inner :: after) = search.first (before ++ inner ++ after) := by
  induction before with
  | nil =>
    induction inner with
    | nil => simp [first, Except.bind, decided?_undecided]
    | cons outcome rest ih =>
      cases outcome with
      | error e => rfl
      | ok v =>
        simp only [List.nil_append, List.cons_append, first, Except.bind] at ih ⊢
        cases decides : search.decided? v with
        | none => exact ih
        | some w => simp only [decided?_decided decides]
  | cons outcome rest ih =>
    cases outcome with
    | error e => rfl
    | ok v =>
      simp only [List.cons_append, first, Except.bind, ih]

theorem first_cutOf {outcome other : Outcome} (cut : CutOf outcome other) (before after : List Outcome) :
    CutOf (search.first (before ++ outcome :: after)) (search.first (before ++ other :: after)) := by
  induction before with
  | nil => exact cut.bind fun v => .refl _
  | cons head rest ih =>
    refine (CutOf.refl head).bind fun v => ?_
    cases search.decided? v with
    | none => exact ih
    | some w => exact .refl _

end Search

/-- The truth value of the other sign, or the same error. -/
def negated (outcome : Outcome) : Outcome := outcome.map fun v => .bool !v.isTruthy

/-- To negate what a connective comes to is to negate what it searches for, in outcomes of the other
sign. -/
theorem negated_first (stop : Bool) (outcomes : List Outcome) :
    negated ((Search.truth stop).first outcomes) = (Search.truth !stop).first (outcomes.map negated) := by
  induction outcomes with
  | nil => simp [Search.first, Search.undecided, negated, Except.map]
  | cons outcome rest ih =>
    cases outcome with
    | error e => rfl
    | ok v =>
      simp only [Search.first, List.map_cons, negated, Except.map, Except.bind, Search.decided?,
        Value.isTruthy_bool] at ih ⊢
      by_cases decides : v.isTruthy = stop
      · simp [decides]
      · simp [decides, ih]

end Builtins

namespace Expr

open Builtins

def negation (e : Expr) : Expr := .call "!" [e]

variable {options : Options} {depth : Nat} {memory : Memory}

theorem find?_search (search : Search) : ∃ function,
    Registry.builtins.find? search.name = some function ∧
      ∀ call, function.logic call = search.plan call.node.args 0 := by
  rw [Registry.builtins_eq]
  rcases search with ⟨_ | _⟩ | _ <;> exact ⟨_, rfl, fun _ => rfl⟩

theorem evalAt_search (search : Search) (room : depth < options.maxDepth) (args : List Expr) :
    (call search.name args).evalAt .builtins options depth memory =
      search.first (args.map fun arg => arg.evalAt .builtins options (depth + 1) memory) := by
  obtain ⟨function, found, logic⟩ := find?_search search
  have known : Registry.builtins.find? (call search.name args).name = some function := found
  rw [evalAt_eq, Registry.enter_known room known, logic]
  exact Search.run_plan args []

theorem evalAt_negation (room : depth < options.maxDepth) (e : Expr) :
    e.negation.evalAt .builtins options depth memory =
      negated (e.evalAt .builtins options (depth + 1) memory) := by
  have found : Registry.builtins.find? e.negation.name = some ⟨"!", .boolean, .unary,
      strict none (unary Builtins.not)⟩ := by
    rw [Registry.builtins_eq]
    rfl
  rw [evalAt_eq, Registry.enter_known room found]
  simp only [negation, args, strict, gather]
  rw [Plan.run_present (by rfl), Memory.extend]
  cases e.evalAt .builtins options (depth + 1) memory <;> rfl

/-- A call inside a call of the same function may be spliced into it, unless the inner call takes the
arguments beyond the depth limit. -/
theorem evalAt_splice (search : Search) (before inner after : List Expr) :
    CutOf
      ((call search.name (before ++ call search.name inner :: after)).evalAt .builtins options depth memory)
      ((call search.name (before ++ inner ++ after)).evalAt .builtins options depth memory) := by
  intro calm
  have room := room_of_calm calm
  -- One level nearer to the root, the inner call has its arguments where the outer call has its own.
  have nearer : CutOf ((call search.name inner).evalAt .builtins options (depth + 1) memory)
      (search.first (inner.map fun arg => arg.evalAt .builtins options (depth + 1) memory)) :=
    evalAt_search search room inner ▸ evalAt_cutOf _ (Nat.le_succ depth) memory
  rw [evalAt_search search room, List.map_append, List.map_cons] at calm ⊢
  rw [Search.first_cutOf nearer _ _ calm, Search.first_splice, evalAt_search search room, List.map_append,
    List.map_append]

theorem evalAt_negated_truth (stop : Bool) {args : List Expr} (present : args ≠ []) :
    (negation (call (Search.truth stop).name args)).evalAt .builtins options depth memory =
      (call (Search.truth !stop).name (args.map negation)).evalAt .builtins options depth memory := by
  -- The two sides overflow alike: `!` stands above the connective on one side, below it on the other.
  rcases Nat.lt_or_ge depth options.maxDepth with room | limit
  · rw [evalAt_negation room, evalAt_search (.truth !stop) room, List.map_map]
    rcases Nat.lt_or_ge (depth + 1) options.maxDepth with room' | limit'
    · rw [evalAt_search (.truth stop) room', negated_first, List.map_map]
      congr 2
      funext arg
      exact (evalAt_negation room' arg).symm
    · obtain ⟨arg, rest, rfl⟩ := List.exists_cons_of_ne_nil present
      rw [List.map_cons, Function.comp_apply, evalAt_eq, evalAt_eq, Registry.enter_at_limit limit',
        Registry.enter_at_limit limit']
      rfl
  · rw [evalAt_eq, evalAt_eq, Registry.enter_at_limit limit, Registry.enter_at_limit limit]

/-- The laws of De Morgan, for any number of arguments but none. Negation of a connective comes to the same
value or the very same error as the other connective over the negations, the overflow of the depth limit
included. -/
theorem de_morgan {args : List Expr} (present : args ≠ []) (options : Options) (depth : Nat)
    (memory : Memory) :
    (call "!" [call "&&" args]).evalAt .builtins options depth memory =
      (call "||" (args.map fun arg => call "!" [arg])).evalAt .builtins options depth memory ∧
    (call "!" [call "||" args]).evalAt .builtins options depth memory =
      (call "&&" (args.map fun arg => call "!" [arg])).evalAt .builtins options depth memory :=
  ⟨evalAt_negated_truth false present, evalAt_negated_truth true present⟩

/-- An argument that decides before an unknown function is reached, an unknown function that is reached,
and a limit which both sides come to at the same node. -/
theorem de_morgan_cases :
    let decided : List Expr := [constant (.int 1), constant .null, call "unknown" []]
    let failing : List Expr := [constant (.int 1), call "unknown" [], constant .null]
    decided ≠ [] ∧ failing ≠ [] ∧
    (call "||" (decided.map fun arg => call "!" [arg])).evalAt .builtins {} 0 .empty = .ok (.bool true) ∧
    (call "||" (failing.map fun arg => call "!" [arg])).evalAt .builtins {} 0 .empty =
      .error (.unknownFunction "unknown") ∧
    (call "||" (failing.map fun arg => call "!" [arg])).evalAt .builtins { maxDepth := 1 } 0 .empty =
      .error (.tooDeep 1 1) := by
  intro decided failing
  have some_decided : decided ≠ [] := List.cons_ne_nil _ _
  have some_failing : failing ≠ [] := List.cons_ne_nil _ _
  refine ⟨some_decided, some_failing, ?_, ?_, ?_⟩
  · rw [← (de_morgan some_decided {} 0 .empty).1, Registry.builtins_eq]
    rfl
  · rw [← (de_morgan some_failing {} 0 .empty).1, Registry.builtins_eq]
    rfl
  · rw [← (de_morgan some_failing { maxDepth := 1 } 0 .empty).1, Registry.builtins_eq]
    rfl

end Expr

end Formula

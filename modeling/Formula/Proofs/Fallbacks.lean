import Formula.Proofs.Endings
import Formula.Proofs.Rules
import Mathlib.Data.List.Forall2

/-! The fallbacks of arithmetic stand for operands that no bound tree supplies. Whatever they are
set to, failures included, the value of a bound tree is the same. -/
namespace Formula

namespace Builtins

variable (fallback : Fallback)

theorem double_number {v : Value} (number : v.isNumber = true) :
    double fallback v = double .standard v := by
  cases v with
  | int | float => rfl
  | null | bool | str | array | object => simp [Value.isNumber] at number

theorem onDoubles_numbers (operation : Float → Float → Float) {a b : Value}
    (left : a.isNumber = true) (right : b.isNumber = true) :
    onDoubles fallback operation a b = onDoubles .standard operation a b := by
  simp only [onDoubles, double_number fallback left, double_number fallback right]

theorem isNumber_onDoubles {operation : Float → Float → Float} {a b v : Value}
    (computed : onDoubles fallback operation a b = .ok v) : v.isNumber = true := by
  unfold onDoubles at computed
  cases left : double fallback a with
  | error fault => simp [left, bind, Except.bind] at computed
  | ok x =>
    cases right : double fallback b with
    | error fault => simp [left, right, bind, Except.bind] at computed
    | ok y =>
      simp only [left, right, bind, Except.bind, pure, Except.pure, Except.ok.injEq] at computed
      exact computed ▸ rfl

theorem isNumber_exactly {operator : String} {a b v : Value} {result : Option Int64}
    (computed : exactly operator a b result = .ok v) : v.isNumber = true := by
  cases result with
  | none => simp [exactly] at computed
  | some n =>
    simp only [exactly, Except.ok.injEq] at computed
    exact computed ▸ rfl

/-- On operands of a kind the operation needs no fallback and stays within the kind. -/
structure Independent (kind : Value → Prop)
    (operation : Fallback → Value → Value → Except Fault Value) : Prop where
  same : ∀ fallback a b, kind a → kind b → operation fallback a b = operation .standard a b
  closed : ∀ a b v, kind a → kind b → operation .standard a b = .ok v → kind v

theorem Independent.foldArgs {kind : Value → Prop}
    {operation : Fallback → Value → Value → Except Fault Value}
    (independent : Independent kind operation) {args : List Value} (good : ∀ v ∈ args, kind v) :
    ∀ acc, kind acc →
      Formula.foldArgs (operation fallback) acc args = Formula.foldArgs (operation .standard) acc args ∧
      ∀ v, Formula.foldArgs (operation .standard) acc args = .ok v → kind v := by
  induction args with
  | nil =>
    intro acc start
    refine ⟨rfl, ?_⟩
    intro v computed
    simp only [Formula.foldArgs, Except.ok.injEq] at computed
    exact computed ▸ start
  | cons w rest ih =>
    intro acc start
    obtain ⟨first, others⟩ := List.forall_mem_cons.1 good
    simp only [Formula.foldArgs, independent.same fallback acc w start first]
    cases step : operation .standard acc w with
    | error fault => simp
    | ok next => exact ih others next (independent.closed acc w next start first step)

theorem Independent.folding {kind : Value → Prop}
    {operation : Fallback → Value → Value → Except Fault Value}
    (independent : Independent kind operation) (call : Call) {args : List Value}
    (good : ∀ v ∈ args, kind v) :
    Formula.folding (operation fallback) call args = Formula.folding (operation .standard) call args := by
  cases args with
  | nil => rfl
  | cons first rest =>
    obtain ⟨start, others⟩ := List.forall_mem_cons.1 good
    exact (independent.foldArgs fallback others first start).1

theorem number_of_numberOrString {v : Value} (either : Check.numberOrString.passes v = true)
    (notText : ∀ s, v ≠ .str s) : v.isNumber = true := by
  cases v with
  | int | float => rfl
  | str s => exact absurd rfl (notText s)
  | null | bool | array | object => simp [Check.passes] at either

theorem numberOrString_of_number {v : Value} (number : v.isNumber = true) :
    Check.numberOrString.passes v = true := by
  cases v with
  | int | float => rfl
  | null | bool | str | array | object => simp [Value.isNumber] at number

theorem add_same {a b : Value} (left : Check.numberOrString.passes a = true)
    (right : Check.numberOrString.passes b = true) : add fallback a b = add .standard a b := by
  unfold add
  split
  · rfl
  · rfl
  · rfl
  · rename_i notLeft notRight _
    exact onDoubles_numbers fallback _ (number_of_numberOrString left notLeft)
      (number_of_numberOrString right notRight)

theorem add_number {a b v : Value} (left : a.isNumber = true) (right : b.isNumber = true)
    (computed : add .standard a b = .ok v) : v.isNumber = true := by
  unfold add at computed
  split at computed
  · exact isNumber_exactly computed
  · simp [Value.isNumber] at left
  · simp [Value.isNumber] at right
  · exact isNumber_onDoubles _ computed

theorem independent_add : Independent (Check.numberOrString.passes · = true) add where
  same fallback _ _ left right := add_same fallback left right
  closed a b v left right computed := by
    unfold add at computed
    split at computed
    · exact numberOrString_of_number (isNumber_exactly computed)
    · cases computed; rfl
    · cases computed; rfl
    · exact numberOrString_of_number (isNumber_onDoubles _ computed)

/-- Addition in `sum` starts from numbers only and therefore stays with numbers. -/
theorem independent_total : Independent (Value.isNumber · = true) add where
  same fallback _ _ left right :=
    add_same fallback (numberOrString_of_number left) (numberOrString_of_number right)
  closed _ _ _ left right computed := add_number left right computed

/-- On any two operands the operation either has a number for its result and no use for a fallback,
or works on their doubles. -/
def Numeric (operation : Fallback → Value → Value → Except Fault Value) : Prop :=
  ∀ a b, (∃ result, (∀ v, result = .ok v → v.isNumber = true) ∧
      ∀ fallback, operation fallback a b = result) ∨
    ∃ onFloats, ∀ fallback, operation fallback a b = onDoubles fallback onFloats a b

theorem Numeric.independent {operation : Fallback → Value → Value → Except Fault Value}
    (numeric : Numeric operation) : Independent (Value.isNumber · = true) operation where
  same fallback a b left right := by
    rcases numeric a b with ⟨result, _, always⟩ | ⟨onFloats, doubles⟩
    · rw [always, always]
    · rw [doubles, doubles]
      exact onDoubles_numbers fallback onFloats left right
  closed a b v left right computed := by
    rcases numeric a b with ⟨result, number, always⟩ | ⟨onFloats, doubles⟩
    · exact number v (always .standard ▸ computed)
    · exact isNumber_onDoubles .standard (doubles .standard ▸ computed)

theorem numeric_subtract : Numeric subtract := by
  intro a b
  unfold subtract
  split
  · exact .inl ⟨_, fun _ => isNumber_exactly, fun _ => rfl⟩
  · exact .inr ⟨_, fun _ => rfl⟩

theorem numeric_multiply : Numeric multiply := by
  intro a b
  unfold multiply
  split
  · exact .inl ⟨_, fun _ => isNumber_exactly, fun _ => rfl⟩
  · exact .inr ⟨_, fun _ => rfl⟩

theorem numeric_divide : Numeric divide := by
  intro a b
  unfold divide
  split
  · exact .inl ⟨.error .divisionByZero, by simp, fun _ => rfl⟩
  · split
    · exact .inl ⟨_, fun _ => isNumber_exactly, fun _ => rfl⟩
    · exact .inr ⟨_, fun _ => rfl⟩

theorem numeric_modulo (call : Call) : Numeric (modulo · call) := by
  intro a b
  simp only [modulo]
  split
  · exact .inl ⟨.error .divisionByZero, by simp, fun _ => rfl⟩
  · split
    · exact .inl ⟨_, fun _ => isNumber_exactly, fun _ => rfl⟩
    · exact .inr ⟨_, fun _ => rfl⟩

theorem numeric_power (call : Call) : Numeric (power · call) := by
  intro a b
  simp only [power]
  split
  · split
    · exact .inl ⟨_, fun _ => isNumber_exactly, fun _ => rfl⟩
    · exact .inr ⟨_, fun _ => rfl⟩
  · exact .inr ⟨_, fun _ => rfl⟩

theorem numbers_array (call : Call) {v : Value} (array : Check.array.passes v = true) :
    numbers fallback call v = numbers .standard call v ∧
      ∀ items, numbers .standard call v = .ok items → ∀ item ∈ items, item.isNumber = true := by
  cases v with
  | array items =>
    refine ⟨rfl, ?_⟩
    intro found computed
    simp only [numbers, Value.asArray?, bind, Except.bind] at computed
    split at computed
    · rename_i all
      cases computed
      simpa using all
    · simp at computed
  | null | bool | int | float | str | object => simp [Check.passes] at array

theorem sum_array (call : Call) {v : Value} (array : Check.array.passes v = true) :
    sum fallback call v = sum .standard call v ∧
      ∀ total, sum .standard call v = .ok total → total.isNumber = true := by
  obtain ⟨same, good⟩ := numbers_array fallback call array
  simp only [sum, same]
  cases found : numbers .standard call v with
  | error fault => exact ⟨rfl, by simp [bind, Except.bind]⟩
  | ok items => exact independent_total.foldArgs fallback (good items found) (.int 0) rfl

theorem average_array (call : Call) {v : Value} (array : Check.array.passes v = true) :
    average fallback call v = average .standard call v := by
  obtain ⟨same, number⟩ := sum_array fallback call array
  simp only [average, (numbers_array fallback call array).1, same]
  cases found : sum .standard call v with
  | error fault => rfl
  | ok total =>
    simp only [bind, Except.bind, double_number fallback (number total found)]

theorem abs_number (call : Call) {v : Value} (number : v.isNumber = true) :
    abs fallback call v = abs .standard call v := by
  unfold abs
  split
  · rfl
  · rw [double_number fallback number]

theorem roundTo_number (places : Nat) {v : Value} (number : v.isNumber = true) :
    roundTo fallback places v = roundTo .standard places v := by
  unfold roundTo
  split
  · rfl
  · rw [double_number fallback number]

theorem round_numbers (call : Call) {args : List Value}
    (good : ∀ v ∈ args, v.isNumber = true) :
    Builtins.round fallback call args = Builtins.round .standard call args := by
  match args with
  | [v] => exact roundTo_number fallback 0 (good v (by simp))
  | [v, places] =>
    simp only [Builtins.round]
    cases places? places with
    | some n => exact roundTo_number fallback n (good v (by simp))
    | none => rfl
  | [] | _ :: _ :: _ :: _ => rfl

theorem pick_nonempty (beats : Value → Value → Bool) {args : List Value}
    (present : 1 ≤ args.length) : pick fallback beats args = pick .standard beats args := by
  cases args with
  | nil => simp at present
  | cons first rest => rfl

end Builtins

/-- The functions have one name and one rule, and on the nodes that it accepts one logic. -/
structure Function.Agrees (f g : Function) : Prop where
  name : f.name = g.name
  rule : f.rule = g.rule
  logic : ∀ signatures call, g.rule signatures call.node = .ok () → f.logic call = g.logic call

namespace Function

theorem Agrees.refl (f : Function) : f.Agrees f := ⟨rfl, rfl, fun _ _ _ => rfl⟩

variable {name : String} {returns : TypeSet} {rule : Rule} {demand : Check}

/-- Strict functions agree when their computations do on as many values as the rule wants, each of
them checked. -/
theorem agrees_strict {property : Nat → Prop} (counts : rule.Counts property) {compute other : Compute}
    (same : ∀ call args, property args.length → (∀ v ∈ args, demand.passes v = true) →
      compute call args = other call args) :
    Agrees ⟨name, returns, rule, strict (some demand) compute⟩
      ⟨name, returns, rule, strict (some demand) other⟩ where
  name := rfl
  rule := rfl
  logic signatures call accepted := by
    apply strict_congr
    intro args supplied
    have count := counts signatures call.node accepted
    exact same call args (supplied.1 ▸ count) fun v member => supplied.2 v member demand rfl

theorem agrees_unary {compute other : Call → Value → Except Fault Value}
    (same : ∀ call v, demand.passes v = true → compute call v = other call v) :
    Agrees ⟨name, returns, rule, strict (some demand) (unary compute)⟩
      ⟨name, returns, rule, strict (some demand) (unary other)⟩ := by
  refine agrees_strict (Rule.counts_any rule) ?_
  intro call args _ good
  match args with
  | [v] => exact same call v (good v (by simp))
  | [] | _ :: _ :: _ => rfl

theorem agrees_binary {compute other : Call → Value → Value → Except Fault Value}
    (same : ∀ call v w, demand.passes v = true → demand.passes w = true →
      compute call v w = other call v w) :
    Agrees ⟨name, returns, rule, strict (some demand) (binary compute)⟩
      ⟨name, returns, rule, strict (some demand) (binary other)⟩ := by
  refine agrees_strict (Rule.counts_any rule) ?_
  intro call args _ good
  match args with
  | [v, w] => exact same call v w (good v (by simp)) (good w (by simp))
  | [] | [_] | _ :: _ :: _ :: _ => rfl

end Function

namespace Builtins

open Formula.Function Formula.Rule

variable (fallback : Fallback)

variable {name : String} {returns : TypeSet} {rule : Rule} {demand : Check}

theorem agrees_folding {operation : Fallback → Value → Value → Except Fault Value}
    (independent : Independent (demand.passes · = true) operation) :
    Agrees ⟨name, returns, rule, strict (some demand) (folding (operation fallback))⟩
      ⟨name, returns, rule, strict (some demand) (folding (operation .standard))⟩ :=
  agrees_strict (counts_any rule) fun call _ _ good => independent.folding fallback call good

theorem agrees_pick (counts : rule.Counts (1 ≤ ·)) (beats : Value → Value → Bool) :
    Agrees ⟨name, returns, rule, strict (some demand) fun _ args => pick fallback beats args⟩
      ⟨name, returns, rule, strict (some demand) fun _ args => pick .standard beats args⟩ :=
  agrees_strict counts fun _ _ count _ => pick_nonempty fallback beats count

theorem agrees_arithmetic :
    List.Forall₂ Agrees (arithmeticWith fallback) (arithmeticWith .standard) := by
  unfold arithmeticWith
  refine .cons (agrees_folding fallback independent_add) <|
    .cons (agrees_folding fallback numeric_subtract.independent) <|
    .cons (agrees_folding fallback numeric_multiply.independent) <|
    .cons (agrees_folding fallback numeric_divide.independent) <|
    .cons (agrees_binary fun call => (numeric_modulo call).independent.same fallback) <|
    .cons (agrees_binary fun call => (numeric_power call).independent.same fallback) <|
    .cons (agrees_pick fallback ((counts_atLeast 1).all _) _) <|
    .cons (agrees_pick fallback ((counts_atLeast 1).all _) _) <|
    .cons (agrees_unary fun call _ array => (sum_array fallback call array).1) <|
    .cons (agrees_unary fun call _ array => average_array fallback call array) <|
    .cons (agrees_unary fun call _ number => abs_number fallback call number) <|
    .cons (Agrees.refl _) <| .cons (Agrees.refl _) <| .cons ?_ .nil
  exact agrees_strict (counts_any _) fun call _ _ good => round_numbers fallback call good

theorem agrees_all : List.Forall₂ Agrees (allWith fallback) all := by
  have same (package : List Function) : List.Forall₂ Agrees package package :=
    List.forall₂_same.2 fun f _ => Agrees.refl f
  unfold all allWith
  repeat' apply List.rel_append
  all_goals first | exact agrees_arithmetic fallback | exact same _

end Builtins

namespace Registry

theorem find?_of_forall₂ {first second : List Function}
    (agree : List.Forall₂ Function.Agrees first second) {name : String} {g : Function}
    (found : second.find? (·.name == name) = some g) :
    ∃ f, first.find? (·.name == name) = some f ∧ f.Agrees g := by
  induction agree with
  | nil => simp at found
  | @cons f g _ _ agrees _ ih =>
    simp only [List.find?_cons, agrees.name] at found ⊢
    by_cases here : (g.name == name) = true
    · simp only [here, Option.some.injEq] at found ⊢
      exact ⟨f, rfl, found ▸ agrees⟩
    · simp only [here] at found ⊢
      exact ih found

theorem find?_agrees {name : String} (fallback : Builtins.Fallback) {g : Function}
    (found : builtins.find? name = some g) :
    ∃ f, (builtinsWith fallback).find? name = some f ∧ f.Agrees g := by
  simp only [find?, builtins, functions_builtinsWith] at found ⊢
  exact find?_of_forall₂ (Builtins.agrees_all fallback) found

theorem size_builtinsWith (fallback : Builtins.Fallback) :
    (builtinsWith fallback).size = builtins.size := by
  simp only [size, builtins, functions_builtinsWith]
  exact (Builtins.agrees_all fallback).length_eq

end Registry

theorem Expr.evalAt_builtinsWith {e : Expr} (bound : Registry.builtins.validateTree e = .ok ())
    (fallback : Builtins.Fallback) (options : Options) (depth : Nat) (memory : Memory) :
    e.evalAt (.builtinsWith fallback) options depth memory =
      e.evalAt .builtins options depth memory := by
  -- By induction on the tree, at all depths and over all memories at once.
  induction e using descend generalizing depth memory with
  | node e ih =>
    obtain ⟨children, accepted⟩ := Registry.validateTree_ok bound
    obtain ⟨g, found, ruled⟩ := Registry.validate_ok accepted
    obtain ⟨f, other, agrees⟩ := Registry.find?_agrees fallback found
    rw [evalAt_eq, evalAt_eq]
    rcases Nat.lt_or_ge depth options.maxDepth with room | limit
    · have plan := agrees.logic Registry.builtins.signatures
        ⟨e, options, depth + 1, Registry.builtins.size⟩ ruled
      have parts : (e.args.map fun child scope =>
            child.evalAt (.builtinsWith fallback) options (depth + 1) scope) =
          e.args.map fun child scope => child.evalAt .builtins options (depth + 1) scope := by
        apply List.map_congr_left
        intro child member
        funext scope
        exact ih child member (children child member) (depth + 1) scope
      rw [Registry.enter_known room other, Registry.enter_known room found,
        Registry.size_builtinsWith, plan, parts]
    · rw [Registry.enter_at_limit limit, Registry.enter_at_limit limit]

end Formula

import Formula.Proofs.Forms
import Formula.Proofs.Messages
import Mathlib.Data.List.Basic

/-! Plans of one shape. Two nodes with as many children and the same literal make plans with the same
requests, and with endings that are akin, whatever stands in the children; an iteration also needs
the same iterator. Over children that come to outcomes of one kind such plans come to outcomes of one
kind, and so for every relation that passes through what is done with a value. -/
namespace Formula

namespace Outcome

/-- A relation that holds of outcomes of one kind and passes through what follows a value. -/
structure Congruence (related : Outcome → Outcome → Prop) : Prop where
  kind {first second : Outcome} : first.kind = second.kind → related first second
  bind {first second : Outcome} {next other : Value → Outcome} : related first second →
    (∀ v, related (next v) (other v)) → related (first.bind next) (second.bind other)

theorem congruence_kind : Congruence fun first second => first.kind = second.kind :=
  ⟨fun same => same, fun start later => kind_bind start later⟩

end Outcome

namespace Plan

/-- The requests for a child that are admitted, by its index and the bindings laid over the memory. -/
abbrev Requests := Nat → Option (List (String × Value)) → Prop

/-- Requests for a child over the memory of the caller. -/
def Here : Requests := fun _ bindings => bindings = none

/-- The plans make the same requests, all of them admitted, whatever the values are, and end akin. -/
inductive Like (admitted : Requests) : Plan → Plan → Prop
  | done {first second} (akin : Akin first second) : Like admitted (.done first) (.done second)
  | child {index bindings next other} (request : admitted index bindings)
      (later : ∀ v, Like admitted (next v) (other v)) :
      Like admitted (.child index bindings next) (.child index bindings other)

variable {admitted : Requests}

theorem like_fail (first second : Fault) : Like admitted (.fail first) (.fail second) :=
  .done (Akin.error _ _)

theorem like_succeed (v : Value) : Like admitted (.succeed v) (.succeed v) := .done (Akin.refl _)

/-- Like plans come to related outcomes, as far as the requested children do. -/
theorem Like.run {related : Outcome → Outcome → Prop} (congruence : Outcome.Congruence related)
    {plan twin : Plan} (like : Like admitted plan twin) {evaluate : Expr → Memory → Outcome}
    {args others : List Expr} {memory scope : Memory} (count : args.length = others.length)
    (each : ∀ index bindings child other, admitted index bindings → args[index]? = some child →
      others[index]? = some other →
        related (evaluate child (memory.extend bindings)) (evaluate other (scope.extend bindings))) :
    related (plan.run memory (args.map evaluate)) (twin.run scope (others.map evaluate)) := by
  induction like with
  | @done first second akin =>
    apply congruence.kind
    rcases akin.cases with ⟨fault, other, rfl, rfl⟩ | ⟨v, rfl, rfl⟩ <;> rfl
  | @child index bindings next twin request later ih =>
    cases present : args[index]? with
    | none =>
      -- The lists are equally long, so the child is missing on both sides.
      have missing : others[index]? = none := by
        rw [List.getElem?_eq_none_iff] at present ⊢
        omega
      rw [run_absent present, run_absent missing]
      exact ih .null
    | some child =>
      obtain ⟨bound, _⟩ := List.getElem?_eq_some_iff.1 present
      obtain ⟨other, found⟩ : ∃ other, others[index]? = some other :=
        ⟨_, List.getElem?_eq_getElem (count ▸ bound)⟩
      rw [run_present present, run_present found]
      exact congruence.bind (each index bindings child other request present found) ih

end Plan

/-- Two calls with the same settings, as many children and the same literal. -/
structure Call.Peers (a b : Call) : Prop where
  options : a.options = b.options
  count : a.node.args.length = b.node.args.length
  value : a.node.value? = b.node.value?

namespace Builtins

open Plan

variable {a b : Call} {fallback : Fallback}

theorem like_gather {check : Option Check} {next twin : List Value → Plan}
    (later : ∀ args, Like Here (next args) (twin args)) {rest others : List Expr}
    (count : rest.length = others.length) :
    ∀ index seen, Like Here (gather check none next rest index seen)
      (gather check none twin others index seen) := by
  -- The values arrive one by one on both sides; only the sub-expression that a refusal names may differ.
  induction rest generalizing others with
  | nil =>
    intro index seen
    rw [List.eq_nil_of_length_eq_zero count.symm]
    exact later _
  | cons e rest ih =>
    match others, count with
    | other :: others, count =>
      have fewer : rest.length = others.length := by simpa using count
      intro index seen
      refine .child rfl fun v => ?_
      cases check with
      | none => exact ih fewer _ _
      | some demand =>
        by_cases passes : demand.passes v = true
        · simp only [passes, if_true]
          exact ih fewer _ _
        · simp only [passes]
          exact like_fail _ _

theorem like_strict (peers : a.Peers b) {check : Option Check} {compute : Compute}
    (akin : ∀ args, Akin (compute a args) (compute b args)) :
    Like Here (strict check compute a) (strict check compute b) :=
  like_gather (fun args => .done (akin args)) peers.count 0 []

theorem like_constant (peers : a.Peers b) : Like Here (constant a) (constant b) := by
  unfold constant
  rw [peers.value]
  split
  · exact like_succeed _
  · exact like_fail _ _

theorem like_untilTruth {stop : Bool} {args others : List Expr} (count : args.length = others.length) :
    ∀ index, Like Here (untilTruth stop args index) (untilTruth stop others index) := by
  induction args generalizing others with
  | nil =>
    intro index
    rw [List.eq_nil_of_length_eq_zero count.symm]
    exact like_succeed _
  | cons e rest ih =>
    match others, count with
    | other :: others, count =>
      intro index
      refine .child rfl fun v => ?_
      by_cases decided : (v.isTruthy == stop) = true
      · simp only [decided, if_true]
        exact like_succeed _
      · simp only [decided]
        exact ih (by simpa using count) (index + 1)

theorem like_branch (peers : a.Peers b) : Like Here (branch a) (branch b) := by
  unfold branch
  rw [peers.count]
  split
  · exact .child rfl fun v => .child rfl fun w => like_succeed w
  · exact like_fail _ _

theorem like_untilPresent {args others : List Expr} (count : args.length = others.length) :
    ∀ index, Like Here (untilPresent args index) (untilPresent others index) := by
  induction args generalizing others with
  | nil =>
    intro index
    rw [List.eq_nil_of_length_eq_zero count.symm]
    exact like_succeed _
  | cons e rest ih =>
    match others, count with
    | other :: others, count =>
      intro index
      refine .child rfl fun v => ?_
      by_cases absent : v.isNull = true
      · simp only [absent, if_true]
        exact ih (by simpa using count) (index + 1)
      · simp only [absent]
        exact like_succeed v

/-- What an iteration asks for: its collection, and its body with the iterator bound to an item. -/
def Iterates (call : Call) : Requests := fun index bindings =>
  (index = 0 ∧ bindings = none) ∨ ∃ iterator name item, call.node.args[1]? = some iterator ∧
    iterator.iterator? = some name ∧ index = 2 ∧ bindings = some [(name, item)]

theorem like_visit {admitted : Requests} {name : String} {next twin : List (Value × Value) → Plan}
    (body : ∀ item, admitted 2 (some [(name, item)]))
    (later : ∀ results, Like admitted (next results) (twin results)) (items : List Value) :
    ∀ seen, Like admitted (visit name next items seen) (visit name twin items seen) := by
  induction items with
  | nil => intro seen; exact later _
  | cons item rest ih => exact fun seen => .child (body item) fun result => ih _

theorem iteration_malformed {finish : List (Value × Value) → Value} {call : Call}
    (count : call.node.args.length ≠ 3) :
    iteration finish call = .fail (call.fault .notThreeArguments) := by
  unfold iteration
  split
  · rename_i args
    exact absurd (by rw [args]; rfl) count
  · rfl

theorem like_iteration (peers : a.Peers b)
    (iterators : a.node.args[1]?.bind Expr.iterator? = b.node.args[1]?.bind Expr.iterator?)
    (finish : List (Value × Value) → Value) :
    Like (Iterates a) (iteration finish a) (iteration finish b) := by
  by_cases count : a.node.args.length = 3
  · obtain ⟨collection, iterator, body, first⟩ := List.length_eq_three.1 count
    obtain ⟨_, other, _, second⟩ := List.length_eq_three.1 (peers.count ▸ count)
    have same : iterator.iterator? = other.iterator? := by
      simpa [first, second] using iterators
    simp only [iteration, first, second, ← same]
    cases named : iterator.iterator? with
    | none => exact like_fail _ _
    | some name =>
      have asked (item : Value) : Iterates a 2 (some [(name, item)]) :=
        .inr ⟨iterator, name, item, by rw [first]; rfl, named, rfl, rfl⟩
      refine .child (.inl ⟨rfl, rfl⟩) fun v => ?_
      rcases (akin_items a b v).cases with ⟨fault, other, failed, refused⟩ | ⟨items, listed, again⟩
      · simp only [failed, refused]
        exact like_fail _ _
      · simp only [listed, again]
        exact like_visit asked (fun results => like_succeed _) items []
  · rw [iteration_malformed count, iteration_malformed (peers.count ▸ count)]
    exact like_fail _ _

section Packages

theorem like_unary (peers : a.Peers b) {check : Option Check}
    {compute : Call → Value → Except Fault Value}
    (akin : ∀ v, Akin (compute a v) (compute b v)) :
    Like Here (strict check (unary compute) a) (strict check (unary compute) b) :=
  like_strict peers fun _ => akin_unary a b akin

theorem like_binary (peers : a.Peers b) {check : Option Check}
    {compute : Call → Value → Value → Except Fault Value}
    (akin : ∀ v w, Akin (compute a v w) (compute b v w)) :
    Like Here (strict check (binary compute) a) (strict check (binary compute) b) :=
  like_strict peers fun _ => akin_binary a b akin

theorem like_folding (peers : a.Peers b) {check : Option Check}
    {operation : Value → Value → Except Fault Value} :
    Like Here (strict check (folding operation) a) (strict check (folding operation) b) :=
  like_strict peers fun _ => akin_folding a b

variable (peers : a.Peers b)

include peers

theorem like_arithmetic : ∀ f ∈ arithmeticWith fallback, Like Here (f.logic a) (f.logic b) := by
  simp only [arithmeticWith, List.forall_mem_cons, List.not_mem_nil, false_imp_iff, implies_true,
    and_true]
  exact ⟨like_folding peers, like_folding peers, like_folding peers, like_folding peers,
    like_binary peers fun _ _ => Akin.refl _, like_binary peers fun _ _ => Akin.refl _,
    like_strict peers fun _ => Akin.refl _, like_strict peers fun _ => Akin.refl _,
    like_unary peers (akin_sum a b), like_unary peers (akin_average a b),
    like_unary peers fun _ => Akin.refl _, like_unary peers fun _ => Akin.refl _,
    like_unary peers fun _ => Akin.refl _, like_strict peers (akin_round a b)⟩

theorem like_logic : ∀ f ∈ logicPackage, Like Here (f.logic a) (f.logic b) := by
  simp only [logicPackage, comparison, List.forall_mem_cons, List.not_mem_nil, false_imp_iff,
    implies_true, and_true]
  exact ⟨like_binary peers fun _ _ => Akin.refl _, like_binary peers fun _ _ => Akin.refl _,
    like_binary peers (akin_ordered a b _), like_binary peers (akin_ordered a b _),
    like_binary peers (akin_ordered a b _), like_binary peers (akin_ordered a b _),
    like_untilTruth peers.count 0, like_untilTruth peers.count 0,
    like_unary peers fun _ => Akin.refl _, like_branch peers,
    like_unary peers fun _ => Akin.refl _, like_untilPresent peers.count 0⟩

theorem like_texts : ∀ f ∈ textPackage, Like Here (f.logic a) (f.logic b) := by
  simp only [textPackage, List.forall_mem_cons, List.not_mem_nil, false_imp_iff, implies_true,
    and_true]
  exact ⟨like_strict peers fun _ => Akin.refl _, like_unary peers (akin_length a b),
    like_unary peers fun _ => Akin.refl _, like_unary peers fun _ => Akin.refl _,
    like_unary peers fun _ => Akin.refl _, like_strict peers (akin_substring a b),
    like_binary peers fun _ _ => Akin.refl _, like_binary peers fun _ _ => Akin.refl _,
    like_strict peers fun _ => akin_ternary a b (akin_replace a b)⟩

theorem like_conversion : ∀ f ∈ conversionPackage, Like Here (f.logic a) (f.logic b) := by
  simp only [conversionPackage, List.forall_mem_cons, List.not_mem_nil, false_imp_iff,
    implies_true, and_true]
  exact ⟨like_unary peers (akin_ticksTo a b _), like_unary peers (akin_ticksTo a b _),
    like_unary peers (akin_ticksTo a b _), like_unary peers (akin_toInt peers.options),
    like_unary peers (akin_toFloat peers.options), like_unary peers (akin_toText peers.options),
    like_unary peers (akin_toBool a b)⟩

theorem like_dates : ∀ f ∈ datePackage, Like Here (f.logic a) (f.logic b) := by
  simp only [datePackage, calendarField, shifting, List.forall_mem_cons, List.not_mem_nil,
    false_imp_iff, implies_true, and_true]
  exact ⟨like_unary peers (akin_ticks a b), like_unary peers (akin_field a b _),
    like_unary peers (akin_field a b _), like_unary peers (akin_field a b _),
    like_binary peers (akin_shift a b _), like_binary peers (akin_shift a b _),
    like_binary peers (akin_difference a b)⟩

theorem like_access : ∀ f ∈ accessPackage, f.name ≠ Expr.accessorName →
    Like Here (f.logic a) (f.logic b) := by
  simp only [accessPackage, List.forall_mem_cons, List.not_mem_nil, false_imp_iff, implies_true,
    and_true]
  exact ⟨fun _ => like_constant peers, fun other => absurd rfl other,
    fun _ => like_binary peers (akin_element a b)⟩

theorem like_collections : ∀ f ∈ collectionPackage, f.name ∉ iterations →
    Like Here (f.logic a) (f.logic b) := by
  simp only [collectionPackage, List.forall_mem_cons, List.not_mem_nil, false_imp_iff,
    implies_true, and_true]
  exact ⟨fun _ => like_strict peers fun _ => Akin.refl _, fun _ => like_unary peers (akin_count a b),
    fun _ => like_binary peers (akin_contains a b), fun _ => like_unary peers fun _ => Akin.refl _,
    fun _ => like_unary peers fun _ => Akin.refl _, fun _ => like_binary peers (akin_join a b),
    fun _ => like_binary peers (akin_property a b), fun other => absurd (by decide) other,
    fun other => absurd (by decide) other⟩

/-- A standard function other than the accessor and the iterations makes like plans for peers. -/
theorem like_all : ∀ f ∈ allWith fallback, f.name ≠ Expr.accessorName → f.name ∉ iterations →
    Like Here (f.logic a) (f.logic b) := by
  simp only [allWith, List.forall_mem_append]
  exact ⟨⟨⟨⟨⟨⟨fun f member apart _ => like_access peers f member apart,
    fun f member _ _ => like_arithmetic peers f member⟩,
    fun f member _ _ => like_logic peers f member⟩,
    fun f member _ _ => like_texts peers f member⟩,
    fun f member _ _ => like_conversion peers f member⟩,
    fun f member _ _ => like_dates peers f member⟩,
    fun f member _ apart => like_collections peers f member apart⟩

end Packages

end Builtins

namespace Expr

variable {options : Options} {name : String} {function : Function} {args others : List Expr}
  {depth : Nat} {memory scope : Memory}

theorem peers (count : args.length = others.length) (depth known : Nat) :
    Call.Peers ⟨call name args, options, depth, known⟩ ⟨call name others, options, depth, known⟩ :=
  ⟨rfl, count, rfl⟩

/-- The arguments of a call may be exchanged for others, and the memory for another, when the function
makes like plans for both and every child that it asks for comes to a related outcome. -/
theorem call_related {related : Outcome → Outcome → Prop} (congruence : Outcome.Congruence related)
    {admitted : Plan.Requests} (room : depth < options.maxDepth)
    (found : Registry.builtins.find? name = some function)
    (like : Plan.Like admitted
      (function.logic ⟨call name args, options, depth + 1, Registry.builtins.size⟩)
      (function.logic ⟨call name others, options, depth + 1, Registry.builtins.size⟩))
    (count : args.length = others.length)
    (each : ∀ index bindings child other, admitted index bindings → args[index]? = some child →
      others[index]? = some other →
        related (child.evalAt .builtins options (depth + 1) (memory.extend bindings))
          (other.evalAt .builtins options (depth + 1) (scope.extend bindings))) :
    related ((call name args).evalAt .builtins options depth memory)
      ((call name others).evalAt .builtins options depth scope) := by
  have known : Registry.builtins.find? (call name args).name = some function := found
  have again : Registry.builtins.find? (call name others).name = some function := found
  rw [evalAt_eq, evalAt_eq, Registry.enter_known room known, Registry.enter_known room again]
  exact like.run congruence count each

end Expr

end Formula

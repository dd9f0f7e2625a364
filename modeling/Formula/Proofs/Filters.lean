import Formula.Proofs.Connectives
import Formula.Proofs.Iteration
import Mathlib.Data.List.Forall2

/-! Two iterations over one collection. `foreach` and `where` visit the same items over the same scopes, and
part only in what they make of the results; either both come to a value or neither does. A `where` chooses
from its items one by one, so two of them after each other choose what one with the conjunction of their
bodies chooses. -/
namespace Formula

section Traversals

variable {α β ε : Type}

theorem bind_ok_iff {result : Except ε α} {next : α → Except ε β} {b : β} :
    result.bind next = .ok b ↔ ∃ a, result = .ok a ∧ next a = .ok b := by
  cases result <;> simp [Except.bind]

variable {f : α → Except ε β}

theorem mapM_ok_iff {items : List α} : ∀ {results : List β},
    items.mapM f = .ok results ↔ List.Forall₂ (fun item result => f item = .ok result) items results := by
  induction items with
  | nil => simp [pure, Except.pure, eq_comm]
  | cons item rest ih =>
    intro results
    rw [List.mapM_cons, List.forall₂_cons_left_iff]
    simp only [bind, pure, Except.pure, bind_ok_iff, ih, Except.ok.injEq]
    simp [eq_comm]

/-- The first of the items for which there is an error has this error. -/
inductive FirstFailure (f : α → Except ε β) : List α → ε → Prop
  | here {item rest e} (fails : f item = .error e) : FirstFailure f (item :: rest) e
  | later {item result rest e} (passes : f item = .ok result) (failure : FirstFailure f rest e) :
      FirstFailure f (item :: rest) e

theorem mapM_error_of_firstFailure {items : List α} {e : ε} (failure : FirstFailure f items e) :
    items.mapM f = .error e := by
  induction failure with
  | here fails =>
    rw [List.mapM_cons, fails]
    rfl
  | later passes _ ih =>
    rw [List.mapM_cons, passes, ih]
    rfl

theorem results_or_firstFailure (f : α → Except ε β) (items : List α) :
    (∃ results, List.Forall₂ (fun item result => f item = .ok result) items results) ∨
      ∃ e, FirstFailure f items e := by
  induction items with
  | nil => exact .inl ⟨[], .nil⟩
  | cons item rest ih =>
    cases value : f item with
    | error e => exact .inr ⟨e, .here value⟩
    | ok result =>
      rcases ih with ⟨results, others⟩ | ⟨e, failure⟩
      · exact .inl ⟨result :: results, .cons value others⟩
      · exact .inr ⟨e, .later value failure⟩

end Traversals

/-- A value, so no error, and of this truth. -/
def Outcome.Truth (outcome : Outcome) (b : Bool) : Prop := ∃ v, outcome = .ok v ∧ v.isTruthy = b

namespace Builtins

theorem ItemsOf.ascending {fields : List (String × Value)} {items : List Value}
    (those : ItemsOf (.object fields) items) (sorted : Fields.Ascending fields) :
    items.Pairwise fun one other => ∃ f g, one = pair f ∧ other = pair g ∧ f.1 < g.1 := by
  cases those
  exact sorted.map pair fun f g before => ⟨f, g, rfl, rfl, before⟩

/-- The items whose result is true. -/
def chosen (items results : List Value) : List Value :=
  ((items.zip results).filter (·.2.isTruthy)).map (·.1)

/-- One item after another is kept or dropped, by the truth of its outcome. -/
inductive Keeps (outcome : Value → Outcome) : List Value → List Value → Prop
  | nil : Keeps outcome [] []
  | take {item rest kept} (yes : Outcome.Truth (outcome item) true) (others : Keeps outcome rest kept) :
      Keeps outcome (item :: rest) (item :: kept)
  | drop {item rest kept} (no : Outcome.Truth (outcome item) false) (others : Keeps outcome rest kept) :
      Keeps outcome (item :: rest) kept

variable {outcome second : Value → Outcome} {items kept : List Value}

theorem keeps_iff : Keeps outcome items kept ↔
    ∃ results, List.Forall₂ (fun item result => outcome item = .ok result) items results ∧
      chosen items results = kept := by
  constructor
  · intro keeps
    induction keeps with
    | nil => exact ⟨[], .nil, rfl⟩
    | take yes _ ih =>
      obtain ⟨v, value, truth⟩ := yes
      obtain ⟨results, others, rfl⟩ := ih
      exact ⟨v :: results, .cons value others, by simp [chosen, truth]⟩
    | drop no _ ih =>
      obtain ⟨v, value, truth⟩ := no
      obtain ⟨results, others, rfl⟩ := ih
      exact ⟨v :: results, .cons value others, by simp [chosen, truth]⟩
  · rintro ⟨results, each, rfl⟩
    induction each with
    | nil => exact .nil
    | @cons item v rest results value _ ih =>
      cases truth : v.isTruthy with
      | true => simpa [chosen, truth] using ih.take ⟨v, value, truth⟩
      | false => simpa [chosen, truth] using ih.drop ⟨v, value, truth⟩

/-- What has been kept once is kept again. -/
theorem Keeps.again (keeps : Keeps outcome items kept) : Keeps outcome kept kept := by
  induction keeps with
  | nil => exact .nil
  | take yes _ ih => exact ih.take yes
  | drop _ _ ih => exact ih

/-- What the conjunction of two outcomes comes to. -/
def both (outcome second : Value → Outcome) (item : Value) : Outcome :=
  (Search.truth false).first [outcome item, second item]

theorem truth_both_iff {item : Value} {b : Bool} : Outcome.Truth (both outcome second item) b ↔
    Outcome.Truth (outcome item) false ∧ b = false ∨
      Outcome.Truth (outcome item) true ∧ Outcome.Truth (second item) b := by
  simp only [Outcome.Truth, both, Search.first, Search.decided?, Search.undecided]
  cases outcome item with
  | error e => simp [Except.bind]
  | ok v =>
    cases truth : v.isTruthy with
    | false => simp [Except.bind, truth]
    | true =>
      cases second item with
      | error e => simp [Except.bind, truth]
      | ok w => cases also : w.isTruthy <;> simp [Except.bind, truth, also]

/-- To choose from what was chosen is to choose by both outcomes at once. On both sides the second outcome
is that of the items which the first keeps. -/
theorem keeps_both_iff : Keeps (both outcome second) items kept ↔
    ∃ between, Keeps outcome items between ∧ Keeps second between kept := by
  constructor
  · intro keeps
    induction keeps with
    | nil => exact ⟨[], .nil, .nil⟩
    | take yes _ ih =>
      obtain ⟨between, first, next⟩ := ih
      rcases truth_both_iff.1 yes with ⟨_, ⟨⟩⟩ | ⟨here, also⟩
      exact ⟨_, first.take here, next.take also⟩
    | drop no _ ih =>
      obtain ⟨between, first, next⟩ := ih
      rcases truth_both_iff.1 no with ⟨here, _⟩ | ⟨here, also⟩
      · exact ⟨_, first.drop here, next⟩
      · exact ⟨_, first.take here, next.drop also⟩
  · rintro ⟨between, first, next⟩
    induction first generalizing kept with
    | nil =>
      cases next
      exact .nil
    | take here _ ih =>
      cases next with
      | take also others => exact (ih others).take (truth_both_iff.2 (.inr ⟨here, also⟩))
      | drop also others => exact (ih others).drop (truth_both_iff.2 (.inr ⟨here, also⟩))
    | drop here _ ih => exact (ih next).drop (truth_both_iff.2 (.inl ⟨here, rfl⟩))

end Builtins

namespace Expr

open Builtins

/-- An iteration comes to visit these items, and its body to these results over their scopes. -/
structure Iterated (options : Options) (depth : Nat) (memory : Memory) (collection iterator body : Expr)
    (items results : List Value) : Prop where
  collected : ∃ v, collection.evalAt .builtins options (depth + 1) memory = .ok v ∧ ItemsOf v items
  each : List.Forall₂ (fun item result =>
    body.evalAt .builtins options (depth + 1) (iterator.scope item memory) = .ok result) items results

variable {options : Options} {depth : Nat} {memory : Memory} {collection iterator body : Expr}
  {name : String}

theorem evalAt_iteration_iff {kind : String} {function : Function} {finish : List (Value × Value) → Value}
    (found : Registry.builtins.find? kind = some function) (logic : function.logic = iteration finish)
    (single : iterator.iterator? = some name) {w : Value} :
    (call kind [collection, iterator, body]).evalAt .builtins options depth memory = .ok w ↔
      ∃ items results, Iterated options depth memory collection iterator body items results ∧
        finish (items.zip results) = w := by
  constructor
  · intro value
    have room := room_of_ok value
    rw [evalAt_iteration room found logic single, bind_ok_iff] at value
    obtain ⟨v, value, visited⟩ := value
    split at visited
    · cases visited
    · rename_i items visits
      obtain ⟨results, each, finished⟩ := bind_ok_iff.1 visited
      exact ⟨items, results, ⟨⟨v, value, items_ok_iff.1 visits⟩, mapM_ok_iff.1 each⟩,
        Except.ok.inj finished⟩
  · rintro ⟨items, results, ⟨⟨v, value, those⟩, each⟩, rfl⟩
    have room := room_of_ok value
    rw [evalAt_iteration_items (by omega) found logic single value those, mapM_ok_iff.2 each]
    rfl

theorem evalAt_foreach_iff (single : iterator.iterator? = some name) {v : Value} :
    (call "foreach" [collection, iterator, body]).evalAt .builtins options depth memory = .ok v ↔
      ∃ items results, Iterated options depth memory collection iterator body items results ∧
        .array results = v := by
  rw [evalAt_iteration_iff find?_foreach rfl single]
  refine exists_congr fun items => exists_congr fun results => and_congr_right fun iterated => ?_
  rw [List.map_snd_zip iterated.each.length_eq.ge]

theorem find?_where : Registry.builtins.find? "where" =
    some ⟨"where", .array, .iteration, Builtins.filter⟩ := by
  rw [Registry.builtins_eq]
  rfl

theorem evalAt_where_iff (single : iterator.iterator? = some name) {w : Value} :
    (call "where" [collection, iterator, body]).evalAt .builtins options depth memory = .ok w ↔
      ∃ items results, Iterated options depth memory collection iterator body items results ∧
        .array (chosen items results) = w :=
  evalAt_iteration_iff find?_where rfl single

theorem evalAt_iteration_failure {kind : String} {function : Function}
    {finish : List (Value × Value) → Value} (found : Registry.builtins.find? kind = some function)
    (logic : function.logic = iteration finish) (single : iterator.iterator? = some name) {v : Value}
    {items : List Value} {e : EvalError}
    (value : collection.evalAt .builtins options (depth + 1) memory = .ok v) (those : ItemsOf v items)
    (failure : FirstFailure (fun item =>
      body.evalAt .builtins options (depth + 1) (iterator.scope item memory)) items e) :
    (call kind [collection, iterator, body]).evalAt .builtins options depth memory = .error e := by
  have room := room_of_ok value
  rw [evalAt_iteration_items (by omega) found logic single value those,
    mapM_error_of_firstFailure failure]
  rfl

/-- `foreach` and `where` visit the same items, once each and in order, and either both come to a value or
neither does. The entries of `foreach` are the results of the body over the scopes of the items, and `where`
keeps the items whose entry is true. Where the body fails, both fail with the error of the first item that
it fails for. The items of an object are its fields as pairs, in the order of their keys. -/
theorem foreach_where_agree (single : iterator.iterator? = some name) (options : Options) (depth : Nat)
    (memory : Memory) :
    let evaluate := fun item => body.evalAt .builtins options (depth + 1) (iterator.scope item memory)
    let each := (call "foreach" [collection, iterator, body]).evalAt .builtins options depth memory
    let kept := (call "where" [collection, iterator, body]).evalAt .builtins options depth memory
    ((∃ w, kept = .ok w) ↔ ∃ v, each = .ok v) ∧
    (∀ v w, each = .ok v → kept = .ok w → ∃ collected items results,
      collection.evalAt .builtins options (depth + 1) memory = .ok collected ∧ ItemsOf collected items ∧
      List.Forall₂ (fun item result => evaluate item = .ok result) items results ∧
      v = .array results ∧ w = .array (((items.zip results).filter (·.2.isTruthy)).map (·.1))) ∧
    (∀ collected items, collection.evalAt .builtins options (depth + 1) memory = .ok collected →
      ItemsOf collected items →
        (∃ v w, each = .ok v ∧ kept = .ok w) ∨
          ∃ e, FirstFailure evaluate items e ∧ each = .error e ∧ kept = .error e) ∧
    (∀ fields items, Fields.Ascending fields → ItemsOf (.object fields) items →
      items.Pairwise fun one other => ∃ f g, one = pair f ∧ other = pair g ∧ f.1 < g.1) := by
  intro evaluate each kept
  refine ⟨?_, ?_, ?_, fun fields items sorted those => those.ascending sorted⟩
  · simp only [each, kept, evalAt_foreach_iff single, evalAt_where_iff single]
    constructor
    · rintro ⟨_, items, results, iterated, -⟩
      exact ⟨_, items, results, iterated, rfl⟩
    · rintro ⟨_, items, results, iterated, -⟩
      exact ⟨_, items, results, iterated, rfl⟩
  · intro v w entries selected
    obtain ⟨items, results, iterated, rfl⟩ := (evalAt_foreach_iff single).1 entries
    obtain ⟨collected, value, those⟩ := iterated.collected
    have same := (evalAt_where_iff single).2 ⟨items, results, iterated, rfl⟩
    exact ⟨collected, items, results, value, those, iterated.each, rfl,
      Except.ok.inj (selected.symm.trans same)⟩
  · intro collected items value those
    rcases results_or_firstFailure evaluate items with ⟨results, evaluated⟩ | ⟨e, failure⟩
    · have iterated : Iterated options depth memory collection iterator body items results :=
        ⟨⟨collected, value, those⟩, evaluated⟩
      exact .inl ⟨_, _, (evalAt_foreach_iff single).2 ⟨items, results, iterated, rfl⟩,
        (evalAt_where_iff single).2 ⟨items, results, iterated, rfl⟩⟩
    · exact .inr ⟨e, failure, evalAt_iteration_failure find?_foreach rfl single value those failure,
        evalAt_iteration_failure find?_where rfl single value those failure⟩

/-- Of an object with a true and a false field, `where` keeps the pair of the true one. -/
theorem foreach_where_agree_pairs :
    let iterator := accessor "x"
    let fields := [("a", .bool true), ("b", .bool false)]
    let node := fun kind => call kind [constant (.object fields), iterator, accessor "x.value"]
    iterator.iterator? = some "x" ∧
    (node "foreach").evalAt .builtins {} 0 .empty = .ok (.array [.bool true, .bool false]) ∧
    (node "where").evalAt .builtins {} 0 .empty = .ok (.array [pair ("a", .bool true)]) := by
  intro iterator fields node
  have single : iterator.iterator? = some "x" := by decide +kernel
  have read : Path.parse "x.value" = .ok [.key "x", .key "value"] := by decide +kernel
  have room : 0 + 1 < ({} : Options).maxDepth := by decide
  have own : (accessor "x.value").path? = some "x.value" := rfl
  have value (key : String) (b : Bool) : (accessor "x.value").evalAt .builtins {} (0 + 1)
      (iterator.scope (pair (key, .bool b)) .empty) = .ok (.bool b) := by
    rw [evalAt_path room own, resolve_scope_own single read]
    rfl
  have whole := evalAt_constant room (.object fields) .empty
  have entries : (node "foreach").evalAt .builtins {} 0 .empty =
      .ok (.array [.bool true, .bool false]) :=
    (evalAt_foreach_iff single).2
      ⟨_, _, ⟨⟨_, whole, .object fields⟩, .cons (value _ _) (.cons (value _ _) .nil)⟩, rfl⟩
  obtain ⟨either, values, -⟩ := foreach_where_agree single {} 0 .empty
  obtain ⟨w, selected⟩ := either.2 ⟨_, entries⟩
  obtain ⟨_, items, results, collected, those, -, same, rfl⟩ := values _ w entries selected
  rw [whole] at collected
  cases collected
  cases those
  cases same
  exact ⟨single, entries, selected⟩

theorem evalAt_where_keeps_iff (single : iterator.iterator? = some name) {w : Value} :
    (call "where" [collection, iterator, body]).evalAt .builtins options depth memory = .ok w ↔
      ∃ v items kept, collection.evalAt .builtins options (depth + 1) memory = .ok v ∧ ItemsOf v items ∧
        Keeps (fun item => body.evalAt .builtins options (depth + 1) (iterator.scope item memory)) items
          kept ∧
        .array kept = w := by
  rw [evalAt_where_iff single]
  constructor
  · rintro ⟨items, results, ⟨⟨v, value, those⟩, each⟩, rfl⟩
    exact ⟨v, items, _, value, those, keeps_iff.2 ⟨results, each, rfl⟩, rfl⟩
  · rintro ⟨v, items, kept, value, those, keeps, rfl⟩
    obtain ⟨results, each, rfl⟩ := keeps_iff.1 keeps
    exact ⟨items, results, ⟨⟨v, value, those⟩, each⟩, rfl⟩

theorem calm_collection (single : iterator.iterator? = some name)
    (calm : Calm ((call "where" [collection, iterator, body]).evalAt .builtins options depth memory)) :
    Calm (collection.evalAt .builtins options (depth + 1) memory) := by
  rw [evalAt_iteration (room_of_calm calm) find?_where rfl single] at calm
  exact calm.of_bind

/-- A `where` that does not overflow chooses as if its body stood one level nearer to the root. -/
theorem evalAt_where_nearer_iff (single : iterator.iterator? = some name)
    (calm : Calm ((call "where" [collection, iterator, body]).evalAt .builtins options depth memory))
    {w : Value} :
    (call "where" [collection, iterator, body]).evalAt .builtins options depth memory = .ok w ↔
      ∃ v items kept, collection.evalAt .builtins options (depth + 1) memory = .ok v ∧ ItemsOf v items ∧
        Keeps (fun item => body.evalAt .builtins options depth (iterator.scope item memory)) items kept ∧
        .array kept = w := by
  have nearer (item : Value) : CutOf
      (body.evalAt .builtins options (depth + 1) (iterator.scope item memory))
      (body.evalAt .builtins options depth (iterator.scope item memory)) :=
    evalAt_cutOf body (Nat.le_succ depth) _
  rw [evalAt_where_keeps_iff single]
  refine exists_congr fun v => exists_congr fun items => exists_congr fun kept =>
    and_congr_right fun value => and_congr_right fun those => and_congr_left fun _ => ?_
  rw [evalAt_iteration_items (room_of_calm calm) find?_where rfl single value those] at calm
  have same := CutOf.mapM nearer items calm.of_bind
  simp only [keeps_iff, ← mapM_ok_iff]
  rw [same]

section Fusion

variable {p q : Expr}

theorem inner_where (single : iterator.iterator? = some name)
    (calm : Calm ((call "where" [call "where" [collection, iterator, p], iterator, q]).evalAt .builtins
      options depth memory)) :
    (call "where" [collection, iterator, p]).evalAt .builtins options (depth + 1) memory =
      (call "where" [collection, iterator, p]).evalAt .builtins options depth memory :=
  evalAt_cutOf _ (Nat.le_succ depth) memory (calm_collection single calm)

theorem evalAt_where_where_iff (single : iterator.iterator? = some name)
    (calm : Calm ((call "where" [call "where" [collection, iterator, p], iterator, q]).evalAt .builtins
      options depth memory)) {w : Value} :
    (call "where" [call "where" [collection, iterator, p], iterator, q]).evalAt .builtins options depth
        memory = .ok w ↔
      ∃ v items kept, collection.evalAt .builtins options (depth + 1) memory = .ok v ∧ ItemsOf v items ∧
        (∃ between,
          Keeps (fun item => p.evalAt .builtins options (depth + 1) (iterator.scope item memory)) items
            between ∧
          Keeps (fun item => q.evalAt .builtins options (depth + 1) (iterator.scope item memory)) between
            kept) ∧
        .array kept = w := by
  rw [evalAt_where_keeps_iff single, inner_where single calm]
  constructor
  · rintro ⟨_, between, kept, start, elements, next, rfl⟩
    obtain ⟨v, items, _, value, those, first, rfl⟩ := (evalAt_where_keeps_iff single).1 start
    cases elements
    exact ⟨v, items, kept, value, those, ⟨between, first, next⟩, rfl⟩
  · rintro ⟨v, items, kept, value, those, ⟨between, first, next⟩, rfl⟩
    exact ⟨.array between, between, kept,
      (evalAt_where_keeps_iff single).2 ⟨v, items, between, value, those, first, rfl⟩, .array between, next,
      rfl⟩

/-- Two `where` after each other are one `where` with the conjunction of their bodies: they come to the same
array or neither comes to any, unless one overflows the depth limit. The same `where` after itself changes
nothing, whatever it comes to. -/
theorem where_fusion (single : iterator.iterator? = some name) (collection p q : Expr) (options : Options)
    (depth : Nat) (memory : Memory) :
    let inner := call "where" [collection, iterator, p]
    let nested := call "where" [inner, iterator, q]
    let fused := call "where" [collection, iterator, call "&&" [p, q]]
    let twice := call "where" [inner, iterator, p]
    (Calm (nested.evalAt .builtins options depth memory) →
      Calm (fused.evalAt .builtins options depth memory) →
      ∀ w, nested.evalAt .builtins options depth memory = .ok w ↔
        fused.evalAt .builtins options depth memory = .ok w) ∧
    (Calm (twice.evalAt .builtins options depth memory) →
      twice.evalAt .builtins options depth memory = inner.evalAt .builtins options depth memory) := by
  intro inner nested fused twice
  constructor
  · intro calm calm' w
    have conjunction (scope : Memory) : (call "&&" [p, q]).evalAt .builtins options depth scope =
        (Search.truth false).first [p.evalAt .builtins options (depth + 1) scope,
          q.evalAt .builtins options (depth + 1) scope] :=
      evalAt_search (.truth false) (room_of_calm calm') [p, q]
    rw [evalAt_where_where_iff single calm, evalAt_where_nearer_iff single calm']
    simp only [conjunction, ← keeps_both_iff]
    rfl
  · intro calm
    have same := inner_where single calm
    cases value : inner.evalAt .builtins options depth memory with
    | error e =>
      rw [evalAt_iteration (room_of_calm calm) find?_where rfl single, same, value]
      rfl
    | ok w =>
      obtain ⟨v, items, kept, start, those, keeps, rfl⟩ := (evalAt_where_keeps_iff single).1 value
      exact (evalAt_where_where_iff single calm).2
        ⟨v, items, kept, start, those, ⟨kept, keeps, keeps.again⟩, rfl⟩

/-- The second body is never evaluated for the zero that it could not divide by. -/
theorem where_fusion_guarded :
    let iterator := accessor "x"
    let positive := call ">" [iterator, constant (.int 0)]
    let quotient := call "/" [constant (.int 1), iterator]
    let inner := call "where" [constant (.array [.int 0, .int 1]), iterator, positive]
    let nested := call "where" [inner, iterator, quotient]
    let fused := call "where" [constant (.array [.int 0, .int 1]), iterator,
      call "&&" [positive, quotient]]
    let twice := call "where" [inner, iterator, positive]
    iterator.iterator? = some "x" ∧
    Calm (nested.evalAt .builtins {} 0 .empty) ∧ Calm (fused.evalAt .builtins {} 0 .empty) ∧
    nested.evalAt .builtins {} 0 .empty = .ok (.array ([1].map .int)) ∧
    Calm (twice.evalAt .builtins {} 0 .empty) ∧
    inner.evalAt .builtins {} 0 .empty = .ok (.array ([1].map .int)) := by
  intro iterator positive quotient inner nested fused twice
  have single : iterator.iterator? = some "x" := by decide +kernel
  have fused_value : fused.evalAt .builtins {} 0 .empty = .ok (.array ([1].map .int)) :=
    Outcome.eq_ints (by rw [Registry.builtins_eq]; decide +kernel)
  have twice_value : twice.evalAt .builtins {} 0 .empty = .ok (.array ([1].map .int)) :=
    Outcome.eq_ints (by rw [Registry.builtins_eq]; decide +kernel)
  have nested_runs : (nested.evalAt .builtins {} 0 .empty).toOption.isSome := by
    rw [Registry.builtins_eq]
    decide +kernel
  have calm_nested : Calm (nested.evalAt .builtins {} 0 .empty) := by
    rintro level limit overflow
    simp [overflow, Except.toOption] at nested_runs
  have calm_fused : Calm (fused.evalAt .builtins {} 0 .empty) := fused_value ▸ calm_ok _
  have calm_twice : Calm (twice.evalAt .builtins {} 0 .empty) := twice_value ▸ calm_ok _
  obtain ⟨fusion, again⟩ :=
    where_fusion single (constant (.array [.int 0, .int 1])) positive quotient {} 0 .empty
  exact ⟨single, calm_nested, calm_fused, (fusion calm_nested calm_fused _).2 fused_value, calm_twice,
    (again calm_twice).symm.trans twice_value⟩

end Fusion

end Expr

end Formula

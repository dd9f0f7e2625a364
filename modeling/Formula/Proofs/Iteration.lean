import Formula.Proofs.Evaluation
import Formula.Proofs.Forms
import Formula.Proofs.PathJoin
import Formula.Proofs.Rules

/-! Iterations evaluate their body once for each item, over a scope that binds the text of the iterator's
path. A layer is looked up by keys, so the body sees the item under that path exactly when the path is
its own key, written plainly; a key in quotes is looked up without them, and is left to the memory
outside. -/
namespace Formula

namespace Path

def Plain (path : String) : Prop := ∀ c ∈ path.toList, isPlain c = true

theorem Selectors.alone {text : List Char} {step : Step} (brackets : Selectors text [step]) :
    Selector text step := by
  cases brackets with
  | more first others =>
    cases others
    simpa using first

/-- A single key is its own path when it is written plainly; in quotes and brackets the path is longer. -/
theorem plain_iff {path key : String} (read : parse path = .ok [.key key]) : Plain path ↔ key = path := by
  have head : Head path.toList [.key key] := (parse_ok_iff.1 read).single
  unfold Plain
  generalize whole : path.toList = text at head
  cases head with
  | named named =>
    cases named with
    | @intro name _ _ nonempty plain brackets =>
      cases brackets
      have itself : String.ofList name = path := by
        rw [← String.ofList_toList (s := path), whole, List.append_nil]
      refine iff_of_true (fun c member => ?_) itself
      simpa [isPlain, and_assoc] using plain c (by simpa using member)
  | bare brackets _ =>
    cases brackets.alone with
    | @key quote key _ _ =>
      refine iff_of_false (fun plain => ?_) (fun itself => ?_)
      · simpa [isPlain] using plain '[' (by simp)
      · rw [← itself] at whole
        have count := congrArg List.length whole
        simp at count
        omega

end Path

/-- The memory over which an iteration evaluates its body for an item. -/
def Expr.scope (iterator : Expr) (item : Value) (memory : Memory) : Memory :=
  memory.extend (iterator.iterator?.map fun name => [(name, item)])

theorem Expr.scope_eq {iterator : Expr} {name : String} (single : iterator.iterator? = some name)
    (item : Value) (memory : Memory) :
    iterator.scope item memory = Memory.over [(name, item)] memory := by
  rw [scope, single]
  rfl

namespace Builtins

/-- A field of an object as an item. -/
def pair (field : String × Value) : Value := .object [("key", .str field.1), ("value", field.2)]

/-- The items of a value, in the order in which an iteration visits them. -/
inductive ItemsOf : Value → List Value → Prop
  | null : ItemsOf .null []
  | array (items : List Value) : ItemsOf (.array items) items
  | object (fields : List (String × Value)) : ItemsOf (.object fields) (fields.map pair)

theorem entry_eq : entry = pair := by
  funext field
  have behind : ¬ "value" < "key" := by decide
  simp only [entry, pair, Value.ofBindings, Fields.ofList, Fields.insert, List.foldl, if_neg behind]
  simp

/-- The items that are visited depend on the collection alone; the call only appears in the fault. -/
theorem items_ok_iff {call : Call} {v : Value} {visited : List Value} :
    items call v = .ok visited ↔ ItemsOf v visited := by
  constructor
  · intro visits
    cases v with
    | null =>
      cases visits
      exact .null
    | array =>
      cases visits
      exact .array _
    | object fields =>
      cases visits
      exact entry_eq ▸ .object fields
    | bool | int | float | str => cases visits
  · rintro (_ | _ | _) <;> simp [items, entry_eq]

/-- The visits of an iteration are the evaluations of the body over the layers of the items, in turn, up to
the first that fails. -/
theorem run_visit {evaluate : Expr → Memory → Outcome} {args : List Expr} {body : Expr}
    (third : args[2]? = some body) {name : String} {next : List (Value × Value) → Plan} {memory : Memory}
    (items : List Value) : ∀ seen,
    (visit name next items seen).run memory (args.map evaluate) =
      (items.mapM fun item => evaluate body (Memory.over [(name, item)] memory)).bind fun results =>
        (next (seen.reverse ++ items.zip results)).run memory (args.map evaluate) := by
  -- By induction on the items still to come.
  induction items with
  | nil =>
    intro seen
    simp [visit, pure, Except.pure, Except.bind]
  | cons item rest ih =>
    intro seen
    rw [visit, Plan.run_present third, List.mapM_cons, Memory.extend]
    cases evaluate body (Memory.over [(name, item)] memory) with
    | error e => rfl
    | ok result =>
      simp only [bind, Except.bind, ih]
      cases rest.mapM fun item => evaluate body (Memory.over [(name, item)] memory) with
      | error e => rfl
      | ok results => simp [pure, Except.pure]

theorem asks_visit {memory : Memory} {children : List (Memory → Outcome)} {name : String}
    {next : List (Value × Value) → Except Fault Value} {index : Nat}
    {bindings : Option (List (String × Value))} (items : List Value) : ∀ seen,
    Plan.Asks memory children (visit name (fun results => .done (next results)) items seen) index
      bindings → ∃ item ∈ items, bindings = some [(name, item)] := by
  induction items with
  | nil =>
    intro seen asked
    cases asked
  | cons item rest ih =>
    intro seen asked
    cases asked with
    | now => exact ⟨item, by simp, rfl⟩
    | later _ _ later =>
      obtain ⟨other, member, same⟩ := ih _ later
      exact ⟨other, by simp [member], same⟩
    | absent _ later =>
      obtain ⟨other, member, same⟩ := ih _ later
      exact ⟨other, by simp [member], same⟩

end Builtins

namespace Expr

section Runs

variable {options : Options} {depth : Nat} {memory : Memory} {collection iterator body : Expr}

/-- An iteration comes to what it makes of its items and of the values of its body over their scopes. -/
theorem evalAt_iteration {kind : String} {function : Function} {finish : List (Value × Value) → Value}
    (room : depth < options.maxDepth) (found : Registry.builtins.find? kind = some function)
    (logic : function.logic = Builtins.iteration finish) {name : String}
    (single : iterator.iterator? = some name) :
    (call kind [collection, iterator, body]).evalAt .builtins options depth memory =
      (collection.evalAt .builtins options (depth + 1) memory).bind fun v =>
        match Builtins.items ⟨call kind [collection, iterator, body], options, depth + 1,
            Registry.builtins.size⟩ v with
        | .error fault => .error (.fault fault)
        | .ok items =>
          (items.mapM fun item =>
            body.evalAt .builtins options (depth + 1) (iterator.scope item memory)).bind
              fun results => .ok (finish (items.zip results)) := by
  have known : Registry.builtins.find? (call kind [collection, iterator, body]).name = some function :=
    found
  rw [evalAt_eq, Registry.enter_known room known, logic]
  simp only [Builtins.iteration, args, single, scope_eq single]
  rw [Plan.run_present (by rfl)]
  congr 1
  funext v
  cases Builtins.items
    ⟨call kind [collection, iterator, body], options, depth + 1, Registry.builtins.size⟩ v with
  | error fault => rfl
  | ok items =>
    simp only []
    rw [Builtins.run_visit (by rfl)]
    rfl

theorem evalAt_iteration_items {kind : String} {function : Function}
    {finish : List (Value × Value) → Value} (room : depth < options.maxDepth)
    (found : Registry.builtins.find? kind = some function)
    (logic : function.logic = Builtins.iteration finish) {name : String}
    (single : iterator.iterator? = some name) {v : Value} {items : List Value}
    (value : collection.evalAt .builtins options (depth + 1) memory = .ok v)
    (those : Builtins.ItemsOf v items) :
    (call kind [collection, iterator, body]).evalAt .builtins options depth memory =
      (items.mapM fun item =>
        body.evalAt .builtins options (depth + 1) (iterator.scope item memory)).bind
          fun results => .ok (finish (items.zip results)) := by
  rw [evalAt_iteration room found logic single, value]
  simp only [Except.bind, Builtins.items_ok_iff.2 those]

theorem find?_foreach : Registry.builtins.find? "foreach" =
    some ⟨"foreach", .array, .iteration, Builtins.foreach⟩ := by
  rw [Registry.builtins_eq]
  rfl

theorem foreach_each (room : depth < options.maxDepth) {name : String}
    (single : iterator.iterator? = some name) {call : Call} {v : Value} {items : List Value}
    (value : collection.evalAt .builtins options (depth + 1) memory = .ok v)
    (visits : Builtins.items call v = .ok items) {result : Value → Value}
    (each : ∀ item, body.evalAt .builtins options (depth + 1) (iterator.scope item memory) =
      .ok (result item)) :
    (Expr.call "foreach" [collection, iterator, body]).evalAt .builtins options depth memory =
      .ok (.array (items.map result)) := by
  have values : (items.mapM fun item =>
      body.evalAt .builtins options (depth + 1) (iterator.scope item memory)) =
        .ok (items.map result) := by
    simp only [each]
    exact List.mapM_pure
  rw [evalAt_iteration_items room find?_foreach rfl single value (Builtins.items_ok_iff.1 visits), values]
  simp [Except.bind, List.map_snd_zip]

end Runs

/-- A node that is evaluated at a depth and over a memory comes to evaluate its third argument over the
scope. -/
def BodyScope (options : Options) (node : Expr) (depth : Nat) (memory scope : Memory) : Prop :=
  ∃ function bindings, Registry.builtins.find? node.name = some function ∧
    Plan.Asks memory
      (node.args.map fun child scope => child.evalAt .builtins options (depth + 1) scope)
      (function.logic ⟨node, options, depth + 1, Registry.builtins.size⟩) 2 bindings ∧
    scope = memory.extend bindings

/-- An iteration evaluates its body over the scopes of the items of its collection, and over no other
memory. -/
theorem scope_of_bodyScope {kind : String} (iterates : kind ∈ Builtins.iterations)
    {collection iterator body : Expr} {name : String} (single : iterator.iterator? = some name)
    {options : Options} {depth : Nat} {memory scope : Memory}
    (evaluates : BodyScope options (call kind [collection, iterator, body]) depth memory scope) :
    ∃ call v items item, collection.evalAt .builtins options (depth + 1) memory = .ok v ∧
      Builtins.items call v = .ok items ∧ item ∈ items ∧ scope = iterator.scope item memory := by
  obtain ⟨function, bindings, found, asked, rfl⟩ := evaluates
  obtain ⟨finish, logic⟩ := Builtins.iteration_of_mem function (Registry.mem_builtins found)
    ((Registry.find?_name found).symm ▸ iterates)
  simp only [logic, Builtins.iteration, args, single] at asked
  cases asked with
  | @later _ _ _ _ v _ _ present value later =>
    obtain rfl := Option.some.inj present
    beta_reduce at later
    split at later
    · cases later
    · rename_i items visits
      obtain ⟨item, member, rfl⟩ := Builtins.asks_visit items [] later
      exact ⟨_, v, items, item, value, visits, member, (scope_eq single item memory).symm⟩
  | absent missing _ => simp at missing

section Visibility

variable {options : Options} {depth : Nat} {memory : Memory} {iterator : Expr} {path key : String}

theorem parse_plain (single : iterator.iterator? = some path) (plain : Path.Plain path) :
    Path.parse path = .ok [.key path] := by
  obtain ⟨key, read⟩ := key_of_iterator single
  obtain rfl := (Path.plain_iff read).1 plain
  exact read

theorem resolve_scope_own (single : iterator.iterator? = some path) {longer : String}
    {steps : List Step} (read : Path.parse longer = .ok (.key path :: steps)) (item : Value) :
    (iterator.scope item memory).resolve longer = Memory.find longer item steps := by
  rw [scope_eq single, Memory.resolve_over (Memory.steps_of_parse read)]
  simp [Memory.entered?, Fields.get?]

/-- A quoted iterator is looked up without its quotes, so its scope leaves it to the memory outside. -/
theorem resolve_scope_quoted (single : iterator.iterator? = some path) (quoted : ¬ Path.Plain path)
    (own : Path.parse path = .ok [.key key]) {longer : String} {steps : List Step}
    (read : Path.parse longer = .ok (.key key :: steps)) (item : Value) :
    (iterator.scope item memory).resolve longer = memory.resolve longer := by
  have apart : path ≠ key := fun same => quoted ((Path.plain_iff own).2 same.symm)
  rw [scope_eq single, Memory.resolve_over (Memory.steps_of_parse read)]
  simp [Memory.entered?, Fields.get?, apart]

theorem resolve_empty {steps : List Step} (read : Path.parse path = .ok (.key key :: steps)) :
    Memory.empty.resolve path = .error (.notFound path) := by
  rw [Memory.empty, Memory.resolve_document (Memory.steps_of_parse read)]
  rfl

theorem resolve_scope_iff (single : iterator.iterator? = some path) :
    (∀ memory item, (iterator.scope item memory).resolve path = .ok item) ↔ Path.Plain path := by
  constructor
  · intro visible
    by_contra quoted
    obtain ⟨key, own⟩ := key_of_iterator single
    have seen := visible .empty .null
    rw [resolve_scope_quoted single quoted own own, resolve_empty own] at seen
    cases seen
  · intro plain memory item
    rw [resolve_scope_own single (parse_plain single plain)]
    rfl

theorem resolve_scope_join_iff (single : iterator.iterator? = some path) :
    (∀ memory item rest steps, Path.parse rest = .ok steps →
      (iterator.scope item memory).resolve (Path.join path rest) =
        Memory.find (Path.join path rest) item steps) ↔ Path.Plain path := by
  constructor
  · intro visible
    by_contra quoted
    obtain ⟨key, own⟩ := key_of_iterator single
    have name : Path.parse "a" = .ok [.key "a"] := by decide +kernel
    have longer := Path.parse_join own name
    have seen := visible .empty (.object [("a", .null)]) "a" [.key "a"] name
    rw [resolve_scope_quoted single quoted own longer, resolve_empty longer] at seen
    cases seen
  · intro plain memory item rest steps read
    exact resolve_scope_own single (Path.parse_join (parse_plain single plain) read) item

variable {collection : Expr} {call : Call} {v : Value} {items : List Value}

theorem foreach_plain (single : iterator.iterator? = some path) (plain : Path.Plain path)
    (silent : ∀ path, options.whenNull path = none) (room : depth + 1 < options.maxDepth)
    (value : collection.evalAt .builtins options (depth + 1) memory = .ok v)
    (visits : Builtins.items call v = .ok items) :
    (Expr.call "foreach" [collection, iterator, iterator]).evalAt .builtins options depth memory =
      .ok (.array items) := by
  have each (item : Value) : iterator.evalAt .builtins options (depth + 1)
      (iterator.scope item memory) = .ok item := by
    rw [evalAt_path room (path_of_iterator single), (resolve_scope_iff single).2 plain,
      answered_value silent]
  rw [foreach_each (by omega) single value visits each, List.map_id']

/-- With a quoted iterator as the body every item comes back as what the memory outside has under the
key. -/
theorem foreach_quoted (single : iterator.iterator? = some path) (quoted : ¬ Path.Plain path)
    (room : depth + 1 < options.maxDepth)
    (value : collection.evalAt .builtins options (depth + 1) memory = .ok v)
    (visits : Builtins.items call v = .ok items) {w : Value}
    (outside : iterator.evalAt .builtins options (depth + 1) memory = .ok w) :
    (Expr.call "foreach" [collection, iterator, iterator]).evalAt .builtins options depth memory =
      .ok (.array (items.map fun _ => w)) := by
  have text := path_of_iterator single
  obtain ⟨key, own⟩ := key_of_iterator single
  rw [evalAt_path room text] at outside
  have each (item : Value) : iterator.evalAt .builtins options (depth + 1)
      (iterator.scope item memory) = .ok w := by
    rw [evalAt_path room text, resolve_scope_quoted single quoted own own, outside]
  exact foreach_each (by omega) single value visits each

theorem foreach_iterator_iff (single : iterator.iterator? = some path) :
    (∀ options depth memory collection call v items, (∀ path, options.whenNull path = none) →
      depth + 1 < options.maxDepth →
      collection.evalAt .builtins options (depth + 1) memory = .ok v →
      Builtins.items call v = .ok items →
        (Expr.call "foreach" [collection, iterator, iterator]).evalAt .builtins options depth memory =
          .ok (.array items)) ↔ Path.Plain path := by
  constructor
  · intro visible
    by_contra quoted
    obtain ⟨key, own⟩ := key_of_iterator single
    let options : Options := {}
    let items : List Value := [.bool true]
    have silent : ∀ path, options.whenNull path = none := fun _ => rfl
    have room : 0 + 1 < options.maxDepth := by decide
    have value : (constant (.array items)).evalAt .builtins options (0 + 1) .empty =
        .ok (.array items) := evalAt_constant room _ _
    have visits : Builtins.items ⟨iterator, options, 0, 0⟩ (.array items) = .ok items := rfl
    have outside : iterator.evalAt .builtins options (0 + 1) .empty = .ok .null := by
      rw [evalAt_path room (path_of_iterator single), resolve_empty own]
      rfl
    have seen := visible options 0 .empty _ _ _ _ silent room value visits
    rw [foreach_quoted single quoted room value visits outside] at seen
    simp [items] at seen
  · intro plain options depth memory collection call v items silent room value visits
    exact foreach_plain single plain silent room value visits

/-- An iterator is visible in the body of its iteration exactly when it is written plainly. A node that
the rule of iterations accepts evaluates its body over the scopes of the items of its collection. The
scope of every item answers the iterator's path with the item, and every path that goes on from it with
what is found inside the item, if and only if the path is a name without brackets and quotes around it;
and so it is with the iterator as its own body, which then gives the items back. -/
theorem iterator_visible_iff {signatures : Signatures} {kind : String} {path : String}
    {collection iterator body : Expr} (iterates : kind ∈ Builtins.iterations)
    (accepted : Rule.iteration signatures (Expr.call kind [collection, iterator, body]) = .ok ())
    (own : iterator.path? = some path) :
    (∀ options depth memory scope,
      BodyScope options (Expr.call kind [collection, iterator, body]) depth memory scope →
        ∃ call v items item, collection.evalAt .builtins options (depth + 1) memory = .ok v ∧
          Builtins.items call v = .ok items ∧ item ∈ items ∧ scope = iterator.scope item memory) ∧
    ((∀ memory item, (iterator.scope item memory).resolve path = .ok item) ↔ Path.Plain path) ∧
    ((∀ memory item rest steps, Path.parse rest = .ok steps →
      (iterator.scope item memory).resolve (Path.join path rest) =
        Memory.find (Path.join path rest) item steps) ↔ Path.Plain path) ∧
    ((∀ options depth memory collection call v items, (∀ path, options.whenNull path = none) →
      depth + 1 < options.maxDepth →
      collection.evalAt .builtins options (depth + 1) memory = .ok v →
      Builtins.items call v = .ok items →
        (Expr.call "foreach" [collection, iterator, iterator]).evalAt .builtins options depth memory =
          .ok (.array items)) ↔ Path.Plain path) := by
  obtain ⟨_, _, _, name, shape, single⟩ := Rule.iteration_accepts signatures _ accepted
  cases shape
  obtain rfl : name = path := Option.some.inj ((path_of_iterator single).symm.trans own)
  refine ⟨fun options depth memory scope evaluates => ?_, resolve_scope_iff single,
    resolve_scope_join_iff single, foreach_iterator_iff single⟩
  exact scope_of_bodyScope iterates single evaluates

/-- The item hides what the memory outside has under the same name. -/
theorem iterator_visible_iff_shadows :
    let iterator := accessor "x"
    let node : Expr := .call "where" [accessor "xs", iterator, accessor "x.y"]
    let outer : Memory := .document (.object [("x", .int 1)])
    Rule.iteration Registry.builtins.signatures node = .ok () ∧ iterator.path? = some "x" ∧
    Path.Plain "x" ∧
    (iterator.scope (.object [("y", .int 2)]) outer).resolve "x" = .ok (.object [("y", .int 2)]) ∧
    (iterator.scope (.object [("y", .int 2)]) outer).resolve (Path.join "x" "y") = .ok (.int 2) := by
  intro iterator node outer
  have single : iterator.iterator? = some "x" := by decide +kernel
  have accepted : Rule.iteration Registry.builtins.signatures node = .ok () := by
    simp [node, Rule.iteration, Rule.all, Rule.exactly, Rule.arity, Rule.anything, args, single, bind,
      Except.bind]
  have plain : Path.Plain "x" := by simp [Path.Plain, Path.isPlain]
  have name : Path.parse "y" = .ok [.key "y"] := by decide +kernel
  obtain ⟨_, visible, further, _⟩ := iterator_visible_iff (by decide) accepted (path_of_iterator single)
  exact ⟨accepted, path_of_iterator single, plain, visible.2 plain _ _, further.2 plain _ _ _ _ name⟩

def quotedIterator : Expr :=
  .call "foreach" [constant (.array [.int 1, .int 2]), accessor "['x y']", accessor "['x y']"]

/-- A quoted iterator is accepted, and is missing in its own scope: it comes to nulls in the place of
the items. -/
theorem iterator_quoted_unseen :
    Registry.builtins.validateTree quotedIterator = .ok () ∧
    ((accessor "['x y']").scope (.int 1) .empty).resolve "['x y']" = .error (.notFound "['x y']") ∧
    quotedIterator.eval .builtins {} .empty = .ok (.array [.null, .null]) ∧
    quotedIterator.eval .builtins {} .empty ≠ .ok (.array [.int 1, .int 2]) := by
  let options : Options := {}
  have accepted : Registry.builtins.validateTree quotedIterator = .ok () :=
    Registry.validateTree_of_toOption (by rw [Registry.builtins_eq]; decide +kernel)
  have single : (accessor "['x y']").iterator? = some "['x y']" := by decide +kernel
  have quoted : ¬ Path.Plain "['x y']" := fun plain => absurd (plain '[' (by decide)) (by decide)
  have own : Path.parse "['x y']" = .ok [.key "x y"] := by decide +kernel
  have missing : Memory.empty.resolve "['x y']" = .error (.notFound "['x y']") := resolve_empty own
  have room : 0 + 1 < options.maxDepth := by decide
  have outside : (accessor "['x y']").evalAt .builtins options (0 + 1) .empty = .ok .null := by
    rw [evalAt_path room (by rfl), missing]
    rfl
  have visits : Builtins.items ⟨quotedIterator, options, 0, 0⟩ (.array [.int 1, .int 2]) =
      .ok [.int 1, .int 2] := rfl
  have nulls : quotedIterator.eval .builtins {} .empty = .ok (.array [.null, .null]) :=
    foreach_quoted single quoted room (evalAt_constant room _ _) visits outside
  refine ⟨accepted, ?_, nulls, ?_⟩
  · rw [resolve_scope_quoted single quoted own own, missing]
  · rw [nulls]
    simp

end Visibility

end Expr

end Formula

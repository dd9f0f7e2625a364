import Formula.Proofs.Layers
import Formula.Proofs.Rules
import Formula.Proofs.Shapes

/-! Scope is substitution. Binding a name over a memory comes to the same as writing what an accessor
finds in the bound value in the place of the accessor. An iteration over the same name hides the
binding from its body, in the tree as in the memory. -/
namespace Formula

namespace Memory

theorem over_hidden (name : String) (v w : Value) (below : Memory) :
    Memory.over [(name, w)] (Memory.over [(name, v)] below) = Memory.over [(name, w)] below := by
  apply congrArg Memory.mk
  funext path
  cases read : Memory.steps path with
  | error e => rfl
  | ok steps =>
    match steps with
    | .key key :: rest => by_cases same : name = key <;> simp [Memory.over, read, Fields.get?, same]
    | [] | .index _ :: _ => simp [Memory.over, read]

theorem over_comm {name other : String} (apart : name ≠ other) (v w : Value) (below : Memory) :
    Memory.over [(other, w)] (Memory.over [(name, v)] below) =
      Memory.over [(name, v)] (Memory.over [(other, w)] below) := by
  apply congrArg Memory.mk
  funext path
  cases read : Memory.steps path with
  | error e => rfl
  | ok steps =>
    match steps with
    | .key key :: rest =>
      by_cases here : name = key
      · have elsewhere : other ≠ key := fun same => apart (here.trans same.symm)
        simp [Memory.over, read, Fields.get?, here, elsewhere]
      · by_cases there : other = key <;> simp [Memory.over, read, Fields.get?, here, there]
    | [] | .index _ :: _ => simp [Memory.over, read]

/-- The memory refuses each of these texts that is no path. -/
def Refuses (memory : Memory) (paths : List String) : Prop :=
  ∀ path ∈ paths, ∀ e, Memory.steps path = .error e →
    ∃ text fault, memory.resolve path = .error (.invalidPath text fault)

theorem Refuses.of_child {memory : Memory} {name : String} {args : List Expr} {child : Expr}
    (refuses : memory.Refuses (Expr.call name args).paths) (member : child ∈ args) :
    memory.Refuses child.paths :=
  fun path named => refuses path (Expr.paths_of_child (by exact member) named)

theorem refuses_over (bindings : List (String × Value)) (below : Memory) (paths : List String) :
    (Memory.over bindings below).Refuses paths := by
  intro path _ e failed
  cases parsed : Path.parse path with
  | ok steps => simp [Memory.steps, parsed] at failed
  | error fault => exact ⟨path, fault, by simp [Memory.over, Memory.steps, parsed]⟩

end Memory

namespace Expr

/-- What an accessor finds in `v`, when its path starts with the name `x`; null where the path leads
nowhere. -/
def found? (x : String) (v : Value) (e : Expr) : Option Value :=
  match e.path?.map Memory.steps with
  | some (.ok (.key name :: rest)) => if name = x then some ((v.walk rest).getD .null) else none
  | _ => none

mutual

def subst (x : String) (v : Value) : Expr → Expr
  | .constant w => .constant w
  | .call name args =>
    match found? x v (.call name args) with
    | some w => .constant w
    | none =>
      .call name (if name ∈ Builtins.iterations then substScope x v args else substAll x v args)

def substAll (x : String) (v : Value) : List Expr → List Expr
  | [] => []
  | e :: rest => e.subst x v :: substAll x v rest

/-- In the arguments of an iteration the iterator stays as it is, and so does the body when the
iterator has the name `x`. -/
def substScope (x : String) (v : Value) : List Expr → List Expr
  | [] => []
  | [collection] => [collection.subst x v]
  | collection :: iterator :: body =>
    collection.subst x v :: iterator :: if iterator.path? = some x then body else substAll x v body

end

section Arguments

variable {x : String} {v : Value}

theorem substAll_eq_map (args : List Expr) : substAll x v args = args.map (subst x v) := by
  induction args with
  | nil => simp [substAll]
  | cons e rest ih => simp [substAll, ih]

theorem length_substScope (args : List Expr) : (substScope x v args).length = args.length := by
  match args with
  | [] | [_] => simp [substScope]
  | collection :: iterator :: body =>
    by_cases hidden : iterator.path? = some x <;> simp [substScope, hidden, substAll_eq_map]

theorem collection_substScope (args : List Expr) :
    (substScope x v args)[0]? = args[0]?.map (subst x v) := by
  match args with
  | [] | [_] | _ :: _ :: _ => simp [substScope]

theorem iterator_substScope (args : List Expr) : (substScope x v args)[1]? = args[1]? := by
  match args with
  | [] | [_] | _ :: _ :: _ => simp [substScope]

theorem body_substScope {args : List Expr} {iterator : Expr} (second : args[1]? = some iterator) :
    (substScope x v args)[2]? =
      if iterator.path? = some x then args[2]? else args[2]?.map (subst x v) := by
  match args, second with
  | collection :: _ :: body, rfl =>
    by_cases hidden : iterator.path? = some x <;> simp [substScope, hidden, substAll_eq_map]

end Arguments

section Nodes

variable {x : String} {v w : Value} {e : Expr} {path : String}

theorem found?_some (found : e.found? x v = some w) : ∃ path rest,
    e.path? = some path ∧ Memory.steps path = .ok (.key x :: rest) ∧ w = (v.walk rest).getD .null := by
  unfold found? at found
  cases own : e.path? with
  | none => simp [own] at found
  | some path =>
    simp only [own, Option.map_some] at found
    split at found
    · rename_i name rest read
      by_cases same : name = x
      · subst same
        simp only [if_true, Option.some.injEq] at found
        exact ⟨path, rest, rfl, by simpa using read, found.symm⟩
      · simp [same] at found
    · simp at found

theorem found?_pathless (pathless : e.path? = none) : e.found? x v = none := by
  simp [found?, pathless]

/-- A path that does not start with `x` is left to the memory below. -/
theorem resolve_free (free : e.found? x v = none) (own : e.path? = some path) {steps : List Step}
    (read : Memory.steps path = .ok steps) (below : Memory) :
    (Memory.over [(x, v)] below).resolve path = below.resolve path := by
  rw [Memory.resolve_over read]
  match steps with
  | .key name :: rest =>
    have apart : x ≠ name := by
      rintro rfl
      simp [found?, own, read] at free
    simp [Memory.entered?, Fields.get?, apart]
  | [] | .index _ :: _ => rfl

theorem subst_found (found : e.found? x v = some w) : e.subst x v = .constant w := by
  cases e with
  | constant u => simp [found?, path?] at found
  | call name args => simp [subst, found]

theorem subst_call {name : String} {args : List Expr} (free : (call name args).found? x v = none) :
    (call name args).subst x v =
      .call name (if name ∈ Builtins.iterations then substScope x v args else substAll x v args) := by
  simp [subst, free]

theorem path?_subst (free : e.found? x v = none) (own : e.path? = some path) :
    (e.subst x v).path? = some path := by
  -- The first argument of an accessor with a path is a literal, which stays.
  unfold path? at own
  split at own
  · rename_i name text rest
    by_cases accesses : name = accessorName
    · subst accesses
      rw [subst_call free]
      simpa [path?, substAll, subst, Builtins.iterations, accessorName] using own
    · simp [accesses] at own
  · simp at own

end Nodes

section Runs

variable {options : Options} {x : String} {v w : Value} {e : Expr} {depth : Nat} {memory : Memory}

theorem evalAt_found (silent : ∀ path, options.whenNull path = none) (room : depth < options.maxDepth)
    (found : e.found? x v = some w) :
    e.evalAt .builtins options depth (Memory.over [(x, v)] memory) = .ok w := by
  obtain ⟨path, rest, own, read, rfl⟩ := found?_some found
  rw [evalAt_path room own, Memory.resolve_over read]
  simp only [Memory.entered?, Fields.get?, if_true, Option.map_some, Memory.find]
  cases inside : v.walk rest with
  | none => exact answered_missing silent path path
  | some u => exact answered_value silent path u

/-- At every depth and over every memory that refuses the ill-formed paths of the tree, the tree below
a binding of `x` comes to what the tree comes to with the variable replaced. -/
def Substitutes (options : Options) (x : String) (v : Value) (e : Expr) : Prop :=
  ∀ depth memory, memory.Refuses e.paths →
    Outcome.kind (e.evalAt .builtins options depth (Memory.over [(x, v)] memory)) =
      Outcome.kind ((e.subst x v).evalAt .builtins options depth memory)

/-- An accessor that starts elsewhere is answered the same by both memories; a text that is no path is
refused by both. -/
theorem kind_accessor (room : depth < options.maxDepth) (name : e.name = accessorName)
    (free : e.found? x v = none) (keeps : e.path? = none → (e.subst x v).path? = none)
    (refuses : memory.Refuses e.paths) :
    Outcome.kind (e.evalAt .builtins options depth (Memory.over [(x, v)] memory)) =
      Outcome.kind ((e.subst x v).evalAt .builtins options depth memory) := by
  cases own : e.path? with
  | none =>
    have called : (e.subst x v).name = accessorName := by
      cases e with
      | constant u => simpa [subst] using name
      | call name args => rw [subst_call free]; exact name
    rw [evalAt_pathless room name own, evalAt_pathless room called (keeps own)]
    rfl
  | some path =>
    rw [evalAt_path room own, evalAt_path room (path?_subst free own)]
    cases read : Memory.steps path with
    | ok steps => rw [resolve_free free own read]
    | error failure =>
      obtain ⟨text, fault, refused⟩ := refuses path (path_mem_paths own) failure read
      obtain ⟨other, reason, above⟩ :=
        Memory.refuses_over [(x, v)] memory [path] path (by simp) failure read
      rw [refused, above]
      rfl

variable {name : String} {args : List Expr} {function : Function}

theorem kind_here (room : depth < options.maxDepth)
    (found : Registry.builtins.find? name = some function) (apart : name ≠ accessorName)
    (scopeless : name ∉ Builtins.iterations) (each : ∀ child ∈ args, child.Substitutes options x v)
    (refuses : memory.Refuses (call name args).paths) :
    Outcome.kind ((call name args).evalAt .builtins options depth (Memory.over [(x, v)] memory)) =
      Outcome.kind ((call name (substAll x v args)).evalAt .builtins options depth memory) := by
  have count : args.length = (substAll x v args).length := by simp [substAll_eq_map]
  have named := Registry.find?_name found
  apply call_related Outcome.congruence_kind room found (Builtins.like_all (peers count _ _) function
    (Registry.mem_builtins found) (named ▸ apart) (named ▸ scopeless)) count
  rintro index _ child other rfl present replaced
  obtain rfl : child.subst x v = other := by simpa [substAll_eq_map, present] using replaced
  have member : child ∈ args := List.mem_of_getElem? present
  exact each child member (depth + 1) memory (refuses.of_child member)

/-- An iteration asks for its body below a layer of its own. The layer hides a binding with its name,
and changes places with every other one. -/
theorem kind_iteration (room : depth < options.maxDepth)
    (found : Registry.builtins.find? name = some function) (iterates : name ∈ Builtins.iterations)
    (each : ∀ child ∈ args, child.Substitutes options x v)
    (refuses : memory.Refuses (call name args).paths) :
    Outcome.kind ((call name args).evalAt .builtins options depth (Memory.over [(x, v)] memory)) =
      Outcome.kind ((call name (substScope x v args)).evalAt .builtins options depth memory) := by
  have count : args.length = (substScope x v args).length := (length_substScope args).symm
  obtain ⟨finish, logic⟩ := Builtins.iteration_of_mem function (Registry.mem_builtins found)
    ((Registry.find?_name found).symm ▸ iterates)
  have iterators : args[1]?.bind iterator? = (substScope x v args)[1]?.bind iterator? := by
    rw [iterator_substScope]
  apply call_related Outcome.congruence_kind room found
    (logic ▸ Builtins.like_iteration (peers count _ _) iterators finish) count
  rintro index bindings child other (⟨rfl, rfl⟩ | ⟨iterator, key, item, second, single, rfl, rfl⟩)
    present replaced
  · obtain rfl : child.subst x v = other := by
      simpa [collection_substScope, present] using replaced
    have member : child ∈ args := List.mem_of_getElem? present
    exact each child member (depth + 1) memory (refuses.of_child member)
  · have second : args[1]? = some iterator := second
    have spelled : iterator.path? = some key := path_of_iterator single
    rw [body_substScope second, present] at replaced
    simp only [Memory.extend]
    -- The layer of the iteration hides the binding, or moves below it for the induction hypothesis.
    by_cases hidden : key = x
    · subst hidden
      obtain rfl : child = other := by simpa [spelled] using replaced
      rw [Memory.over_hidden]
    · obtain rfl : child.subst x v = other := by simpa [spelled, hidden] using replaced
      rw [Memory.over_comm (fun same => hidden same.symm)]
      exact each child (List.mem_of_getElem? present) (depth + 1) _ (Memory.refuses_over _ _ _)

theorem substitutes (silent : ∀ path, options.whenNull path = none)
    (keeps : ∀ node ∈ e.nodes, node.path? = none → (node.subst x v).path? = none) :
    e.Substitutes options x v := by
  -- By induction on the tree, at all depths and over all memories at once.
  induction e with
  | constant w =>
    intro depth memory _
    rw [subst]
    rcases Nat.lt_or_ge depth options.maxDepth with room | limit
    · rw [evalAt_constant room, evalAt_constant room]
    · rw [evalAt_eq, evalAt_eq, Registry.enter_at_limit limit, Registry.enter_at_limit limit]
  | call name args ih =>
    have each : ∀ child ∈ args, child.Substitutes options x v := by
      intro child member
      exact ih child member fun node inside => keeps node (nodes_of_child member inside)
    intro depth memory refuses
    rcases Nat.lt_or_ge depth options.maxDepth with room | limit
    · cases free : (call name args).found? x v with
      | some w => rw [evalAt_found silent room free, subst_found free, evalAt_constant room]
      | none =>
        by_cases accesses : name = accessorName
        · exact kind_accessor room accesses free (keeps _ (self_mem_nodes _)) refuses
        · rw [subst_call free]
          cases found : Registry.builtins.find? name with
          | none =>
            have known : Registry.builtins.find? (call name args).name = none := found
            rw [evalAt_eq, evalAt_eq, Registry.enter_unknown room known,
              Registry.enter_unknown room (by exact found)]
            rfl
          | some function =>
            by_cases iterates : name ∈ Builtins.iterations
            · rw [if_pos iterates]
              exact kind_iteration room found iterates each refuses
            · rw [if_neg iterates]
              exact kind_here room found accesses iterates each refuses
    · rw [evalAt_eq, evalAt_eq, Registry.enter_at_limit limit, Registry.enter_at_limit limit]

end Runs

section BoundTrees

theorem path_of_bound {node : Expr} (bound : Registry.builtins.validateTree node = .ok ())
    (name : node.name = accessorName) :
    ∃ path steps, node.path? = some path ∧ Memory.steps path = .ok steps := by
  obtain ⟨function, found, ruled⟩ := Registry.validate_ok (Registry.validateTree_ok bound).2
  rw [name, Registry.find?_accessor] at found
  obtain rfl := Option.some.inj found
  obtain ⟨path, steps, shape, read⟩ := Rule.accessor_accepts Registry.builtins.signatures node ruled
  refine ⟨path, steps, ?_, read⟩
  cases node with
  | constant v => simp [args] at shape
  | call called args =>
    obtain rfl : called = accessorName := name
    obtain rfl : args = [.constant (.str path)] := shape
    simp [path?]

end BoundTrees

/-- Binding a name is substituting it. Without substitutes for null a tree over a layer that binds `x`
to `v` comes to the value, or to the kind of error, that it comes to over the memory below with `v`
written in the place of `x`; provided that the substitution makes no path for an accessor that has
none, and that the memory below refuses the texts in the tree that are no paths, as the layer does.
Every bound tree provides both. -/
theorem eval_subst {options : Options} (silent : ∀ path, options.whenNull path = none) (e : Expr)
    (x : String) (v : Value) (memory : Memory) :
    ((∀ node ∈ e.nodes, node.path? = none → (node.subst x v).path? = none) →
      memory.Refuses e.paths →
        Outcome.kind (e.eval .builtins options (Memory.over [(x, v)] memory)) =
          Outcome.kind ((e.subst x v).eval .builtins options memory)) ∧
    (Registry.builtins.validateTree e = .ok () →
      Outcome.kind (e.eval .builtins options (Memory.over [(x, v)] memory)) =
        Outcome.kind ((e.subst x v).eval .builtins options memory)) := by
  constructor
  · intro keeps refuses
    exact substitutes silent keeps 0 memory refuses
  · intro bound
    apply substitutes silent
    · intro node inside pathless
      -- Every accessor of a bound tree has a path, so a node without one is no accessor.
      have apart : node.name ≠ accessorName := by
        intro name
        obtain ⟨path, _, own, _⟩ := path_of_bound (validateTree_of_mem_nodes bound inside) name
        simp [pathless] at own
      cases node with
      | constant w => simp [subst, path?]
      | call name args =>
        rw [subst_call (found?_pathless pathless)]
        exact pathless_of_name apart
    · intro path named failure failed
      obtain ⟨node, inside, own⟩ := List.mem_filterMap.1 named
      obtain ⟨_, steps, same, read⟩ :=
        path_of_bound (validateTree_of_mem_nodes bound inside) (name_of_path own)
      obtain rfl : path = _ := Option.some.inj (own.symm.trans same)
      simp [read] at failed

/-- A tree that is not bound may tell the two apart: over a memory that takes any text for a path, the
layer refuses the text `a..b`; and `accessor(x)`, which has no path, gets one from the text bound to
`x`. -/
theorem eval_subst_unbound :
    let flat : Memory := ⟨fun path => if path = "a..b" then .ok (.int 1) else .error (.notFound path)⟩
    let memory : Memory := .document (.object [("y", .int 1)])
    let nested : Expr := .call accessorName [accessor "x"]
    Outcome.kind ((accessor "a..b").eval .builtins {} (Memory.over [("x", .int 5)] flat)) ≠
      Outcome.kind (((accessor "a..b").subst "x" (.int 5)).eval .builtins {} flat) ∧
    Outcome.kind (nested.eval .builtins {} (Memory.over [("x", .str "y")] memory)) ≠
      Outcome.kind ((nested.subst "x" (.str "y")).eval .builtins {} memory) := by
  intro flat memory nested
  constructor
  · intro same
    have values := congrArg (fun kind => kind.toOption.bind Value.asInt?) same
    revert values
    rw [Registry.builtins_eq]
    decide +kernel
  · intro same
    have values := congrArg (fun kind => kind.toOption.bind Value.asInt?) same
    revert values
    rw [Registry.builtins_eq]
    decide +kernel

/-- `x.n + sum(foreach(xs, x, x))`. -/
def hiddenInSum : Expr :=
  .call "+" [accessor "x.n", .call "sum" [.call "foreach" [accessor "xs", accessor "x", accessor "x"]]]

/-- The iteration over `x` hides the bound `x` from its body; and `accessor(x)` stays without a path
when a number is bound to `x`. -/
theorem eval_subst_hidden :
    let options : Options := {}
    let memory : Memory := .document (.object [("xs", .array [.int 5])])
    let v : Value := .object [("n", .int 3)]
    let nested : Expr := .call accessorName [accessor "x"]
    (∀ path, options.whenNull path = none) ∧
    Registry.builtins.validateTree hiddenInSum = .ok () ∧
    hiddenInSum.eval .builtins options (Memory.over [("x", v)] memory) = .ok (.int 8) ∧
    (hiddenInSum.subst "x" v).eval .builtins options memory = .ok (.int 8) ∧
    (∀ node ∈ nested.nodes, node.path? = none → (node.subst "x" (.int 3)).path? = none) ∧
    memory.Refuses nested.paths ∧
    Outcome.kind (nested.eval .builtins options (Memory.over [("x", .int 3)] memory)) =
      Outcome.kind ((nested.subst "x" (.int 3)).eval .builtins options memory) := by
  intro options memory v nested
  have silent : ∀ path, options.whenNull path = none := fun path => rfl
  have bound : Registry.builtins.validateTree hiddenInSum = .ok () :=
    Registry.validateTree_of_toOption (by rw [Registry.builtins_eq]; decide +kernel)
  have value : hiddenInSum.eval .builtins options (Memory.over [("x", v)] memory) = .ok (.int 8) :=
    Outcome.eq_int (by rw [Registry.builtins_eq]; decide +kernel)
  have same := (eval_subst silent hiddenInSum "x" v memory).2 bound
  have replaced : (hiddenInSum.subst "x" v).eval .builtins options memory = .ok (.int 8) :=
    Outcome.ok_of_kind (same.symm.trans (congrArg Outcome.kind value))
  have keeps : ∀ node ∈ nested.nodes, node.path? = none → (node.subst "x" (.int 3)).path? = none := by
    decide +kernel
  have refuses : memory.Refuses nested.paths := by
    have paths : nested.paths = ["x"] := by decide +kernel
    have read : Memory.steps "x" = .ok [.key "x"] := by decide +kernel
    rw [paths]
    intro path named failure failed
    obtain rfl : path = "x" := List.mem_singleton.1 named
    simp [read] at failed
  exact ⟨silent, bound, value, replaced, keeps, refuses,
    (eval_subst silent nested "x" (.int 3) memory).1 keeps refuses⟩

end Expr

end Formula

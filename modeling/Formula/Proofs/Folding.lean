import Formula.Proofs.Levels
import Formula.Proofs.Shapes

/-! Constant folding. A part of a tree may be replaced by the constant of its value, unless it stands
where a function looks at the part itself: under an accessor, or in the iterator or the body of an
iteration. Folding makes a tree no deeper, so the only outcome that it can improve is the overflow of
the depth limit. -/
namespace Formula

namespace Outcome

/-- The overflow of the depth limit is below every outcome; any other outcome is below the outcomes of
its own kind. -/
def Below (first second : Outcome) : Prop :=
  (∀ level limit, first ≠ .error (.tooDeep level limit)) → first.kind = second.kind

theorem below_overflow (level limit : Nat) (second : Outcome) :
    Below (.error (.tooDeep level limit)) second :=
  fun calm => absurd rfl (calm level limit)

theorem Below.ok {second : Outcome} {v : Value} (below : Below (.ok v) second) : second = .ok v :=
  ok_of_kind (below (by simp)).symm

theorem congruence_below : Congruence Below where
  kind same _ := same
  bind {first second next other} start later := by
    intro calm
    cases first with
    | ok v =>
      obtain rfl : second = .ok v := start.ok
      exact later v calm
    | error e =>
      -- Nothing follows an error, so it is excluded that the first outcome itself is the overflow.
      have same : kind (.error e) = second.kind := start calm
      cases second with
      | ok w => simp at same
      | error f => exact same

end Outcome

namespace Expr

/-- Nearer to the root a tree comes to the same, or overflows no longer. -/
theorem evalAt_shallower {options : Options} (e : Expr) {level depth : Nat} (higher : level ≤ depth)
    (memory : Memory) : Outcome.Below (e.evalAt .builtins options depth memory)
      (e.evalAt .builtins options level memory) :=
  fun calm => congrArg Outcome.kind (evalAt_cutOf e higher memory calm)

end Expr

inductive Context
  | hole
  | call (name : String) (before : List Expr) (inner : Context) (after : List Expr)

namespace Context

def fill (part : Expr) : Context → Expr
  | .hole => part
  | .call name before inner after => .call name (before ++ inner.fill part :: after)

/-- No function on the way looks at the part itself: it is not the child of an accessor, and neither in
the second nor in the third argument of an iteration. -/
def Transparent : Context → Prop
  | .hole => True
  | .call name before inner _ =>
    (inner = .hole → name ≠ Expr.accessorName) ∧
    (name ∈ Builtins.iterations → before.length ≠ 1 ∧ before.length ≠ 2) ∧ inner.Transparent

section Arguments

variable {before after : List Expr} {first second child other : Expr} {index : Nat}

theorem argument_elsewhere (apart : index ≠ before.length) :
    (before ++ first :: after)[index]? = (before ++ second :: after)[index]? := by
  have changed : before ++ second :: after = (before ++ first :: after).set before.length second := by
    simp
  rw [changed, List.getElem?_set_ne apart.symm]

theorem arguments_cases (present : (before ++ first :: after)[index]? = some child)
    (found : (before ++ second :: after)[index]? = some other) :
    (index = before.length ∧ child = first ∧ other = second) ∨ child = other := by
  by_cases here : index = before.length
  · subst here
    exact .inl ⟨rfl, by simpa using present.symm, by simpa using found.symm⟩
  · rw [argument_elsewhere here] at present
    exact .inr (Option.some.inj (present.symm.trans found))

end Arguments

theorem path?_fill {before after : List Expr} {inner : Context} {name : String}
    (below : inner ≠ .hole) (first second : Expr) :
    (Expr.call name (before ++ inner.fill first :: after)).path? =
      (Expr.call name (before ++ inner.fill second :: after)).path? := by
  cases before with
  | nil =>
    cases inner with
    | hole => exact absurd rfl below
    | call => simp [fill, Expr.path?]
  | cons e rest =>
    cases e with
    | constant v => cases v <;> rfl
    | call => rfl

section Runs

variable {options : Options} {memory : Memory} {part : Expr} {v : Value} {depth : Nat}

theorem part_below (value : part.eval .builtins options memory = .ok v) (depth : Nat) :
    Outcome.Below (part.evalAt .builtins options depth memory)
      ((Expr.constant v).evalAt .builtins options depth memory) := by
  -- The part is entered deeper in the tree than on its own, and a constant needs one level.
  rcases Nat.lt_or_ge depth options.maxDepth with room | limit
  · rw [Expr.evalAt_constant room, ← value]
    exact Expr.evalAt_shallower part (Nat.zero_le depth) memory
  · rw [Expr.evalAt_eq, Registry.enter_at_limit limit]
    exact Outcome.below_overflow _ _ _

variable {name : String} {before after : List Expr} {first second : Expr}

theorem accessor_below (room : depth < options.maxDepth)
    (paths : (Expr.call Expr.accessorName (before ++ first :: after)).path? =
      (Expr.call Expr.accessorName (before ++ second :: after)).path?) :
    Outcome.Below
      ((Expr.call Expr.accessorName (before ++ first :: after)).evalAt .builtins options depth memory)
      ((Expr.call Expr.accessorName (before ++ second :: after)).evalAt .builtins options depth memory) := by
  apply Outcome.congruence_below.kind
  cases own : (Expr.call Expr.accessorName (before ++ first :: after)).path? with
  | none =>
    rw [Expr.evalAt_pathless room rfl own, Expr.evalAt_pathless room rfl (paths ▸ own)]
    rfl
  | some path => rw [Expr.evalAt_path room own, Expr.evalAt_path room (paths ▸ own)]

/-- An argument of any other function may be exchanged for one that comes to no less, where it is
evaluated over the memory of the call. -/
theorem call_below (apart : name ≠ Expr.accessorName)
    (placed : name ∈ Builtins.iterations → before.length ≠ 1 ∧ before.length ≠ 2)
    (argument : Outcome.Below (first.evalAt .builtins options (depth + 1) memory)
      (second.evalAt .builtins options (depth + 1) memory))
    (room : depth < options.maxDepth) :
    Outcome.Below
      ((Expr.call name (before ++ first :: after)).evalAt .builtins options depth memory)
      ((Expr.call name (before ++ second :: after)).evalAt .builtins options depth memory) := by
  have count : (before ++ first :: after).length = (before ++ second :: after).length := by simp
  cases found : Registry.builtins.find? name with
  | none =>
    have unknown : Registry.builtins.find? (Expr.call name (before ++ first :: after)).name = none := found
    have still : Registry.builtins.find? (Expr.call name (before ++ second :: after)).name = none := found
    rw [Expr.evalAt_eq, Expr.evalAt_eq, Registry.enter_unknown room unknown,
      Registry.enter_unknown room still]
    exact Outcome.congruence_below.kind rfl
  | some function =>
    have named := Registry.find?_name found
    have standard := Registry.mem_builtins found
    by_cases iterates : name ∈ Builtins.iterations
    · obtain ⟨finish, logic⟩ := Builtins.iteration_of_mem function standard (named.symm ▸ iterates)
      have iterators : (before ++ first :: after)[1]?.bind Expr.iterator? =
          (before ++ second :: after)[1]?.bind Expr.iterator? := by
        rw [argument_elsewhere (placed iterates).1.symm]
      apply Expr.call_related Outcome.congruence_below room found
        (logic ▸ Builtins.like_iteration (Expr.peers count _ _) iterators finish) count
      intro index bindings child other asked present replaced
      rcases arguments_cases present replaced with ⟨rfl, rfl, rfl⟩ | rfl
      · rcases asked with ⟨_, rfl⟩ | ⟨_, _, _, _, _, body, _⟩
        · exact argument
        · exact absurd body (placed iterates).2
      · exact Outcome.congruence_below.kind rfl
    · apply Expr.call_related Outcome.congruence_below room found
        (Builtins.like_all (Expr.peers count _ _) function standard (named ▸ apart) (named ▸ iterates)) count
      rintro index _ child other rfl present replaced
      rcases arguments_cases present replaced with ⟨rfl, rfl, rfl⟩ | rfl
      · exact argument
      · exact Outcome.congruence_below.kind rfl

theorem fill_below (value : part.eval .builtins options memory = .ok v) (context : Context)
    (transparent : context.Transparent) (depth : Nat) :
    Outcome.Below ((context.fill part).evalAt .builtins options depth memory)
      ((context.fill (.constant v)).evalAt .builtins options depth memory) := by
  -- By induction on the context; the memory stays the same on the way to the hole.
  induction context generalizing depth with
  | hole => exact part_below value depth
  | call name before inner after ih =>
    obtain ⟨shielded, placed, further⟩ := transparent
    rcases Nat.lt_or_ge depth options.maxDepth with room | limit
    · by_cases accesses : name = Expr.accessorName
      · subst accesses
        exact accessor_below room (path?_fill (fun bare => shielded bare rfl) _ _)
      · exact call_below accesses placed (ih further (depth + 1)) room
    · rw [Expr.evalAt_eq, Registry.enter_at_limit limit]
      exact Outcome.below_overflow _ _ _

end Runs

/-- Constant folding is sound. When a part of a tree comes to a value on its own, the tree with the
constant in its place comes to the same value or to an error of the same kind, unless the tree itself
overflows the depth limit; in particular no value of the tree is lost. -/
theorem eval_folded (context : Context) (transparent : context.Transparent) {options : Options}
    {memory : Memory} {part : Expr} {v : Value} (value : part.eval .builtins options memory = .ok v) :
    ((∀ level limit,
        (context.fill part).eval .builtins options memory ≠ .error (.tooDeep level limit)) →
      Outcome.kind ((context.fill part).eval .builtins options memory) =
        Outcome.kind ((context.fill (.constant v)).eval .builtins options memory)) ∧
    ∀ w, (context.fill part).eval .builtins options memory = .ok w →
      (context.fill (.constant v)).eval .builtins options memory = .ok w := by
  have below : Outcome.Below ((context.fill part).eval .builtins options memory)
      ((context.fill (.constant v)).eval .builtins options memory) :=
    fill_below value context transparent 0
  refine ⟨below, ?_⟩
  intro w whole
  rw [whole] at below
  exact below.ok

def sumOfArray : Context :=
  .call "sum" [] (.call "foreach" [] (.call "createArray" [] .hole [.constant (.int 1)])
    [.accessor "x", .accessor "x"]) []

/-- `coalesce(y, 2)` is folded in the collection of an iteration. -/
theorem eval_folded_collection :
    let memory : Memory := .document (.object [])
    let part : Expr := .call "coalesce" [.accessor "y", .constant (.int 2)]
    sumOfArray.Transparent ∧
    part.eval .builtins {} memory = .ok (.int 2) ∧
    (sumOfArray.fill part).eval .builtins {} memory = .ok (.int 3) ∧
    (sumOfArray.fill (.constant (.int 2))).eval .builtins {} memory = .ok (.int 3) := by
  intro memory part
  have transparent : sumOfArray.Transparent := by
    simp [sumOfArray, Transparent, Expr.accessorName, Builtins.iterations]
  have value : part.eval .builtins {} memory = .ok (.int 2) :=
    Outcome.eq_int (by rw [Registry.builtins_eq]; decide +kernel)
  have whole : (sumOfArray.fill part).eval .builtins {} memory = .ok (.int 3) :=
    Outcome.eq_int (by rw [Registry.builtins_eq]; decide +kernel)
  exact ⟨transparent, value, whole, (eval_folded sumOfArray transparent value).2 _ whole⟩

end Context

end Formula

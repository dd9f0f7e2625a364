import Formula.Proofs.Layers
import Formula.Proofs.PathGrammar

/-! Paths that go on from one another. A path may be continued by selectors at once and by a name after
a point; whatever was read before, the longer text denotes the steps of both parts in turn, and what it
leads to is what the second part leads to inside the value at the end of the first. -/
namespace Formula

namespace Path

/-- The path that goes on from `first` with `rest`: a selector follows at once, a name after a point. -/
def join (first rest : String) : String :=
  if rest.toList.head? = some '[' then first ++ rest else first ++ "." ++ rest

section Continuations

variable {text rest : List Char} {steps more : List Step}

theorem Selectors.append (first : Selectors text steps) (others : Selectors rest more) :
    Selectors (text ++ rest) (steps ++ more) := by
  induction first with
  | none => exact others
  | more start _ ih => simpa using Selectors.more start ih

theorem Named.selectors (named : Named text steps) (brackets : Selectors rest more) :
    Named (text ++ rest) (steps ++ more) := by
  cases named with
  | intro nonempty plain own =>
    simpa using Named.intro nonempty plain (own.append brackets)

theorem Head.selectors (head : Head text steps) (brackets : Selectors rest more) :
    Head (text ++ rest) (steps ++ more) := by
  cases head with
  | named named => exact .named (named.selectors brackets)
  | bare own nonempty => exact .bare (own.append brackets) (by simp [nonempty])

theorem Tail.selectors (tail : Tail text steps) (nonempty : text ≠ []) (brackets : Selectors rest more) :
    Tail (text ++ rest) (steps ++ more) := by
  induction tail with
  | none => exact absurd rfl nonempty
  | @more name others own further named tail ih =>
    by_cases last : others = []
    · subst last
      cases tail with
      | none => simpa using Tail.more (named.selectors brackets) .none
    · simpa using Tail.more named (ih last)

theorem Tail.append (first : Tail text steps) (others : Tail rest more) :
    Tail (text ++ rest) (steps ++ more) := by
  induction first with
  | none => exact others
  | more named _ ih => simpa using Tail.more named ih

theorem Denotes.selectors (denotes : Denotes text steps) (brackets : Selectors rest more) :
    Denotes (text ++ rest) (steps ++ more) := by
  cases denotes with
  | @intro start names opening others head tail =>
    by_cases alone : names = []
    · subst alone
      cases tail with
      | none => simpa using Denotes.intro (head.selectors brackets) .none
    · simpa using Denotes.intro head (tail.selectors alone brackets)

/-- Names after points may follow any path. -/
theorem Denotes.tail (denotes : Denotes text steps) (names : Tail rest more) :
    Denotes (text ++ rest) (steps ++ more) := by
  cases denotes with
  | intro head tail => simpa using Denotes.intro head (tail.append names)

theorem Named.head_ne (named : Named text steps) : (text ++ rest).head? ≠ some '[' := by
  cases named with
  | @intro name _ _ nonempty plain _ =>
    cases name with
    | nil => exact absurd rfl nonempty
    | cons c others => simpa using (plain c (by simp)).2.1

/-- How a path goes on is settled by the first character of what follows, whether it was reading a name
or selectors before. -/
theorem Denotes.followed (first : Denotes text steps) (second : Denotes rest more) :
    Denotes (text ++ if rest.head? = some '[' then rest else '.' :: rest) (steps ++ more) := by
  cases second with
  | @intro start names opening others head tail =>
    cases head with
    | named named =>
      rw [if_neg named.head_ne]
      simpa using first.tail (.more named tail)
    | bare brackets nonempty =>
      obtain ⟨inner, rfl⟩ := brackets.bracket nonempty
      simpa using (first.selectors brackets).tail tail

end Continuations

theorem toList_join (first rest : String) :
    (join first rest).toList =
      first.toList ++ if rest.toList.head? = some '[' then rest.toList else '.' :: rest.toList := by
  unfold join
  split <;> simp

/-- The reader of paths takes joined paths one after the other. -/
theorem parse_join {first rest : String} {steps more : List Step} (begins : parse first = .ok steps)
    (goes : parse rest = .ok more) : parse (join first rest) = .ok (steps ++ more) := by
  rw [parse_ok_iff] at begins goes ⊢
  rw [toList_join]
  exact begins.followed goes

end Path

namespace Memory

theorem steps_of_parse {path : String} {steps : List Step} (read : Path.parse path = .ok steps) :
    Memory.steps path = .ok steps := by
  simp [Memory.steps, read]

/-- What the steps after a path lead to, when the path itself is answered so; the error names the whole
text. -/
def onward (path : String) (more : List Step) : Except MemoryError Value → Except MemoryError Value
  | .ok u => find path u more
  | .error _ => .error (.notFound path)

theorem find_append (path longer : String) (root : Value) (steps more : List Step) :
    find longer root (steps ++ more) = onward longer more (find path root steps) := by
  simp only [find, Value.walk_append]
  cases root.walk steps <;> rfl

/-- The answer to a longer path is found from the answer to the path, layer by layer: all that a layer
looks at is the first step, which the two have in common. -/
theorem Layered.resolve_longer {memory : Memory} (layered : memory.Layered) {path longer : String}
    {steps more : List Step} (read : Memory.steps path = .ok steps)
    (further : Memory.steps longer = .ok (steps ++ more)) :
    memory.resolve longer = onward longer more (memory.resolve path) := by
  induction layered with
  | document root => rw [resolve_document further, resolve_document read, find_append path]
  | layer bindings layered ih =>
    rw [resolve_over further, resolve_over read, ih]
    match steps, (Path.steps_ok_iff.1 read).steps_nonempty with
    | .key name :: rest, _ =>
      cases bound : Fields.get? name bindings with
      | none => simp [entered?, bound]
      | some v => simp [entered?, bound, find_append path]
    | .index _ :: _, _ => rfl

/-- Paths concatenate. The join of two paths is a path whose steps are those of the first and then those
of the second; in every document it leads where the second leads from where the first does, and where
one of the two leads nowhere it is missing. -/
theorem resolve_join {first rest : String} {steps more : List Step}
    (begins : Path.parse first = .ok steps) (goes : Path.parse rest = .ok more) :
    Path.parse (Path.join first rest) = .ok (steps ++ more) ∧
    ∀ root,
      (∀ v, (document root).resolve (Path.join first rest) = .ok v ↔
        ∃ u, (document root).resolve first = .ok u ∧ (document u).resolve rest = .ok v) ∧
      ((¬ ∃ u v, (document root).resolve first = .ok u ∧ (document u).resolve rest = .ok v) →
        (document root).resolve (Path.join first rest) = .error (.notFound (Path.join first rest))) := by
  have joined := Path.parse_join begins goes
  refine ⟨joined, fun root => ?_⟩
  have whole := (Layered.document root).resolve_longer (steps_of_parse begins) (steps_of_parse joined)
  have second := resolve_document (steps_of_parse goes)
  simp only [whole, second]
  cases (document root).resolve first with
  | error e => simp [onward]
  | ok u =>
    cases inside : u.walk more <;> simp [onward, find, inside]

/-- A quoted key after an index leads on; the other way around the name needs a point, and is missing. -/
theorem resolve_join_quoted :
    let root : Value := .object [("a", .array [.object [("b.c", .object [("d", .int 1)])]])]
    Path.parse "a[0]" = .ok [.key "a", .index 0] ∧
    Path.parse "['b.c'].d" = .ok [.key "b.c", .key "d"] ∧
    Path.parse "a[0]['b.c'].d" = .ok [.key "a", .index 0, .key "b.c", .key "d"] ∧
    (document root).resolve "a[0]['b.c'].d" = .ok (.int 1) ∧
    (document root).resolve "['b.c'].d.a[0]" = .error (.notFound "['b.c'].d.a[0]") := by
  intro root
  have item : Path.parse "a[0]" = .ok [.key "a", .index 0] := by decide +kernel
  have quoted : Path.parse "['b.c'].d" = .ok [.key "b.c", .key "d"] := by decide +kernel
  have there : Path.join "a[0]" "['b.c'].d" = "a[0]['b.c'].d" := by decide +kernel
  have back : Path.join "['b.c'].d" "a[0]" = "['b.c'].d.a[0]" := by decide +kernel
  obtain ⟨parsed, leads⟩ := resolve_join item quoted
  obtain ⟨_, misses⟩ := resolve_join quoted item
  rw [there] at parsed leads
  rw [back] at misses
  refine ⟨item, quoted, parsed, ((leads root).1 (.int 1)).2 ?_, (misses root).2 ?_⟩
  · refine ⟨.object [("b.c", .object [("d", .int 1)])], ?_, ?_⟩
    · rw [resolve_document (steps_of_parse item)]
      rfl
    · rw [resolve_document (steps_of_parse quoted)]
      rfl
  · rintro ⟨u, v, start, _⟩
    rw [resolve_document (steps_of_parse quoted)] at start
    simp [root, find, Value.walk, Value.step, Fields.get?] at start

end Memory

end Formula

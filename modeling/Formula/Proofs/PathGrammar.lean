import Formula.Memory
import Formula.Proofs.Scanning
import Mathlib.Data.List.Induction

/-! The grammar of paths, and the reader of paths as a decision procedure for it. A path is a head
and then any number of names after points; names and the head are followed by selectors. -/
namespace Formula.Path

/-- A row of digits and its decimal value; zeros may lead. -/
inductive Numeral : List Char → Nat → Prop
  | digit {c : Char} (digit : c.isDigit = true) : Numeral [c] (Decimal.digit c)
  | more {digits : List Char} {n : Nat} {c : Char} (numeral : Numeral digits n)
      (digit : c.isDigit = true) : Numeral (digits ++ [c]) (10 * n + Decimal.digit c)

/-- An index of 64 bits, or any text without the quote between two quotes, in brackets. -/
inductive Selector : List Char → Step → Prop
  | index {digits : List Char} {n : Nat} (numeral : Numeral digits n) (word : n < Nat.pow 2 64) :
      Selector ('[' :: digits ++ [']']) (.index n)
  | key {quote : Char} {key : List Char} (quotes : quote = '\'' ∨ quote = '"') (free : quote ∉ key) :
      Selector ('[' :: quote :: key ++ [quote, ']']) (.key (String.ofList key))

inductive Selectors : List Char → List Step → Prop
  | none : Selectors [] []
  | more {text rest : List Char} {step : Step} {steps : List Step} (first : Selector text step)
      (others : Selectors rest steps) : Selectors (text ++ rest) (step :: steps)

/-- A name and its selectors. -/
inductive Named : List Char → List Step → Prop
  | intro {name text : List Char} {steps : List Step} (nonempty : name ≠ [])
      (plain : ∀ c ∈ name, c ≠ '.' ∧ c ≠ '[' ∧ c ≠ ']') (selectors : Selectors text steps) :
      Named (name ++ text) (.key (String.ofList name) :: steps)

/-- Where a path starts, selectors may stand without a name. -/
inductive Head : List Char → List Step → Prop
  | named {text : List Char} {steps : List Step} (named : Named text steps) : Head text steps
  | bare {text : List Char} {steps : List Step} (selectors : Selectors text steps)
      (nonempty : steps ≠ []) : Head text steps

inductive Tail : List Char → List Step → Prop
  | none : Tail [] []
  | more {text rest : List Char} {steps others : List Step} (named : Named text steps)
      (tail : Tail rest others) : Tail ('.' :: text ++ rest) (steps ++ others)

/-- The text is a path, and the steps are its meaning. -/
inductive Denotes : List Char → List Step → Prop
  | intro {text rest : List Char} {steps others : List Step} (head : Head text steps)
      (tail : Tail rest others) : Denotes (text ++ rest) (steps ++ others)

theorem Numeral.reads {digits : List Char} {n : Nat} (numeral : Numeral digits n) :
    digits ≠ [] ∧ (∀ c ∈ digits, c.isDigit = true) ∧ Decimal.ofDigits digits = n := by
  induction numeral with
  | digit digit => simpa [Decimal.ofDigits] using digit
  | more numeral digit ih =>
    obtain ⟨_, all, value⟩ := ih
    refine ⟨by simp, ?_, by rw [Decimal.ofDigits_append, value]⟩
    intro c member
    rcases List.mem_append.1 member with before | last
    · exact all c before
    · exact List.mem_singleton.1 last ▸ digit

theorem numeral_ofDigits {digits : List Char} (nonempty : digits ≠ [])
    (all : ∀ c ∈ digits, c.isDigit = true) : Numeral digits (Decimal.ofDigits digits) := by
  induction digits using List.reverseRecOn with
  | nil => exact absurd rfl nonempty
  | append_singleton before c ih =>
    have digit := all c (by simp)
    rw [Decimal.ofDigits_append]
    by_cases start : before = []
    · subst start
      simpa [Decimal.ofDigits] using Numeral.digit digit
    · exact (ih start fun c member => all c (by simp [member])).more digit

theorem isQuote_digit {c : Char} (digit : c.isDigit = true) : isQuote c = false := by
  by_contra quote
  simp only [isQuote, Bool.not_eq_false, Bool.or_eq_true, beq_iff_eq] at quote
  rcases quote with rfl | rfl <;> simp at digit

theorem selector_complete {text : List Char} {step : Step} (derived : Selector text step)
    (rest : List Char) :
    ∃ inner, text ++ rest = '[' :: inner ∧ selector inner = .ok (step, ']' :: rest) := by
  cases derived with
  | @index digits n numeral word =>
    obtain ⟨nonempty, all, value⟩ := numeral.reads
    have small : n < indexLimit := word
    have stop : ∀ c ∈ (']' :: rest).head?, c.isDigit = false := by simp
    refine ⟨digits ++ ']' :: rest, by simp, ?_⟩
    have taken := takeWhile_stop all stop
    have left := dropWhile_stop all stop
    cases digits with
    | nil => exact absurd rfl nonempty
    | cons c more =>
      have noQuote := isQuote_digit (all c (by simp))
      rw [List.cons_append] at taken left ⊢
      simp only [selector, noQuote, taken, left, value, small, List.isEmpty_cons, if_true,
        Bool.false_eq_true, if_false]
  | @key quote key quotes free =>
    have isQuoted : isQuote quote = true := by
      rcases quotes with rfl | rfl <;> rfl
    have all : ∀ c ∈ key, (c != quote) = true := by
      intro c member
      simp only [bne_iff_ne]
      rintro rfl
      exact free member
    have stop : ∀ c ∈ (quote :: ']' :: rest).head?, (c != quote) = false := by simp
    refine ⟨quote :: (key ++ quote :: ']' :: rest), by simp, ?_⟩
    simp only [selector, isQuoted, if_true, takeWhile_stop all stop, dropWhile_stop all stop]

theorem selector_sound {text rest : List Char} {step : Step}
    (read : selector text = .ok (step, ']' :: rest)) :
    ∃ consumed, '[' :: text = consumed ++ rest ∧ Selector consumed step := by
  cases text with
  | nil => simp [selector] at read
  | cons c more =>
    simp only [selector] at read
    split at read
    · rename_i quoted
      have whole := List.takeWhile_append_dropWhile (p := (· != c)) (l := more)
      have inside : c ∉ more.takeWhile (· != c) := by
        intro member
        simpa using List.mem_takeWhile_imp member
      split at read
      · simp at read
      · rename_i quote after left
        have closing : quote = c := by simpa [left] using stops_dropWhile (p := (· != c)) more
        simp only [Except.ok.injEq, Prod.mk.injEq] at read
        obtain ⟨rfl, rfl⟩ := read
        rw [left, closing] at whole
        refine ⟨_, ?_, .key (by simpa [isQuote] using quoted) inside⟩
        simpa using whole.symm
    · have whole := List.takeWhile_append_dropWhile (p := Char.isDigit) (l := c :: more)
      split at read
      · simp at read
      · rename_i nonempty
        split at read
        · rename_i word
          simp only [Except.ok.injEq, Prod.mk.injEq] at read
          obtain ⟨rfl, left⟩ := read
          rw [left] at whole
          refine ⟨_, ?_, .index (numeral_ofDigits (by simpa using nonempty) ?_) word⟩
          · simpa using whole.symm
          · exact fun c member => List.mem_takeWhile_imp member
        · simp at read

theorem selectors_none {text : List Char} (stop : text.head? ≠ some '[') :
    selectors text = .ok ([], text) := by
  rw [selectors.eq_def]
  split
  · simp at stop
  · rfl

theorem selectors_more {inner rest : List Char} {step : Step}
    (read : selector inner = .ok (step, ']' :: rest)) :
    selectors ('[' :: inner) = (selectors rest).map fun read => (step :: read.1, read.2) := by
  rw [selectors]
  split
  · rename_i fault failed
    simp [read] at failed
  · rename_i other after same
    obtain ⟨rfl, rfl⟩ : step = other ∧ rest = after := by simpa [read] using same
    cases selectors rest <;> rfl
  · rename_i other noBracket same
    rw [read] at same
    cases same
    exact absurd rfl (noBracket step rest)

theorem selectors_complete {text : List Char} {steps : List Step} (derived : Selectors text steps)
    {rest : List Char} (stop : rest.head? ≠ some '[') :
    selectors (text ++ rest) = .ok (steps, rest) := by
  induction derived with
  | none => exact selectors_none stop
  | more first others ih =>
    rename_i text others' step steps
    obtain ⟨inner, shape, read⟩ := selector_complete first (others' ++ rest)
    rw [List.append_assoc, shape, selectors_more read, ih]
    rfl

theorem selectors_sound {text rest : List Char} {steps : List Step}
    (read : selectors text = .ok (steps, rest)) :
    rest.head? ≠ some '[' ∧ ∃ consumed, text = consumed ++ rest ∧ Selectors consumed steps := by
  fun_induction selectors text generalizing steps rest with
  | case1 => simp at read
  | case2 inner step more first steps' rest' others ih =>
    simp only [Except.ok.injEq, Prod.mk.injEq] at read
    obtain ⟨rfl, rfl⟩ := read
    obtain ⟨stop, consumed, rfl, derived⟩ := ih others
    obtain ⟨start, shape, selector⟩ := selector_sound first
    exact ⟨stop, start ++ consumed, by rw [shape, List.append_assoc], .more selector derived⟩
  | case3 => simp_all
  | case4 => simp at read
  | case5 text other =>
    simp only [Except.ok.injEq, Prod.mk.injEq] at read
    obtain ⟨rfl, rfl⟩ := read
    refine ⟨?_, [], rfl, .none⟩
    intro bracket
    obtain ⟨inner, shape⟩ := List.head?_eq_some_iff.1 bracket
    exact other inner shape

theorem Selectors.start {text : List Char} {steps : List Step} (derived : Selectors text steps) :
    ∀ c ∈ text.head?, c = '[' := by
  cases derived with
  | none => simp
  | more first _ => cases first <;> simp

theorem Selectors.bracket {text : List Char} {steps : List Step} (derived : Selectors text steps)
    (nonempty : steps ≠ []) : ∃ inner, text = '[' :: inner := by
  cases derived with
  | none => exact absurd rfl nonempty
  | more first _ => cases first <;> simp

/-- What stands before the first point of a path, and what stands between two points. -/
def Opens : Bool → List Char → List Step → Prop
  | true => Head
  | false => Named

theorem Named.opens {text : List Char} {steps : List Step} (named : Named text steps) :
    ∀ first, Opens first text steps
  | true => .named named
  | false => named

section Segments

variable {text rest : List Char} {steps : List Step}

theorem segment_named (named : Named text steps) (stop : ∀ c ∈ rest.head?, c = '.') (first : Bool) :
    segment first (text ++ rest) = .ok (steps, rest) := by
  cases named with
  | @intro name brackets steps nonempty plain derived =>
    have passes : ∀ c ∈ name, isPlain c = true := by
      intro c member
      simpa [isPlain, and_assoc] using plain c member
    have after : ∀ c ∈ (brackets ++ rest).head?, c = '[' ∨ c = '.' := by
      intro c head
      cases brackets with
      | nil => exact .inr (stop c head)
      | cons bracket more => exact .inl (derived.start c head)
    have stops : ∀ c ∈ (brackets ++ rest).head?, isPlain c = false := by
      intro c head
      rcases after c head with rfl | rfl <;> rfl
    have read : selectors (brackets ++ rest) = .ok (steps, rest) := by
      apply selectors_complete derived
      intro bracket
      simpa using stop '[' bracket
    simp only [segment, List.append_assoc, takeWhile_stop passes stops, dropWhile_stop passes stops]
    split
    · rename_i more shape
      simp [shape] at after
    · simp [nonempty, read]

theorem segment_bare (derived : Selectors text steps) (nonempty : steps ≠ [])
    (stop : ∀ c ∈ rest.head?, c = '.') : segment true (text ++ rest) = .ok (steps, rest) := by
  obtain ⟨inner, rfl⟩ := derived.bracket nonempty
  have read : selectors (('[' :: inner) ++ rest) = .ok (steps, rest) := by
    apply selectors_complete derived
    intro bracket
    simpa using stop '[' bracket
  simpa [segment, isPlain] using read

theorem segment_complete {first : Bool} (opens : Opens first text steps)
    (stop : ∀ c ∈ rest.head?, c = '.') : segment first (text ++ rest) = .ok (steps, rest) := by
  cases first with
  | false => exact segment_named opens stop false
  | true =>
    cases opens with
    | named named => exact segment_named named stop true
    | bare derived nonempty => exact segment_bare derived nonempty stop

theorem segment_sound {first : Bool} (read : segment first text = .ok (steps, rest)) :
    rest.head? ≠ some '[' ∧ ∃ consumed, text = consumed ++ rest ∧ Opens first consumed steps := by
  have whole := List.takeWhile_append_dropWhile (p := isPlain) (l := text)
  simp only [segment] at read
  split at read
  · simp at read
  · split at read
    · rename_i nonempty
      split at read
      · rename_i more rest' others
        simp only [Except.ok.injEq, Prod.mk.injEq] at read
        obtain ⟨rfl, rfl⟩ := read
        obtain ⟨stop, consumed, shape, derived⟩ := selectors_sound others
        have plain : ∀ c ∈ text.takeWhile isPlain, c ≠ '.' ∧ c ≠ '[' ∧ c ≠ ']' := by
          intro c member
          simpa [isPlain, and_assoc] using List.mem_takeWhile_imp member
        have named := Named.intro (by simpa using nonempty) plain derived
        refine ⟨stop, _, ?_, named.opens first⟩
        rw [List.append_assoc, ← shape, whole]
      · simp at read
    · rename_i empty
      split at read
      · rename_i start
        simp only [Bool.and_eq_true, beq_iff_eq] at start
        obtain ⟨rfl, bracket⟩ := start
        obtain ⟨stop, consumed, shape, derived⟩ := selectors_sound read
        refine ⟨stop, consumed, ?_, .bare derived ?_⟩
        · rw [← shape]
          simpa [show text.takeWhile isPlain = [] by simpa using empty] using whole.symm
        · rintro rfl
          cases derived
          rw [shape] at bracket
          exact stop bracket
      · simp at read

theorem segments_end {first : Bool} (read : segment first text = .ok (steps, [])) :
    segments first text = .ok steps := by
  rw [segments.eq_def, read]

theorem segments_more {first : Bool} (read : segment first text = .ok (steps, '.' :: rest))
    (nonempty : rest ≠ []) : segments first text = (segments false rest).map (steps ++ ·) := by
  rw [segments.eq_def, read]
  cases rest with
  | nil => exact absurd rfl nonempty
  | cons c more =>
    simp only
    cases segments false (c :: more) <;> rfl

end Segments

theorem Named.nonempty {text : List Char} {steps : List Step} (named : Named text steps) :
    text ≠ [] := by
  cases named with
  | intro nonempty _ _ => simp [nonempty]

theorem Head.nonempty {text : List Char} {steps : List Step} (head : Head text steps) :
    text ≠ [] := by
  cases head with
  | named named => exact named.nonempty
  | bare derived nonempty =>
    obtain ⟨inner, rfl⟩ := derived.bracket nonempty
    simp

theorem segments_complete {rest : List Char} {others : List Step} (tail : Tail rest others) :
    ∀ {first : Bool} {text : List Char} {steps : List Step}, Opens first text steps →
      segments first (text ++ rest) = .ok (steps ++ others) := by
  -- By induction on the names after points; the head before them is any.
  induction tail with
  | none =>
    intro first text steps opens
    rw [segments_end (segment_complete opens (by simp))]
    simp
  | @more name rest steps' others named _ ih =>
    intro first text steps opens
    have read : segment first (text ++ '.' :: (name ++ rest)) = .ok (steps, '.' :: (name ++ rest)) :=
      segment_complete opens (by simp)
    have follows : segments false (name ++ rest) = .ok (steps' ++ others) := ih named
    rw [List.cons_append, segments_more read (by simp [named.nonempty]), follows]
    rfl

theorem segments_sound {first : Bool} {text : List Char} {steps : List Step}
    (read : segments first text = .ok steps) : ∃ start rest opening others,
      text = start ++ rest ∧ steps = opening ++ others ∧ Opens first start opening ∧
      Tail rest others := by
  fun_induction segments first text generalizing steps with
  | case2 first text opening segment =>
    cases read
    obtain ⟨_, start, shape, opens⟩ := segment_sound segment
    exact ⟨start, [], opening, [], shape, by simp, opens, .none⟩
  | case4 first text opening rest point segment more others ih =>
    cases read
    obtain ⟨_, start, shape, opens⟩ := segment_sound segment
    obtain ⟨name, tail, named, last, rfl, rfl, follows, ends⟩ := ih others
    exact ⟨start, '.' :: name ++ tail, opening, named ++ last, by simpa using shape, rfl, opens,
      .more follows ends⟩
  | case1 | case3 | case5 | case6 => simp at read

/-- The reader accepts the paths of the grammar, with the steps that they denote, and no others. -/
theorem parse_ok_iff {path : String} {steps : List Step} :
    parse path = .ok steps ↔ Denotes path.toList steps := by
  constructor
  · intro read
    unfold parse at read
    split at read
    · simp at read
    · obtain ⟨start, rest, opening, others, shape, rfl, opens, tail⟩ := segments_sound read
      rw [shape]
      exact .intro opens tail
  · intro denotes
    generalize shape : path.toList = whole at denotes
    cases denotes with
    | @intro text rest opening others head tail =>
      have read : segments true (text ++ rest) = .ok (opening ++ others) := segments_complete tail head
      unfold parse
      split
      · rename_i empty
        have absent := List.append_eq_nil_iff.1 (shape.symm.trans empty)
        exact absurd absent.1 head.nonempty
      · rw [shape, read]

theorem steps_ok_iff {path : String} {steps : List Step} :
    Memory.steps path = .ok steps ↔ Denotes path.toList steps := by
  rw [← parse_ok_iff, Memory.steps]
  cases parse path <;> simp

theorem Named.steps_nonempty {text : List Char} {steps : List Step} (named : Named text steps) :
    steps ≠ [] := by
  cases named with
  | intro => simp

theorem Head.steps_nonempty {text : List Char} {steps : List Step} (head : Head text steps) :
    steps ≠ [] := by
  cases head with
  | named named => exact named.steps_nonempty
  | bare _ nonempty => exact nonempty

theorem Denotes.steps_nonempty {text : List Char} {steps : List Step} (denotes : Denotes text steps) :
    steps ≠ [] := by
  cases denotes with
  | intro head _ => simp [head.steps_nonempty]

theorem Denotes.single {text : List Char} {step : Step} (denotes : Denotes text [step]) :
    Head text [step] := by
  generalize alone : [step] = steps at denotes
  cases denotes with
  | @intro start rest opening others head tail =>
    cases tail with
    | none => simpa using head
    | more named _ =>
      have first := List.length_pos_iff.2 head.steps_nonempty
      have second := List.length_pos_iff.2 named.steps_nonempty
      have count := congrArg List.length alone
      simp only [List.length_append, List.length_singleton] at count
      omega

end Formula.Path

import Formula.Proofs.PathGrammar

/-! Reading a path by positions, in loops over a row of characters. Every access asks whether the
position is inside the row; the loops come to the same end as the reader of the remaining text, and
never ask in vain. The result of a loop is none once a position is out of bounds. -/
namespace Formula.Path

section Loops

variable (chars : List Char)

def skip (p : Char → Bool) (i : Nat) : Option Nat :=
  if i < chars.length then
    match chars[i]? with
    | none => none
    | some c => if p c then skip p (i + 1) else some i
  else some i
termination_by chars.length - i

def slice (start stop : Nat) : Option (List Char) :=
  if start ≤ stop ∧ stop ≤ chars.length then some ((chars.take stop).drop start) else none

def scanName (i : Nat) : Option (Except PathFault Nat) :=
  if i < chars.length then
    match chars[i]? with
    | none => none
    | some c =>
      if c = '.' ∨ c = '[' then some (.ok i)
      else if c = ']' then some (.error .strayBracket)
      else scanName (i + 1)
  else some (.ok i)
termination_by chars.length - i

def scanKey (quote : Char) (start : Nat) : Option (Except PathFault (Step × Nat)) := do
  let stop ← skip chars (· != quote) start
  if stop = chars.length then return .error .unterminatedKey
  else return .ok (.key (String.ofList (← slice chars start stop)), stop + 1)

def scanIndex (start : Nat) : Option (Except PathFault (Step × Nat)) := do
  let stop ← skip chars Char.isDigit start
  if stop = start then return .error .badIndex
  else
    let position := Decimal.ofDigits (← slice chars start stop)
    return if position < indexLimit then .ok (.index position, stop) else .error .hugeIndex

def scanSelector (start : Nat) : Option (Except PathFault (Step × Nat)) :=
  match chars[start]? with
  | none => scanIndex chars start
  | some c => if isQuote c then scanKey chars c (start + 1) else scanIndex chars start

theorem le_skip {p : Char → Bool} {i j : Nat} (skipped : skip chars p i = some j) : i ≤ j := by
  fun_induction skip chars p i with
  | case1 => simp at skipped
  | case2 i inside c access passes ih => exact Nat.le_of_succ_le (ih skipped)
  | case3 | case4 => exact Nat.le_of_eq (Option.some.inj skipped)

theorem le_scanName {i j : Nat} (scanned : scanName chars i = some (.ok j)) : i ≤ j := by
  fun_induction scanName chars i with
  | case1 | case3 => simp at scanned
  | case2 | case5 => simp at scanned; omega
  | case4 i inside c access stop stray ih => exact Nat.le_of_succ_le (ih scanned)

theorem le_scanKey {quote : Char} {start j : Nat} {step : Step}
    (scanned : scanKey chars quote start = some (.ok (step, j))) : start ≤ j := by
  simp only [scanKey, Option.bind_eq_bind, Option.bind_eq_some_iff] at scanned
  obtain ⟨stop, skipped, found⟩ := scanned
  have := le_skip chars skipped
  split at found
  · simp at found
  · obtain ⟨key, _, found⟩ := Option.bind_eq_some_iff.1 found
    simp at found
    omega

theorem le_scanIndex {start j : Nat} {step : Step}
    (scanned : scanIndex chars start = some (.ok (step, j))) : start ≤ j := by
  simp only [scanIndex, Option.bind_eq_bind, Option.bind_eq_some_iff] at scanned
  obtain ⟨stop, skipped, found⟩ := scanned
  have := le_skip chars skipped
  split at found
  · simp at found
  · obtain ⟨digits, _, found⟩ := Option.bind_eq_some_iff.1 found
    split at found <;> simp at found
    omega

theorem le_scanSelector {start j : Nat} {step : Step}
    (scanned : scanSelector chars start = some (.ok (step, j))) : start ≤ j := by
  simp only [scanSelector] at scanned
  split at scanned
  · exact le_scanIndex chars scanned
  · split at scanned
    · exact Nat.le_of_succ_le (le_scanKey chars scanned)
    · exact le_scanIndex chars scanned

/-- Reads selectors as long as there is an opening bracket; `seen` holds the steps so far. -/
def scanSelectors (i : Nat) (seen : List Step) : Option (Except PathFault (List Step × Nat)) :=
  if _bracket : chars[i]? = some '[' then
    match _scanned : scanSelector chars (i + 1) with
    | none => none
    | some (.error fault) => some (.error fault)
    | some (.ok (step, j)) =>
      if chars[j]? = some ']' then scanSelectors (j + 1) (seen ++ [step])
      else some (.error .missingBracket)
  else some (.ok (seen, i))
termination_by chars.length - i
decreasing_by
  have := le_scanSelector chars _scanned
  have := (List.getElem?_eq_some_iff.1 _bracket).1
  omega

/-- Without a name only the start of the path goes on, and only with a selector. -/
def scanSegment (start : Nat) (seen : List Step) : Option (Except PathFault (List Step × Nat)) :=
  match scanName chars start with
  | none => none
  | some (.error fault) => some (.error fault)
  | some (.ok i) =>
    if start < i then do scanSelectors chars i (seen ++ [.key (String.ofList (← slice chars start i))])
    else if start = 0 ∧ chars[i]? = some '[' then scanSelectors chars i seen
    else some (.error .emptySegment)

theorem le_scanSelectors {i j : Nat} {seen steps : List Step}
    (scanned : scanSelectors chars i seen = some (.ok (steps, j))) : i ≤ j := by
  fun_induction scanSelectors chars i seen with
  | case1 | case2 | case4 => simp at scanned
  | case3 i seen bracket step j' selector closing ih =>
    have := le_scanSelector chars selector
    have := ih scanned
    omega
  | case5 => simp at scanned; omega

theorem le_scanSegment {start j : Nat} {seen steps : List Step}
    (scanned : scanSegment chars start seen = some (.ok (steps, j))) : start ≤ j := by
  simp only [scanSegment] at scanned
  split at scanned
  · simp at scanned
  · simp at scanned
  · rename_i i name
    have := le_scanName chars name
    split at scanned
    · obtain ⟨text, _, scanned⟩ := Option.bind_eq_some_iff.1 scanned
      exact Nat.le_trans this (le_scanSelectors chars scanned)
    · split at scanned
      · exact Nat.le_trans this (le_scanSelectors chars scanned)
      · simp at scanned

def scanSegments (start : Nat) (seen : List Step) : Option (Except PathFault (List Step)) :=
  match _scanned : scanSegment chars start seen with
  | none => none
  | some (.error fault) => some (.error fault)
  | some (.ok (steps, j)) =>
    match _access : chars[j]? with
    | none => some (.ok steps)
    | some c =>
      if c = '.' then
        if j + 1 = chars.length then some (.error .emptySegment) else scanSegments (j + 1) steps
      else some (.error .afterBracket)
termination_by chars.length - start
decreasing_by
  have := le_scanSegment chars _scanned
  have := (List.getElem?_eq_some_iff.1 _access).1
  omega

end Loops

def scan (path : String) : Option (Except PathFault (List Step)) :=
  if path.toList.length = 0 then some (.error .empty) else scanSegments path.toList 0 []

/-- From position `i` on, `text` is left of the row. -/
def Remains (chars : List Char) (i : Nat) (text : List Char) : Prop :=
  ∃ before, chars = before ++ text ∧ i = before.length

namespace Remains

variable {chars text first rest : List Char} {i : Nat}

theorem start (chars : List Char) : Remains chars 0 chars := ⟨[], rfl, rfl⟩

theorem length (remains : Remains chars i text) : chars.length = i + text.length := by
  obtain ⟨before, rfl, rfl⟩ := remains
  simp

theorem access (remains : Remains chars i text) : chars[i]? = text.head? := by
  obtain ⟨before, rfl, rfl⟩ := remains
  simp [List.head?_eq_getElem?, List.getElem?_append_right]

theorem advance (remains : Remains chars i (first ++ rest)) :
    Remains chars (i + first.length) rest := by
  obtain ⟨before, rfl, rfl⟩ := remains
  exact ⟨before ++ first, by simp, by simp⟩

theorem next {c : Char} (remains : Remains chars i (c :: rest)) : Remains chars (i + 1) rest :=
  advance (show Remains chars i ([c] ++ rest) from remains)

theorem slice (remains : Remains chars i (first ++ rest)) :
    Path.slice chars i (i + first.length) = some first := by
  obtain ⟨before, rfl, rfl⟩ := remains
  simp [Path.slice, List.take_append]

/-- The loop is the longest prefix that passes. -/
theorem skip (p : Char → Bool) (remains : Remains chars i text) :
    Path.skip chars p i = some (i + (text.takeWhile p).length) := by
  induction text generalizing i with
  | nil =>
    have := remains.length
    rw [Path.skip, if_neg (by simp at this; omega)]
    simp
  | cons c rest ih =>
    have := remains.length
    rw [Path.skip, if_pos (by simp at this; omega), remains.access]
    by_cases passes : p c = true
    · simp [passes, ih remains.next]
      omega
    · simp [passes]

end Remains

/-- The loops and the reader fail alike, or have one result with the same text left. -/
def Follows {α : Type} (chars : List Char) (scanned : Option (Except PathFault (α × Nat))) :
    Except PathFault (α × List Char) → Prop
  | .error fault => scanned = some (.error fault)
  | .ok (a, rest) => ∃ j, scanned = some (.ok (a, j)) ∧ Remains chars j rest

namespace Follows

variable {α : Type} {chars rest : List Char} {scanned : Option (Except PathFault (α × Nat))}
  {read : Except PathFault (α × List Char)}

theorem ok {a : α} (follows : Follows chars scanned read) (result : read = .ok (a, rest)) :
    ∃ j, scanned = some (.ok (a, j)) ∧ Remains chars j rest := by
  rw [result] at follows
  exact follows

theorem error {fault : PathFault} (follows : Follows chars scanned read)
    (failed : read = .error fault) : scanned = some (.error fault) := by
  rw [failed] at follows
  exact follows

end Follows

variable {chars text : List Char} {i : Nat}

theorem scanName_eq (remains : Remains chars i text) :
    scanName chars i =
      match text.dropWhile isPlain with
      | ']' :: _ => some (.error .strayBracket)
      | _ => some (.ok (i + (text.takeWhile isPlain).length)) := by
  induction text generalizing i with
  | nil =>
    have := remains.length
    rw [scanName, if_neg (by simp at this; omega)]
    simp
  | cons c rest ih =>
    have := remains.length
    rw [scanName, if_pos (by simp at this; omega), remains.access]
    by_cases plain : isPlain c = true
    · have other : ¬ (c = '.' ∨ c = '[') ∧ c ≠ ']' := by
        simpa [isPlain, and_assoc] using plain
      simp only [List.head?_cons, other.1, other.2, if_false, ih remains.next,
        List.dropWhile_cons_of_pos plain, List.takeWhile_cons_of_pos plain, List.length_cons]
      split
      · rfl
      · rw [Nat.add_assoc, Nat.add_comm 1]
    · have stop : c = '.' ∨ c = '[' ∨ c = ']' := by
        by_contra none
        simp [isPlain] at plain none
        exact none.2.2 (plain none.1 none.2.1)
      rcases stop with rfl | rfl | rfl <;> simp [isPlain]

theorem scanIndex_follows {c : Char} (noQuote : isQuote c = false)
    (remains : Remains chars i (c :: text)) :
    Follows chars (scanIndex chars i) (selector (c :: text)) := by
  have skipped := remains.skip Char.isDigit
  have whole := List.takeWhile_append_dropWhile (p := Char.isDigit) (l := c :: text)
  simp only [selector, noQuote, scanIndex, skipped, Option.bind_eq_bind, Option.bind_some]
  generalize (c :: text).takeWhile Char.isDigit = digits at *
  generalize (c :: text).dropWhile Char.isDigit = left at *
  rw [← whole] at remains
  cases digits with
  | nil => simp [Follows]
  | cons d more =>
    rw [if_neg (by simp), remains.slice]
    simp only [Option.bind_some, List.isEmpty_cons]
    by_cases word : Decimal.ofDigits (d :: more) < indexLimit
    · simpa [word, Follows] using remains.advance
    · simp [word, Follows]

theorem scanKey_follows {c : Char} (quote : isQuote c = true)
    (remains : Remains chars i (c :: text)) :
    Follows chars (scanKey chars c (i + 1)) (selector (c :: text)) := by
  have inside := remains.next
  have skipped := inside.skip (· != c)
  have whole := List.takeWhile_append_dropWhile (p := (· != c)) (l := text)
  have size := inside.length
  simp only [selector, quote, scanKey, skipped, Option.bind_eq_bind, Option.bind_some, if_true]
  generalize text.takeWhile (· != c) = key at *
  generalize text.dropWhile (· != c) = left at *
  subst whole
  cases left with
  | nil => simp [Follows, size]
  | cons q rest =>
    rw [if_neg (by simp [size]), inside.slice]
    exact ⟨_, rfl, inside.advance.next⟩

theorem scanSelector_follows (remains : Remains chars i text) :
    Follows chars (scanSelector chars i) (selector text) := by
  rw [scanSelector, remains.access]
  cases text with
  | nil =>
    have skipped := remains.skip Char.isDigit
    simp [scanIndex, skipped, selector, Follows]
  | cons c rest =>
    cases quote : isQuote c with
    | true => simpa [quote] using scanKey_follows quote remains
    | false => simpa [quote] using scanIndex_follows quote remains

theorem scanSelectors_stop (stop : chars[i]? ≠ some '[') (seen : List Step) :
    scanSelectors chars i seen = some (.ok (seen, i)) := by
  rw [scanSelectors, dif_neg stop]

theorem scanSelectors_more (bracket : chars[i]? = some '[') (seen : List Step) :
    scanSelectors chars i seen =
      match scanSelector chars (i + 1) with
      | none => none
      | some (.error fault) => some (.error fault)
      | some (.ok (step, j)) =>
        if chars[j]? = some ']' then scanSelectors chars (j + 1) (seen ++ [step])
        else some (.error .missingBracket) := by
  rw [scanSelectors, dif_pos bracket]
  split <;> rename_i scanned <;> simp only [scanned]

theorem scanSelectors_follows (remains : Remains chars i text) (seen : List Step) :
    Follows chars (scanSelectors chars i seen)
      ((selectors text).map fun read => (seen ++ read.1, read.2)) := by
  fun_induction selectors text generalizing i seen with
  | case1 inner fault failed =>
    have scanned := (scanSelector_follows remains.next).error failed
    simp [scanSelectors_more remains.access, scanned, Except.map, Follows]
  | case2 inner step rest first steps rest' others ih =>
    obtain ⟨j, scanned, after⟩ := (scanSelector_follows remains.next).ok first
    have more := ih after.next (seen ++ [step])
    rw [scanSelectors_more remains.access, scanned]
    simpa [after.access, others, Except.map] using more
  | case3 inner step rest first fault failed ih =>
    obtain ⟨j, scanned, after⟩ := (scanSelector_follows remains.next).ok first
    have more := ih after.next (seen ++ [step])
    rw [scanSelectors_more remains.access, scanned]
    simpa [after.access, failed, Except.map] using more
  | case4 inner read unclosed first =>
    obtain ⟨step, rest⟩ := read
    obtain ⟨j, scanned, after⟩ := (scanSelector_follows remains.next).ok first
    have missing : chars[j]? ≠ some ']' := by
      rw [after.access]
      intro bracket
      obtain ⟨more, shape⟩ := List.head?_eq_some_iff.1 bracket
      exact unclosed step more (by rw [shape])
    simp [scanSelectors_more remains.access, scanned, missing, Except.map, Follows]
  | case5 text other =>
    have stop : chars[i]? ≠ some '[' := by
      rw [remains.access]
      intro bracket
      obtain ⟨inner, shape⟩ := List.head?_eq_some_iff.1 bracket
      exact other inner shape
    rw [scanSelectors_stop stop]
    exact ⟨i, by simp, remains⟩

theorem segment_stray {first : Bool} {rest : List Char} (stray : text.dropWhile isPlain = ']' :: rest) :
    segment first text = .error .strayBracket := by
  simp [segment, stray]

theorem segment_eq {first : Bool} (noStray : ∀ rest, text.dropWhile isPlain ≠ ']' :: rest) :
    segment first text =
      if text.takeWhile isPlain ≠ [] then
        (selectors (text.dropWhile isPlain)).map fun read =>
          (.key (String.ofList (text.takeWhile isPlain)) :: read.1, read.2)
      else if first = true ∧ (text.dropWhile isPlain).head? = some '[' then
        selectors (text.dropWhile isPlain)
      else .error .emptySegment := by
  simp only [segment]
  generalize text.takeWhile isPlain = name
  generalize text.dropWhile isPlain = rest at noStray ⊢
  match rest with
  | ']' :: more => exact absurd rfl (noStray more)
  | [] => cases name <;> cases selectors [] <;> simp [Except.map]
  | c :: more => cases name <;> cases selectors (c :: more) <;> simp [Except.map]

theorem scanSegment_follows (remains : Remains chars i text) (seen : List Step) :
    Follows chars (scanSegment chars i seen)
      ((segment (i == 0) text).map fun read => (seen ++ read.1, read.2)) := by
  have scanned := scanName_eq remains
  have whole := List.takeWhile_append_dropWhile (p := isPlain) (l := text)
  split at scanned
  · rename_i rest stray
    simp [scanSegment, scanned, segment_stray stray, Follows, Except.map]
  · rename_i noStray
    simp only [scanSegment, scanned, segment_eq noStray]
    generalize text.takeWhile isPlain = name at *
    generalize text.dropWhile isPlain = rest at *
    subst whole
    have after := remains.advance
    by_cases empty : name = []
    · rw [empty, List.length_nil, Nat.add_zero] at after
      simp only [empty, List.length_nil, Nat.add_zero, Nat.lt_irrefl, if_false, ne_eq,
        not_true_eq_false, after.access, beq_iff_eq]
      split
      · exact scanSelectors_follows after seen
      · rfl
    · have more := scanSelectors_follows after (seen ++ [.key (String.ofList name)])
      have positive : 0 < name.length := List.length_pos_iff.2 empty
      cases read : selectors rest with
      | error fault => simpa [empty, remains.slice, positive, read, Except.map] using more
      | ok read' => simpa [empty, remains.slice, positive, read, Except.map] using more

theorem scanSegments_more {steps : List Step} {seen : List Step} {j : Nat}
    (scanned : scanSegment chars i seen = some (.ok (steps, j))) :
    scanSegments chars i seen =
      match chars[j]? with
      | none => some (.ok steps)
      | some c =>
        if c = '.' then
          if j + 1 = chars.length then some (.error .emptySegment)
          else scanSegments chars (j + 1) steps
        else some (.error .afterBracket) := by
  rw [scanSegments.eq_def]
  split
  · rename_i missing
    simp [scanned] at missing
  · rename_i fault failed
    simp [scanned] at failed
  · rename_i steps' j' same
    obtain ⟨rfl, rfl⟩ : steps = steps' ∧ j = j' := by simpa [scanned] using same
    split <;> rename_i access <;> simp only [access]

theorem scanSegments_error {seen : List Step} {fault : PathFault}
    (failed : scanSegment chars i seen = some (.error fault)) :
    scanSegments chars i seen = some (.error fault) := by
  rw [scanSegments.eq_def]
  split <;> simp_all

theorem scanSegment_ok {rest : List Char} {steps : List Step} (remains : Remains chars i text)
    (read : segment (i == 0) text = .ok (steps, rest)) (seen : List Step) :
    ∃ j, scanSegment chars i seen = some (.ok (seen ++ steps, j)) ∧ Remains chars j rest :=
  (scanSegment_follows remains seen).ok (by rw [read]; rfl)

theorem scanSegments_eq {first : Bool} (remains : Remains chars i text) (seen : List Step)
    (start : first = (i == 0)) :
    scanSegments chars i seen = some ((segments first text).map (seen ++ ·)) := by
  fun_induction segments first text generalizing i seen with
  | case1 first text fault failed =>
    have scanned := (scanSegment_follows remains seen).error (by rw [← start, failed]; rfl)
    rw [scanSegments_error scanned]
    rfl
  | case2 first text steps read =>
    obtain ⟨j, scanned, after⟩ := scanSegment_ok remains (start ▸ read) seen
    rw [scanSegments_more scanned, after.access]
    rfl
  | case3 first text steps read =>
    obtain ⟨j, scanned, after⟩ := scanSegment_ok remains (start ▸ read) seen
    rw [scanSegments_more scanned, after.access]
    simp [after.length, Except.map]
  | case4 first text steps rest nonempty read more others ih =>
    obtain ⟨j, scanned, after⟩ := scanSegment_ok remains (start ▸ read) seen
    have deeper := ih after.next (seen ++ steps) rfl
    have long : rest ≠ [] := nonempty
    rw [scanSegments_more scanned, after.access]
    simpa [after.length, others, Except.map, long] using deeper
  | case5 first text steps rest nonempty read fault failed ih =>
    obtain ⟨j, scanned, after⟩ := scanSegment_ok remains (start ▸ read) seen
    have deeper := ih after.next (seen ++ steps) rfl
    have long : rest ≠ [] := nonempty
    rw [scanSegments_more scanned, after.access]
    simpa [after.length, failed, Except.map, long] using deeper
  | case6 first text read notEnd notLast noPoint segment =>
    obtain ⟨steps, rest⟩ := read
    obtain ⟨j, scanned, after⟩ := scanSegment_ok remains (start ▸ segment) seen
    rw [scanSegments_more scanned, after.access]
    cases rest with
    | nil => exact (notEnd steps rfl).elim
    | cons c more =>
      have other : c ≠ '.' := by
        rintro rfl
        exact noPoint steps more rfl
      simp [other, Except.map]

/-- No access is out of bounds, and the loops give what the reader gives. -/
theorem scan_eq (path : String) : scan path = some (parse path) := by
  have read : scanSegments path.toList 0 [] = some ((segments true path.toList).map ([] ++ ·)) :=
    scanSegments_eq (.start _) [] rfl
  unfold scan parse
  generalize path.toList = chars at read ⊢
  cases chars with
  | nil => rfl
  | cons c rest =>
    rw [if_neg (by simp), read]
    change _ = some (segments true (c :: rest))
    cases segments true (c :: rest) <;> rfl

/-- Reading a path decides the grammar and computes the meaning; what is no path is refused with its
text; and the loops over positions give the same without an access out of bounds. -/
theorem steps_grammar (path : String) :
    (∀ steps, Memory.steps path = .ok steps ↔ Denotes path.toList steps) ∧
    ((∀ steps, ¬ Denotes path.toList steps) →
      ∃ fault, Memory.steps path = .error (.invalidPath path fault)) ∧
    scan path = some (parse path) := by
  refine ⟨fun steps => steps_ok_iff, ?_, scan_eq path⟩
  intro noPath
  cases read : parse path with
  | ok steps => exact absurd (parse_ok_iff.1 read) (noPath steps)
  | error fault => exact ⟨fault, by simp [Memory.steps, read]⟩

/-- Zeros may lead and a quoted key may hold a point; between two points there is a name. -/
theorem steps_grammar_points :
    Denotes "x[007]['a.b']".toList [.key "x", .index 7, .key "a.b"] ∧
    (∀ steps, ¬ Denotes "a..b".toList steps) ∧
    ∃ fault, Memory.steps "a..b" = .error (.invalidPath "a..b" fault) := by
  have accepted : Memory.steps "x[007]['a.b']" = .ok [.key "x", .index 7, .key "a.b"] := by
    decide +kernel
  have refused : (Memory.steps "a..b").toOption = none := by decide +kernel
  have noPath : ∀ steps, ¬ Denotes "a..b".toList steps := by
    intro steps denotes
    have read := ((steps_grammar "a..b").1 steps).2 denotes
    simp [read, Except.toOption] at refused
  exact ⟨((steps_grammar _).1 _).1 accepted, noPath, (steps_grammar "a..b").2.1 noPath⟩

end Formula.Path

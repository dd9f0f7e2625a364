import Formula.Decimal.Basic

/-! Paths such as `user.tags[0]['odd key']`: names divided by points, each followed by any
number of bracketed selectors. The first name may be missing when a selector takes its place. -/
namespace Formula

inductive Step
  | key (name : String)
  | index (position : Nat)
  deriving DecidableEq, Repr

inductive PathFault
  | empty
  | strayBracket
  | emptySegment
  | unterminatedKey
  | badIndex
  | hugeIndex
  | missingBracket
  | afterBracket
  | refused (reason : String)
  deriving DecidableEq, Repr

def PathFault.reason : PathFault → String
  | .empty => "path is empty"
  | .strayBracket => "']' without a matching '['"
  | .emptySegment => "empty segment"
  | .unterminatedKey => "unterminated quoted key"
  | .badIndex => "index must be a non-negative integer"
  | .hugeIndex => "index is too large"
  | .missingBracket => "missing ']'"
  | .afterBracket => "unexpected character after ']'"
  | .refused reason => reason

namespace Path

def isPlain (c : Char) : Bool := c != '.' && c != '[' && c != ']'

def isQuote (c : Char) : Bool := c == '\'' || c == '"'

/-- Indexes are 64-bit words. -/
def indexLimit : Nat := Nat.pow 2 64

/-- What stands between the brackets of a selector, and the text from the closing bracket on. -/
def selector : List Char → Except PathFault (Step × List Char)
  | [] => .error .badIndex
  | c :: rest =>
    if isQuote c then
      match rest.dropWhile (· != c) with
      | [] => .error .unterminatedKey
      | _ :: rest' => .ok (.key (String.ofList (rest.takeWhile (· != c))), rest')
    else
      let digits := (c :: rest).takeWhile Char.isDigit
      if digits.isEmpty then .error .badIndex
      else if Decimal.ofDigits digits < indexLimit then
        .ok (.index (Decimal.ofDigits digits), (c :: rest).dropWhile Char.isDigit)
      else .error .hugeIndex

theorem length_selector {text rest : List Char} {step : Step}
    (read : selector text = .ok (step, rest)) : rest.length ≤ text.length := by
  cases text with
  | nil => simp [selector] at read
  | cons c tail =>
    simp only [selector] at read
    split at read
    · have shorter := (List.dropWhile_suffix (l := tail) (· != c)).length_le
      split at read
      · simp at read
      · rename_i q more dropped
        cases read
        rw [dropped] at shorter
        simp at shorter ⊢
        omega
    · split at read
      · simp at read
      · split at read
        · cases read
          exact (List.dropWhile_suffix _).length_le
        · simp at read

def selectors (text : List Char) : Except PathFault (List Step × List Char) :=
  match text with
  | '[' :: inner =>
    match _read : selector inner with
    | .error fault => .error fault
    | .ok (step, ']' :: rest) =>
      match selectors rest with
      | .ok (steps, rest) => .ok (step :: steps, rest)
      | .error fault => .error fault
    | .ok _ => .error .missingBracket
  | _ => .ok ([], text)
termination_by text.length
decreasing_by
  have := length_selector _read
  simp at this ⊢
  omega

theorem length_selectors {text rest : List Char} {steps : List Step}
    (read : selectors text = .ok (steps, rest)) : rest.length ≤ text.length := by
  fun_induction selectors text generalizing steps rest with
  | case1 => simp at read
  | case2 inner step more read' steps' rest' ok ih =>
    cases read
    have := ih ok
    have := length_selector read'
    simp at this ⊢
    omega
  | case3 => simp_all
  | case4 => simp at read
  | case5 => cases read; exact Nat.le_refl _

/-- A name and its selectors; only at the start of a path may the name be missing. -/
def segment (first : Bool) (text : List Char) : Except PathFault (List Step × List Char) :=
  let name := text.takeWhile isPlain
  match text.dropWhile isPlain with
  | ']' :: _ => .error .strayBracket
  | rest =>
    if !name.isEmpty then
      match selectors rest with
      | .ok (steps, rest) => .ok (.key (String.ofList name) :: steps, rest)
      | .error fault => .error fault
    else if first && rest.head? == some '[' then selectors rest
    else .error .emptySegment

theorem length_segment {first : Bool} {text rest : List Char} {steps : List Step}
    (read : segment first text = .ok (steps, rest)) : rest.length ≤ text.length := by
  have shorter := (List.dropWhile_suffix (l := text) isPlain).length_le
  simp only [segment] at read
  split at read
  · simp at read
  · split at read
    · split at read
      · rename_i more ok
        cases read
        exact Nat.le_trans (length_selectors ok) shorter
      · simp at read
    · split at read
      · exact Nat.le_trans (length_selectors read) shorter
      · simp at read

/-- The steps of a path from the start of a segment on. -/
def segments (first : Bool) (text : List Char) : Except PathFault (List Step) :=
  match _read : segment first text with
  | .error fault => .error fault
  | .ok (steps, []) => .ok steps
  | .ok (_, '.' :: []) => .error .emptySegment
  | .ok (steps, '.' :: rest) =>
    match segments false rest with
    | .ok more => .ok (steps ++ more)
    | .error fault => .error fault
  | .ok _ => .error .afterBracket
termination_by text.length
decreasing_by
  have := length_segment _read
  simp at this ⊢
  omega

def parse (path : String) : Except PathFault (List Step) :=
  match path.toList with
  | [] => .error .empty
  | text => segments true text

end Path

end Formula

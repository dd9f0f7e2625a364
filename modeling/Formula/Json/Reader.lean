import Formula.Json.Basic
import Formula.Decimal.Numeral

/-! Reading JSON text. White space is blank, tab, line feed and carriage return; a number
too large for a double, a lone surrogate, a control character inside a string and anything
after the document are refused, and so is nesting beyond a given room. Each reader returns
what it read together with the rest of the text. -/
namespace Formula.Json

def isSpace (c : Char) : Bool := c == ' ' || c == '\t' || c == '\n' || c == '\r'

def skipSpace (text : List Char) : List Char := text.dropWhile isSpace

def after? : List Char → List Char → Option (List Char)
  | [], text => some text
  | c :: opening, d :: text => if c = d then after? opening text else none
  | _ :: _, [] => none

def digits? (text : List Char) : Option (List Char × List Char) :=
  match Numeral.spanDigits text with
  | ([], _) => none
  | span => some span

/-- Zero stands alone; no other number starts with it. -/
def whole? (text : List Char) : Option (List Char × List Char) :=
  match text with
  | '0' :: c :: rest => if c.isDigit then none else some (['0'], c :: rest)
  | text => digits? text

/-- A point, if there is one, has digits after it. -/
def fraction? : List Char → Option (Option (List Char) × List Char)
  | '.' :: text => (digits? text).map fun (fraction, rest) => (some fraction, rest)
  | text => some (none, text)

def exponent? : List Char → Option (Option Int × List Char)
  | mark :: text =>
    if mark = 'e' ∨ mark = 'E' then
      let (negative, text) := Numeral.sign text
      (digits? text).map fun (digits, rest) =>
        let size : Int := Decimal.ofDigits digits
        (some (if negative then -size else size), rest)
    else some (none, mark :: text)
  | [] => some (none, [])

def finite? (negative : Bool) (d : Decimal) : Option Json :=
  let magnitude := d.toFloat
  if magnitude.isFinite then some (.float (if negative then -magnitude else magnitude)) else none

/-- Only digits make a whole number. Minus zero has no exact form and is a double. -/
def wholeNumber? (negative : Bool) (digits : List Char) : Option Json :=
  let size := Decimal.ofDigits digits
  let n : Int := if negative then -size else size
  if Exact n ∧ ¬(negative = true ∧ size = 0) then some (.int n) else finite? negative ⟨size, 0⟩

def number? (text : List Char) : Option (Json × List Char) := do
  let (negative, text) := match text with
    | '-' :: rest => (true, rest)
    | text => (false, text)
  let (whole, text) ← whole? text
  let (fraction, text) ← fraction? text
  let (exponent, text) ← exponent? text
  match fraction, exponent with
  | none, none => return (← wholeNumber? negative whole, text)
  | fraction, exponent =>
    let places := fraction.getD []
    let d : Decimal := ⟨Decimal.ofDigits (whole ++ places), exponent.getD 0 - places.length⟩
    return (← finite? negative d, text)

def hexValue? (c : Char) : Option Nat :=
  if c.isDigit then some (c.toNat - '0'.toNat)
  else if 'a' ≤ c ∧ c ≤ 'f' then some (c.toNat - 'a'.toNat + 10)
  else if 'A' ≤ c ∧ c ≤ 'F' then some (c.toNat - 'A'.toNat + 10)
  else none

def unit? : List Char → Option (Nat × List Char)
  | a :: b :: c :: d :: rest => do
    let unit := 16 * (16 * (16 * (← hexValue? a) + (← hexValue? b)) + (← hexValue? c)) + (← hexValue? d)
    return (unit, rest)
  | _ => none

/-- The character after `\u`: one unit, or a high surrogate and the low one that follows. -/
def unicode? (text : List Char) : Option (Char × List Char) := do
  let (unit, text) ← unit? text
  if 0xDC00 ≤ unit ∧ unit < 0xE000 then none
  else if 0xD800 ≤ unit ∧ unit < 0xDC00 then
    let text ← after? ['\\', 'u'] text
    let (low, text) ← unit? text
    if 0xDC00 ≤ low ∧ low < 0xE000 then
      return (Char.ofNat (0x10000 + 0x400 * (unit - 0xD800) + (low - 0xDC00)), text)
    else none
  else return (Char.ofNat unit, text)

def escape? : List Char → Option (Char × List Char)
  | '"' :: rest => some ('"', rest)
  | '\\' :: rest => some ('\\', rest)
  | '/' :: rest => some ('/', rest)
  | 'b' :: rest => some ('\x08', rest)
  | 'f' :: rest => some ('\x0c', rest)
  | 'n' :: rest => some ('\n', rest)
  | 'r' :: rest => some ('\r', rest)
  | 't' :: rest => some ('\t', rest)
  | 'u' :: rest => unicode? rest
  | _ => none

/-- A string after its opening quote; `seen` holds its characters so far, the last first. -/
def string? (seen : List Char) : Nat → List Char → Option (String × List Char)
  | 0, _ | _, [] => none
  | fuel + 1, c :: rest =>
    if c = '"' then some (String.ofList seen.reverse, rest)
    else if c = '\\' then
      match escape? rest with
      | some (c, rest) => string? (c :: seen) fuel rest
      | none => none
    else if c.toNat < 0x20 then none
    else string? (c :: seen) fuel rest

mutual

/-- The number `room` says how many more arrays and objects may be open at once. -/
def value? : Nat → Nat → List Char → Option (Json × List Char)
  | 0, _, _ => none
  | fuel + 1, room, text =>
    match skipSpace text with
    | 'n' :: rest => (after? ['u', 'l', 'l'] rest).map (.null, ·)
    | 't' :: rest => (after? ['r', 'u', 'e'] rest).map (.bool true, ·)
    | 'f' :: rest => (after? ['a', 'l', 's', 'e'] rest).map (.bool false, ·)
    | '"' :: rest => (string? [] fuel rest).map fun (s, rest) => (.str s, rest)
    | '[' :: rest =>
      match room, skipSpace rest with
      | 0, _ => none
      | _ + 1, ']' :: rest => some (.array [], rest)
      | room + 1, rest => items? fuel room [] rest
    | '\x7b' :: rest =>
      match room, skipSpace rest with
      | 0, _ => none
      | _ + 1, '\x7d' :: rest => some (.object [], rest)
      | room + 1, rest => members? fuel room [] rest
    | rest => number? rest

def items? : Nat → Nat → List Json → List Char → Option (Json × List Char)
  | 0, _, _, _ => none
  | fuel + 1, room, seen, text =>
    match value? fuel room text with
    | none => none
    | some (item, rest) =>
      match skipSpace rest with
      | ',' :: rest => items? fuel room (item :: seen) rest
      | ']' :: rest => some (.array (item :: seen).reverse, rest)
      | _ => none

def members? : Nat → Nat → List (String × Json) → List Char → Option (Json × List Char)
  | 0, _, _, _ => none
  | fuel + 1, room, seen, text =>
    match skipSpace text with
    | '"' :: rest =>
      match string? [] fuel rest with
      | none => none
      | some (name, rest) =>
        match skipSpace rest with
        | ':' :: rest =>
          match value? fuel room rest with
          | none => none
          | some (value, rest) =>
            let seen := Fields.insert name value seen
            match skipSpace rest with
            | ',' :: rest => members? fuel room seen rest
            | '\x7d' :: rest => some (.object seen, rest)
            | _ => none
        | _ => none
    | _ => none

end

/-- A whole document with at most `room` nested arrays and objects. Every step of the reading
takes a character or opens a level, so twice the length is fuel enough. -/
def read? (room : Nat) (text : String) : Option Json :=
  let chars := text.toList
  match value? (2 * chars.length + 2) room chars with
  | some (json, rest) => if (skipSpace rest).isEmpty then some json else none
  | none => none

end Formula.Json

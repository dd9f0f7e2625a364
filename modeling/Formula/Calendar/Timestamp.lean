import Formula.Calendar.Instant
import Formula.Decimal.Basic
import Formula.Text.Blank

/-! ISO 8601 timestamps. Read are an RFC 3339 date-time with an offset, a local date-time taken as
Universal Time, and a bare date; written is one form with milliseconds. -/
namespace Formula.Calendar

structure Clock where
  hour : Nat
  minute : Nat
  second : Nat
  nano : Nat
  deriving DecidableEq, Repr

namespace Timestamp

def number? (least most : Nat) (text : List Char) : Option (Nat × List Char) :=
  let digits := (text.take most).takeWhile Char.isDigit
  if digits.length < least then none
  else some (Decimal.ofDigits digits, text.drop digits.length)

def char? (c : Char) : List Char → Option (List Char)
  | d :: rest => if d = c then some rest else none
  | [] => none

/-- A point and at least one digit; what follows the ninth is dropped. -/
def fraction? : List Char → Option (Nat × List Char)
  | '.' :: text => do
    let digits := text.takeWhile Char.isDigit
    if digits.isEmpty then none
    else
      let kept := digits.take 9
      some (Decimal.ofDigits kept * Nat.pow 10 (9 - kept.length), text.drop digits.length)
  | text => some (0, text)

/-- Minutes ahead of Universal Time: `Z`, or a sign, two digits, a colon and two digits. -/
def offset? : List Char → Option (Int × List Char)
  | [] => none
  | mark :: text =>
    if mark = 'Z' ∨ mark = 'z' then some (0, text)
    else if mark = '+' ∨ mark = '-' ∨ mark = '−' then do
      let (hours, text) ← number? 2 2 text
      let text ← char? ':' text
      let (minutes, text) ← number? 2 2 text
      if 23 < hours ∨ 59 < minutes then none
      else
        let size : Int := 60 * hours + minutes
        some (if mark = '+' then size else -size, text)
    else none

def day? (d : Date) : Option Int :=
  if d.Valid ∧ -262143 ≤ d.year ∧ d.year ≤ 262142 then some d.number else none

/-- Second 60 is the leap second of its minute. -/
def instant? (day : Int) (c : Clock) : Option Instant :=
  if 23 < c.hour ∨ 59 < c.minute ∨ 60 < c.second then none
  else if c.second = 60 then
    Instant.ofParts? day (3600 * c.hour + 60 * c.minute + 59) (c.nano + 1000000000)
  else Instant.ofParts? day (3600 * c.hour + 60 * c.minute + c.second) c.nano

/-- Four digits for the year and two for every other field; a space may stand for the `T`. -/
def offsetDateTime? (text : List Char) : Option Instant := do
  let (year, text) ← number? 4 4 text
  let text ← char? '-' text
  let (month, text) ← number? 2 2 text
  let text ← char? '-' text
  let (day, text) ← number? 2 2 text
  let text ← match text with
    | mark :: text => if mark = 'T' ∨ mark = 't' ∨ mark = ' ' then some text else none
    | [] => none
  let (hour, text) ← number? 2 2 text
  let text ← char? ':' text
  let (minute, text) ← number? 2 2 text
  let text ← char? ':' text
  let (second, text) ← number? 2 2 text
  let (nano, text) ← fraction? text
  let (ahead, text) ← offset? text
  if !text.isEmpty then none
  else
    let day ← day? ⟨year, month, day⟩
    let clock ← instant? day ⟨hour, minute, second, nano⟩
    return clock.behind ahead

def field? (text : List Char) : Option (Nat × List Char) := number? 1 2 (Text.skipBlanks text)

/-- Up to four digits after any white space, or any number of them after a sign. -/
def year? (text : List Char) : Option (Int × List Char) :=
  match Text.skipBlanks text with
  | '-' :: text => (number? 1 text.length text).map fun (year, text) => (-(year : Int), text)
  | '+' :: text => (number? 1 text.length text).map fun (year, text) => ((year : Int), text)
  | text => (number? 1 4 text).map fun (year, text) => ((year : Int), text)

def date? (text : List Char) : Option (Date × List Char) := do
  let (year, text) ← year? text
  let text ← char? '-' text
  let (month, text) ← field? text
  let text ← char? '-' text
  let (day, text) ← field? text
  return (⟨year, month, day⟩, text)

def localDateTime? (text : List Char) : Option Instant := do
  let (date, text) ← date? text
  let text ← char? 'T' text
  let (hour, text) ← field? text
  let text ← char? ':' text
  let (minute, text) ← field? text
  let text ← char? ':' text
  let (second, text) ← field? text
  let (nano, text) ← fraction? text
  if !text.isEmpty then none
  else instant? (← day? date) ⟨hour, minute, second, nano⟩

/-- Midnight of a date. -/
def bareDate? (text : List Char) : Option Instant := do
  let (date, text) ← date? text
  if !text.isEmpty then none
  else Instant.ofParts? (← day? date) 0 0

/-- The first of the three forms that fits; white space around the text does not count. -/
def read? (text : String) : Option Instant :=
  let chars := Text.strip text.toList
  (offsetDateTime? chars).orElse fun _ => (localDateTime? chars).orElse fun _ => bareDate? chars

def padded (width n : Nat) : List Char :=
  let digits := Decimal.digits n
  List.replicate (width - digits.length) '0' ++ digits

/-- Four digits; outside 0 to 9999 also a sign. -/
def yearText (year : Int) : List Char :=
  if 0 ≤ year ∧ year ≤ 9999 then padded 4 year.toNat
  else (if year < 0 then '-' else '+') :: padded 4 year.natAbs

/-- Date and time with milliseconds, the rest of the second cut off. -/
def write (i : Instant) : String :=
  let date := i.date
  let second := i.second % 60 + i.nano / 1000000000
  String.ofList <|
    yearText date.year ++ '-' :: padded 2 date.month ++ '-' :: padded 2 date.day ++
    'T' :: padded 2 (i.second / 3600) ++ ':' :: padded 2 (i.second / 60 % 60) ++
    ':' :: padded 2 second ++ '.' :: padded 3 (i.nano % 1000000000 / 1000000) ++ ['Z']

end Timestamp

end Formula.Calendar

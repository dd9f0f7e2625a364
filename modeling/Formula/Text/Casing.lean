import Formula.Text.CaseTables

/-! Upper and lower case of whole texts by the full Unicode mappings. A capital sigma at the
end of a word becomes the final small sigma; every other mapping looks at one character. -/
namespace Formula.Text

def CaseRun.maps (run : CaseRun) (point : Nat) : Bool :=
  run.first ≤ point && point ≤ run.last && (point - run.first) % run.step == 0

def mapPoint (expansions : List (Nat × List Nat)) (runs : List CaseRun) (c : Char) : List Char :=
  match expansions.find? (·.1 == c.toNat) with
  | some (_, points) => points.map Char.ofNat
  | none =>
    match runs.find? (·.maps c.toNat) with
    | some run => [Char.ofNat (c.toNat + run.shift).toNat]
    | none => [c]

/-- ASCII letters take the short way; the tables say the same of them. -/
def upperOf (c : Char) : List Char :=
  if c.toNat < 0x80 then [c.toUpper] else mapPoint upperExpansions upperRuns c

def lowerOf (c : Char) : List Char :=
  if c.toNat < 0x80 then [c.toLower] else mapPoint lowerExpansions lowerRuns c

def within (ranges : List (Nat × Nat)) (c : Char) : Bool :=
  ranges.any fun range => range.1 ≤ c.toNat && c.toNat ≤ range.2

def meetsCased (text : List Char) : Bool :=
  match text.dropWhile (within ignorableRanges) with
  | [] => false
  | c :: _ => within casedRanges c

/-- A sigma is final when a cased letter stands before it and none after it, case-ignorable
characters aside. -/
def smallSigma (before after : List Char) : Char :=
  if meetsCased before && !meetsCased after then 'ς' else 'σ'

/-- The characters already passed are in `before`, the nearest first. -/
def lowerFrom (before : List Char) : List Char → List Char
  | [] => []
  | c :: rest =>
    (if c = 'Σ' then [smallSigma before rest] else lowerOf c) ++ lowerFrom (c :: before) rest

def toLower (text : String) : String := String.ofList (lowerFrom [] text.toList)

def toUpper (text : String) : String := String.ofList (text.toList.flatMap upperOf)

def equalsAsciiCaseless (left right : String) : Bool :=
  left.toList.map Char.toLower == right.toList.map Char.toLower

end Formula.Text

import Formula.Decimal.Layout
import Formula.Decimal.Numeral
import Formula.Text.Blank

/-! Numbers in the writing of a culture. A culture tag such as `de-DE` decides one thing: whether
a comma or a point stands before the fraction. Under a comma the point groups digits and is
skipped when reading. -/
namespace Formula.Culture

def commaLanguages : List String :=
  ["de", "fr", "es", "it", "pt", "nl", "ru", "pl", "sv", "da", "fi", "nb", "tr", "cs", "uk", "id"]

/-- The language subtag, before the first hyphen or underscore, in ASCII lower case. -/
def language (tag : String) : String :=
  String.ofList ((tag.toList.takeWhile fun c => c != '-' && c != '_').map Char.toLower)

def usesComma (tag : Option String) : Bool :=
  match tag with
  | some tag => commaLanguages.contains (language tag)
  | none => false

def decimalMark (tag : Option String) : Char := if usesComma tag then ',' else '.'

/-- The numeral with a decimal point, without group separators. -/
def normalize (tag : Option String) (text : List Char) : List Char :=
  if usesComma tag then (text.filter (· != '.')).map fun c => if c = ',' then '.' else c
  else text

/-- A number read from text: exact when it is a 64-bit integer, else a finite double. -/
inductive Reading
  | whole (n : Int64)
  | double (x : Float)

def read? (tag : Option String) (text : String) : Option Reading :=
  let numeral := normalize tag (Text.strip text.toList)
  match Numeral.integer? numeral with
  | some n => some (.whole n)
  | none => (Numeral.double? numeral).map .double

def write (tag : Option String) (x : Float) : String :=
  let text := Decimal.Layout.plain.write x
  String.ofList (if usesComma tag then text.map fun c => if c = '.' then ',' else c else text)

end Formula.Culture

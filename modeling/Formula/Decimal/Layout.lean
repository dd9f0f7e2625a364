import Formula.Binary64
import Formula.Decimal.Shortest

/-! How a double is written. The digits are the shortest; a layout decides which exponents are
written out in full, how the others look, and what stands for a double that is no number. -/
namespace Formula.Decimal

open Float.Model

/-- Exponents count from the leading digit: 10 to this power is its place. -/
structure Layout where
  tie : Tie
  /-- Leading places that are written without an exponent. -/
  positional : Int → Bool
  /-- Whether a whole number in positional form ends in `.0`. -/
  keepsPoint : Bool
  notANumber : String
  infinity : String

/-- Plain numbers: never an exponent, never a bare `.0`. -/
def Layout.plain : Layout := ⟨.up, fun _ => true, false, "NaN", "Infinity"⟩

def Layout.terse : Layout := { Layout.plain with infinity := "inf" }

/-- Numbers in JSON: a fraction or an exponent always shows that the number is a double. What
is no finite number has no JSON form and becomes `null`. -/
def Layout.json : Layout := ⟨.even, fun place => -5 ≤ place ∧ place ≤ 15, true, "null", "null"⟩

def place (d : Decimal) : Int := (digits d.coefficient).length - 1 + d.exponent

def positionalText (keepsPoint : Bool) (d : Decimal) : List Char :=
  let all := digits d.coefficient
  let whole := all.length + d.exponent
  if 0 ≤ d.exponent then
    all ++ List.replicate d.exponent.toNat '0' ++ (if keepsPoint then ['.', '0'] else [])
  else if 0 < whole then all.take whole.toNat ++ '.' :: all.drop whole.toNat
  else '0' :: '.' :: List.replicate (-whole).toNat '0' ++ all

/-- One digit before the point; the exponent always carries its sign. -/
def exponentText (d : Decimal) : List Char :=
  let mantissa := match digits d.coefficient with
    | first :: second :: rest => first :: '.' :: second :: rest
    | short => short
  mantissa ++ 'e' :: (if place d < 0 then '-' else '+') :: digits (place d).natAbs

def Layout.magnitude (layout : Layout) (d : Decimal) : List Char :=
  if layout.positional (place d) then positionalText layout.keepsPoint d else exponentText d

def signText : UnpackedFloat.Sign → List Char
  | .positive => []
  | .negative => ['-']

def Layout.write (layout : Layout) (x : Float) : List Char :=
  match Binary64.unpack x with
  | .notANumber => layout.notANumber.toList
  | .infinity .positive => layout.infinity.toList
  | .infinity .negative =>
    if layout.infinity = layout.notANumber then layout.infinity.toList
    else '-' :: layout.infinity.toList
  | .zero sign => signText sign ++ layout.magnitude ⟨0, 0⟩
  | .finite sign m q _ => signText sign ++ layout.magnitude (shortest layout.tie m q)

def Layout.render (layout : Layout) (x : Float) : String := String.ofList (layout.write x)

end Formula.Decimal

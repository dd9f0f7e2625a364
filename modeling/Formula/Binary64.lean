/-! Exact operations on IEEE 754 binary64 numbers: the whole number a double denotes, the
four roundings to a whole number, the remainder of truncated division, and the order. All
work on the parts of the double, a sign and m · 2^e. -/
namespace Formula.Binary64

open Float.Model

def unpack (x : Float) : UnpackedFloat := UnpackedFloat.unpack .binary64 x.toBits.toBitVec

/-- The double nearest to ± `significand` · 2^`exponent`, ties to even. -/
def nearest (sign : UnpackedFloat.Sign) (significand : Nat) (exponent : Int) : Float :=
  Float.ofBits ⟨UnpackedFloat.pack .binary64 (UnpackedFloat.round .binary64 sign significand exponent)⟩

def withSign (sign : UnpackedFloat.Sign) (magnitude : Float) : Float :=
  match sign with
  | .positive => magnitude
  | .negative => -magnitude

def whole? (x : Float) : Option Int :=
  match unpack x with
  | .zero _ => some 0
  | .finite sign m e _ =>
    if 0 ≤ e then some (sign.apply (m * Nat.pow 2 e.toNat : Nat))
    else if m % Nat.pow 2 (-e).toNat = 0 then some (sign.apply (m / Nat.pow 2 (-e).toNat : Nat))
    else none
  | _ => none

inductive Rounding
  | down
  | up
  | towardZero
  | halfAwayFromZero
  deriving DecidableEq, Repr

/-- Rounds the magnitude `whole + rest / unit`, where `rest < unit`. -/
def Rounding.magnitude (rounding : Rounding) (sign : UnpackedFloat.Sign)
    (whole rest unit : Nat) : Nat :=
  let away := match rounding, sign with
    | .down, .negative | .up, .positive => rest != 0
    | .halfAwayFromZero, _ => unit ≤ 2 * rest
    | _, _ => false
  if away then whole + 1 else whole

/-- A result of zero keeps the sign of the argument. -/
def round (rounding : Rounding) (x : Float) : Float :=
  match unpack x with
  | .finite sign m e _ =>
    if 0 ≤ e then x
    else
      let unit := Nat.pow 2 (-e).toNat
      withSign sign (Float.ofNat (rounding.magnitude sign (m / unit) (m % unit) unit))
  | _ => x

def notANumber : Float := 0.0 / 0.0

/-- The exact remainder of truncated division; it has the sign of the dividend. -/
def remainder (x y : Float) : Float :=
  match unpack x, unpack y with
  | .notANumber, _ | _, .notANumber | .infinity _, _ | _, .zero _ => notANumber
  | .zero _, _ | _, .infinity _ => x
  | .finite sign m e _, .finite _ n f _ =>
    let unit := min e f
    let rest := (m * Nat.pow 2 (e - unit).toNat) % (n * Nat.pow 2 (f - unit).toNat)
    if rest = 0 then withSign sign 0.0 else nearest sign rest unit

/-- There is none when one of the two is not a number. The two zeros are equal. -/
def order? (x y : Float) : Option Ordering :=
  if x < y then some .lt
  else if x == y then some .eq
  else if y < x then some .gt
  else none

end Formula.Binary64

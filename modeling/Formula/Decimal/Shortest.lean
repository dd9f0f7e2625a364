import Formula.Decimal.Basic

/-! The decimal with the fewest digits that reads back as a given double. Of several with as
few digits the nearest to the double is taken; only an exact tie is left to the caller. -/
namespace Formula.Decimal

inductive Tie
  | even
  | up
  deriving DecidableEq, Repr

/-- The reals that round to m · 2^q, in units of 2^(q-2), with the double itself at `4 * m`.
The gap below a power of two is half as wide. Both ends belong to it when m is even. -/
structure Interval where
  low : Nat
  mid : Nat
  high : Nat
  closed : Bool
  deriving DecidableEq, Repr

def Interval.ofParts (m : Nat) (q : Int) : Interval where
  low := if m = Nat.pow 2 52 ∧ -1074 < q then 4 * m - 1 else 4 * m - 2
  mid := 4 * m
  high := 4 * m + 2
  closed := m % 2 == 0

def Interval.holds (i : Interval) (scale place : Nat) : Bool :=
  if i.closed then i.low * scale ≤ place && place ≤ i.high * scale
  else i.low * scale < place && place < i.high * scale

/-- Whether the upper of two neighbours is taken, `rest` out of `unit` past the lower one. -/
def Tie.takesUpper (tie : Tie) (below rest unit : Nat) : Bool :=
  unit < 2 * rest || (2 * rest == unit && (tie == .up || below % 2 == 1))

/-- The multiple of 10^`k` in the interval that is nearest to its middle, as a multiplier. -/
def Interval.nearest? (i : Interval) (q : Int) (tie : Tie) (k : Int) : Option Nat :=
  let scale := Nat.pow 2 (q - 2).toNat * Nat.pow 10 (-k).toNat
  let unit := Nat.pow 2 (2 - q).toNat * Nat.pow 10 k.toNat
  let below := i.mid * scale / unit
  match i.holds scale (below * unit), i.holds scale ((below + 1) * unit) with
  | false, false => none
  | true, false => some below
  | false, true => some (below + 1)
  | true, true =>
    some (if tie.takesUpper below (i.mid * scale % unit) unit then below + 1 else below)

def exact (m : Nat) (q : Int) : Decimal :=
  if 0 ≤ q then ⟨m * Nat.pow 2 q.toNat, 0⟩ else ⟨m * Nat.pow 5 (-q).toNat, q⟩

/-- Tries the grids 10^k, 10^(k-1), … in turn; seventeen digits always suffice, so the exact
decimal at the end only makes the search total. -/
def search (m : Nat) (q : Int) (tie : Tie) : Nat → Int → Decimal
  | 0, _ => exact m q
  | fuel + 1, k =>
    match (Interval.ofParts m q).nearest? q tie k with
    | some n => ⟨n, k⟩
    | none => search m q tie fuel (k - 1)

/-- A power of ten not below m · 2^q, from 2^10 < 10^3.0103. -/
def startPower (m : Nat) (q : Int) : Int := (Nat.log2 m + 1 + q) * 30103 / 100000 + 1

/-- For a positive m; the coefficient has no trailing zero. -/
def shortest (tie : Tie) (m : Nat) (q : Int) : Decimal := search m q tie 24 (startPower m q)

end Formula.Decimal

/-! 64-bit integers whose operations are exact or absent: nothing wraps. -/
namespace Formula.Integer

def Fits (n : Int) : Prop := -Int.pow 2 63 ≤ n ∧ n < Int.pow 2 63

instance (n : Int) : Decidable (Fits n) := inferInstanceAs (Decidable (_ ∧ _))

def ofInt? (n : Int) : Option Int64 := if Fits n then some (.ofInt n) else none

theorem toInt_ofInt? {n : Int} {word : Int64} (fit : ofInt? n = some word) : word.toInt = n := by
  unfold ofInt? at fit
  split at fit
  · rename_i fits
    cases fit
    exact Int64.toInt_ofInt_of_le fits.1 fits.2
  · simp at fit

theorem ofInt?_eq_none_iff {n : Int} : ofInt? n = none ↔ ¬ Fits n := by
  simp [ofInt?]

theorem fits_toInt (word : Int64) : Fits word.toInt :=
  ⟨word.le_toInt, word.toInt_lt⟩

@[simp] theorem ofInt?_toInt (word : Int64) : ofInt? word.toInt = some word := by
  simp [ofInt?, fits_toInt]

def add? (a b : Int64) : Option Int64 := ofInt? (a.toInt + b.toInt)

def sub? (a b : Int64) : Option Int64 := ofInt? (a.toInt - b.toInt)

def mul? (a b : Int64) : Option Int64 := ofInt? (a.toInt * b.toInt)

def div? (a b : Int64) : Option Int64 := ofInt? (a.toInt.tdiv b.toInt)

/-- Absent where the quotient is, although the remainder itself would fit. -/
def rem? (a b : Int64) : Option Int64 := (div? a b).bind fun _ => ofInt? (a.toInt.tmod b.toInt)

def abs? (a : Int64) : Option Int64 := ofInt? a.toInt.natAbs

/-- A base of magnitude two or more overflows at exponent 64, so no larger power is formed. -/
def pow? (base : Int64) (exponent : Nat) : Option Int64 :=
  if base.toInt.natAbs ≤ 1 then ofInt? (Int.pow base.toInt (if exponent = 0 then 0 else 2 - exponent % 2))
  else if 64 ≤ exponent then none
  else ofInt? (Int.pow base.toInt exponent)

def toNat? (a : Int64) : Option Nat := if 0 ≤ a.toInt then some a.toInt.toNat else none

/-- A sum of sizes stops at the greatest size of 64 bits. -/
def sizeSum (a b : Nat) : Nat := min (a + b) 18446744073709551615

end Formula.Integer

import Formula.Fields

/-! JSON documents. Whole numbers between -2^63 and 2^64 - 1 are kept exactly, every other
number is the nearest double; members stand in ascending key order, the last of equal keys. -/
namespace Formula

inductive Json
  | null
  | bool (b : Bool)
  | int (n : Int)
  | float (x : Float)
  | str (s : String)
  | array (items : List Json)
  | object (members : List (String × Json))
  deriving Inhabited

namespace Json

/-- The whole numbers that keep their exact value. -/
def Exact (n : Int) : Prop := -Int.pow 2 63 ≤ n ∧ n < Int.pow 2 64

instance (n : Int) : Decidable (Exact n) := inferInstanceAs (Decidable (_ ∧ _))

def asString? : Json → Option String
  | .str s => some s
  | _ => none

def member? (name : String) : Json → Option Json
  | .object members => Fields.get? name members
  | _ => none

end Json

end Formula

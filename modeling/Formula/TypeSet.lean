/-! Static types as sets of value kinds. A function declares the set its values come from; an
argument position accepts a child whose set meets the expected one, so the full set fits
everywhere. -/
namespace Formula

/-- One flag for each kind of value. -/
structure TypeSet where
  hasBoolean : Bool
  hasNumber : Bool
  hasObject : Bool
  hasString : Bool
  hasArray : Bool
  deriving DecidableEq, Repr

namespace TypeSet

def nothing : TypeSet := ⟨false, false, false, false, false⟩
def boolean : TypeSet := { nothing with hasBoolean := true }
def number : TypeSet := { nothing with hasNumber := true }
def object : TypeSet := { nothing with hasObject := true }
def string : TypeSet := { nothing with hasString := true }
def array : TypeSet := { nothing with hasArray := true }
def any : TypeSet := ⟨true, true, true, true, true⟩

def union (a b : TypeSet) : TypeSet where
  hasBoolean := a.hasBoolean || b.hasBoolean
  hasNumber := a.hasNumber || b.hasNumber
  hasObject := a.hasObject || b.hasObject
  hasString := a.hasString || b.hasString
  hasArray := a.hasArray || b.hasArray

instance : Union TypeSet := ⟨union⟩

/-- Whether the two sets have a kind in common. -/
def meets (a b : TypeSet) : Bool :=
  a.hasBoolean && b.hasBoolean || a.hasNumber && b.hasNumber || a.hasObject && b.hasObject ||
  a.hasString && b.hasString || a.hasArray && b.hasArray

def within (a b : TypeSet) : Bool := a ∪ b == b

def names (a : TypeSet) : List String :=
  (if a.hasBoolean then ["boolean"] else []) ++ (if a.hasNumber then ["number"] else []) ++
  (if a.hasObject then ["object"] else []) ++ (if a.hasString then ["string"] else []) ++
  (if a.hasArray then ["array"] else [])

def render (a : TypeSet) : String :=
  if a = any then "any"
  else if a = nothing then "nothing"
  else " | ".intercalate a.names

theorem meets_comm (a b : TypeSet) : a.meets b = b.meets a := by
  simp [meets, Bool.and_comm]

theorem any_meets {a : TypeSet} : any.meets a = true ↔ a ≠ nothing := by
  rcases a with ⟨_ | _, _ | _, _ | _, _ | _, _ | _⟩ <;> decide

end TypeSet

end Formula

/-! White space is what has the Unicode property White_Space. -/
namespace Formula.Text

def isBlank (c : Char) : Bool :=
  let point := c.toNat
  (0x09 ≤ point && point ≤ 0x0D) || point == 0x20 || point == 0x85 || point == 0xA0 ||
  point == 0x1680 || (0x2000 ≤ point && point ≤ 0x200A) || point == 0x2028 || point == 0x2029 ||
  point == 0x202F || point == 0x205F || point == 0x3000

/-- Every blank that Lean's own ASCII class knows is blank here. -/
theorem isBlank_of_isWhitespace {c : Char} (blank : c.isWhitespace = true) : isBlank c = true := by
  simp only [Char.isWhitespace, Bool.or_eq_true, decide_eq_true_eq] at blank
  rcases blank with ((rfl | rfl) | rfl) | rfl <;> decide

def skipBlanks (text : List Char) : List Char := text.dropWhile isBlank

def strip (text : List Char) : List Char := (skipBlanks (skipBlanks text).reverse).reverse

def trim (text : String) : String := String.ofList (strip text.toList)

end Formula.Text

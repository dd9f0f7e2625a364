/-! Substrings of character lists. Replacing leaves a text without the substring as it is, and
goes on behind each occurrence that it replaces. -/
namespace Formula.Text

def contains (part : List Char) : List Char → Bool
  | [] => part.isEmpty
  | c :: rest => part.isPrefixOf (c :: rest) || contains part rest

theorem contains_iff_infix {part text : List Char} : contains part text = true ↔ part <:+: text := by
  induction text with
  | nil => simp [contains]
  | cons c rest ih => simp [contains, ih, List.infix_cons_iff]

/-- Replaces each occurrence of `part`, from the left and without overlap. Characters of an
occurrence just replaced are counted down by `skip`. -/
def replaceFrom (part replacement : List Char) : Nat → List Char → List Char
  | _, [] => []
  | skip + 1, _ :: rest => replaceFrom part replacement skip rest
  | 0, c :: rest =>
    if part.isPrefixOf (c :: rest) then
      replacement ++ replaceFrom part replacement (part.length - 1) rest
    else c :: replaceFrom part replacement 0 rest

/-- Meaningful for a non-empty `part`. -/
def replace (text part replacement : List Char) : List Char :=
  replaceFrom part replacement 0 text

theorem replaceFrom_append (part replacement skipped text : List Char) :
    replaceFrom part replacement skipped.length (skipped ++ text) =
      replaceFrom part replacement 0 text := by
  induction skipped with
  | nil => rfl
  | cons c rest ih => simpa [replaceFrom] using ih

theorem replace_of_not_infix {text part : List Char} (replacement : List Char)
    (absent : ¬ part <:+: text) : replace text part replacement = text := by
  unfold replace
  induction text with
  | nil => rfl
  | cons c rest ih =>
    rw [List.infix_cons_iff, not_or] at absent
    simp [replaceFrom, absent.1, ih absent.2]

theorem replace_append {part : List Char} (replacement text : List Char) (nonempty : part ≠ []) :
    replace (part ++ text) part replacement = replacement ++ replace text part replacement := by
  obtain ⟨c, rest, rfl⟩ := List.exists_cons_of_ne_nil nonempty
  have found : (c :: rest).isPrefixOf (c :: (rest ++ text)) = true :=
    List.isPrefixOf_iff_prefix.2 (List.prefix_append (c :: rest) text)
  simp [replace, replaceFrom, found, replaceFrom_append]

end Formula.Text

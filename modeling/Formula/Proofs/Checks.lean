import Mathlib.Data.List.Basic

/-! Checks in turn. A traversal that only checks its items stops at the first that fails, and that item
decides the error. -/
namespace Formula

variable {α ε : Type} {check : α → Except ε Unit}

theorem forM_ok_iff {items : List α} : forM items check = .ok () ↔ ∀ a ∈ items, check a = .ok () := by
  induction items with
  | nil => simp [pure, Except.pure]
  | cons a rest ih =>
    rw [List.forM_cons, List.forall_mem_cons, ← ih]
    cases check a <;> simp [bind, Except.bind]

/-- The first item that fails the check decides the error; those before it have passed. -/
theorem forM_error_iff {items : List α} {error : ε} : forM items check = .error error ↔
    ∃ before a after, items = before ++ a :: after ∧ (∀ b ∈ before, check b = .ok ()) ∧
      check a = .error error := by
  constructor
  · intro failed
    induction items with
    | nil => cases failed
    | cons a rest ih =>
      rw [List.forM_cons] at failed
      cases first : check a with
      | error e =>
        rw [first] at failed
        cases failed
        exact ⟨[], a, rest, rfl, by simp, first⟩
      | ok done =>
        rw [first] at failed
        obtain ⟨before, b, after, rfl, passed, here⟩ := ih failed
        exact ⟨a :: before, b, after, rfl, List.forall_mem_cons.2 ⟨first, passed⟩, here⟩
  · rintro ⟨before, a, after, rfl, passed, here⟩
    rw [List.forM_append, forM_ok_iff.2 passed, List.forM_cons, here]
    rfl

end Formula

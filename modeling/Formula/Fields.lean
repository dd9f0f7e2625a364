/-! Objects as lists of bindings in strictly ascending key order. Keys compare by code
point, which is also the order of their UTF-8 bytes. -/
namespace Formula.Fields

variable {α β : Type}

def get? (key : String) : List (String × α) → Option α
  | [] => none
  | (k, v) :: rest => if k = key then some v else get? key rest

/-- Binds `key` in place; an older binding of the same key is replaced. -/
def insert (key : String) (value : α) : List (String × α) → List (String × α)
  | [] => [(key, value)]
  | (k, v) :: rest =>
    if key < k then (key, value) :: (k, v) :: rest
    else if k = key then (key, value) :: rest
    else (k, v) :: insert key value rest

/-- The last of several bindings of one key wins. -/
def ofList (bindings : List (String × α)) : List (String × α) :=
  bindings.foldl (fun fields binding => insert binding.1 binding.2 fields) []

def Ascending (fields : List (String × α)) : Prop := fields.Pairwise (·.1 < ·.1)

theorem get?_insert (key other : String) (value : α) (fields : List (String × α)) :
    get? other (insert key value fields) = if key = other then some value else get? other fields := by
  induction fields with
  | nil => simp [insert, get?]
  | cons head rest ih =>
    simp only [insert]
    split
    · simp [get?]
    · split
      · rename_i same
        subst same
        simp [get?]
        split <;> rfl
      · rename_i different
        simp only [get?, ih]
        by_cases h : head.1 = other
        · simp [h]
          intro same
          exact absurd (h.trans same.symm) different
        · simp [h]

theorem mem_insert {key : String} {value : α} {fields : List (String × α)} {entry : String × α}
    (member : entry ∈ insert key value fields) : entry.1 = key ∨ entry ∈ fields := by
  induction fields with
  | nil => simp [insert] at member; simp [member]
  | cons head rest ih =>
    simp only [insert] at member
    split at member
    · rcases List.mem_cons.1 member with rfl | old
      · exact .inl rfl
      · exact .inr old
    · split at member
      · rcases List.mem_cons.1 member with rfl | old
        · exact .inl rfl
        · exact .inr (List.mem_cons_of_mem _ old)
      · rcases List.mem_cons.1 member with rfl | old
        · exact .inr List.mem_cons_self
        · exact (ih old).imp_right (List.mem_cons_of_mem _)

theorem ascending_insert (key : String) (value : α) {fields : List (String × α)}
    (sorted : Ascending fields) : Ascending (insert key value fields) := by
  induction fields with
  | nil => simp [insert, Ascending]
  | cons head rest ih =>
    obtain ⟨below, tail⟩ := List.pairwise_cons.1 sorted
    simp only [insert]
    split
    · rename_i before
      refine List.pairwise_cons.2 ⟨fun entry member => ?_, sorted⟩
      rcases List.mem_cons.1 member with rfl | old
      · exact before
      · exact String.lt_trans before (below entry old)
    · split
      · rename_i _ same
        subst same
        exact List.pairwise_cons.2 ⟨below, tail⟩
      · rename_i notBefore different
        refine List.pairwise_cons.2 ⟨fun entry member => ?_, ih tail⟩
        rcases mem_insert member with same | old
        · rw [same]
          exact Std.lt_of_le_of_ne (String.not_lt.1 notBefore) different
        · exact below entry old

theorem ascending_ofList (bindings : List (String × α)) : Ascending (ofList bindings) := by
  have step (fields : List (String × α)) (sorted : Ascending fields) :
      Ascending (bindings.foldl (fun fields binding => insert binding.1 binding.2 fields) fields) := by
    induction bindings generalizing fields with
    | nil => exact sorted
    | cons binding rest ih => exact ih _ (ascending_insert _ _ sorted)
  exact step [] List.Pairwise.nil

end Formula.Fields

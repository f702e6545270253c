/-! Finite assignments of values to names. -/

namespace CostTape

/-- Each name stands for the first value given with it. -/
abbrev Names (α : Type) := List (String × α)

namespace Names

def find? (names : Names α) (name : String) : Option α :=
  names.lookup name

def assign (names : Names α) (name : String) (value : α) : Names α :=
  (name, value) :: names.filter fun entry => entry.1 != name

theorem find?_cons (key other : String) (value : α) (names : Names α) :
    find? ((key, value) :: names) other =
      if other = key then some value else names.find? other := by
  by_cases here : other = key
  · subst here
    simp [find?]
  · have apart : (other == key) = false := beq_false_of_ne here
    simp [find?, List.lookup_cons, apart, here]

theorem find?_assign (names : Names α) (name other : String) (value : α) :
    (names.assign name value).find? other =
      if other = name then some value else names.find? other := by
  rw [assign, find?_cons]
  by_cases here : other = name
  · rw [if_pos here, if_pos here]
  · rw [if_neg here, if_neg here]
    induction names with
    | nil => rfl
    | cons entry names induction =>
        obtain ⟨key, found⟩ := entry
        by_cases dropped : key = name
        · subst dropped
          rw [List.filter_cons_of_neg (by simp), induction, find?_cons, if_neg here]
        · rw [List.filter_cons_of_pos (by simpa using dropped), find?_cons, find?_cons,
            induction]

end Names

end CostTape

/-!
# Dictionaries

A dictionary from names to values as a list of entries of which at most one has any given name.
-/

namespace Bindery

/-- The entries of a dictionary, in the order in which their names were first set. -/
abbrev Dictionary (α : Type) := List (String × α)

namespace Dictionary

variable {α : Type}

/-- The value under a name. -/
def get? : Dictionary α → String → Option α
  | [], _ => none
  | (key, value) :: entries, name => if key = name then some value else get? entries name

/-- Puts a value under a name, in place of the one that was there. -/
def set : Dictionary α → String → α → Dictionary α
  | [], name, value => [(name, value)]
  | (key, old) :: entries, name, value =>
    if key = name then (key, value) :: entries else (key, old) :: set entries name value

@[simp] theorem get?_nil (name : String) : get? ([] : Dictionary α) name = none := rfl

/-- What is found under a name is an entry of that name. -/
theorem mem_of_get? {entries : Dictionary α} {name : String} {value : α}
    (h : entries.get? name = some value) : (name, value) ∈ entries := by
  induction entries with
  | nil => simp at h
  | cons entry entries ih =>
    obtain ⟨key, first⟩ := entry
    rw [get?] at h
    split at h
    · next hkey =>
      obtain rfl := Option.some.inj h
      exact hkey ▸ List.mem_cons_self
    · exact List.mem_cons_of_mem _ (ih h)

/-- Setting a name changes what is found under it and nothing else. -/
theorem get?_set (entries : Dictionary α) (name other : String) (value : α) :
    (set entries name value).get? other =
      if name = other then some value else get? entries other := by
  induction entries with
  | nil => simp [set, get?]
  | cons entry entries ih =>
    obtain ⟨key, old⟩ := entry
    by_cases hkey : key = name
    · subst hkey
      by_cases hother : key = other <;> simp [set, get?, hother]
    · by_cases hother : key = other
      · subst hother
        simp [set, get?, hkey, Ne.symm hkey]
      · simp [set, get?, hkey, hother, ih]

end Dictionary

end Bindery

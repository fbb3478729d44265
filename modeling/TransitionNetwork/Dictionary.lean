/-!
Dictionaries: entries with texts as keys, in increasing order of the keys, each key once.
-/

namespace TransitionNetwork

abbrev Dictionary (α : Type) := List (String × α)

namespace Dictionary

variable {α : Type}

/-- Sets the value of a key. -/
def insert (key : String) (value : α) : Dictionary α → Dictionary α
  | [] => [(key, value)]
  | (other, old) :: rest =>
    if key = other then (key, value) :: rest
    else if key < other then (key, value) :: (other, old) :: rest
    else (other, old) :: insert key value rest

def get? (dictionary : Dictionary α) (key : String) : Option α :=
  (dictionary.find? (·.1 = key)).map (·.2)

/-- The dictionary of a list of entries; the last entry of a key wins. -/
def ofEntries (entries : List (String × α)) : Dictionary α :=
  entries.foldl (fun dictionary (key, value) => dictionary.insert key value) []

theorem get?_cons (name key : String) (value : α) (rest : Dictionary α) :
    get? ((name, value) :: rest) key = if name = key then some value else rest.get? key := by
  by_cases h : name = key <;> simp [get?, h]

theorem get?_insert (key other : String) (value : α) (dictionary : Dictionary α) :
    (dictionary.insert key value).get? other =
      if other = key then some value else dictionary.get? other := by
  induction dictionary with
  | nil => simp [insert, get?, eq_comm]
  | cons entry rest ih =>
      obtain ⟨name, old⟩ := entry
      rw [insert]
      split
      · next hsame =>
        rw [get?_cons, get?_cons, hsame]
        grind
      · next hother =>
        split
        · rw [get?_cons]
          simp only [eq_comm]
        · rw [get?_cons, get?_cons, ih]
          grind

/-- To set a key to the same value again changes nothing. -/
theorem insert_insert (key : String) (value : α) (dictionary : Dictionary α) :
    (dictionary.insert key value).insert key value = dictionary.insert key value := by
  induction dictionary with
  | nil => simp [insert]
  | cons entry rest ih =>
      obtain ⟨name, old⟩ := entry
      simp only [insert]
      split
      · simp [insert]
      · next hother =>
        split
        · simp [insert]
        · next hbehind => simp [insert, hother, hbehind, ih]

end Dictionary

end TransitionNetwork

/-
Finite maps as lists of keys with their values. A key that is put a second time
keeps its place and gets the new value; the lemmas say what a lookup finds then.
-/

namespace ChainIndex

abbrev Table (κ α : Type) := List (κ × α)

namespace Table

variable {κ α : Type} [DecidableEq κ]

def get? (t : Table κ α) (key : κ) : Option α :=
  (t.find? (·.1 == key)).map (·.2)

/-- Gives a key its value. -/
def put (key : κ) (a : α) : Table κ α → Table κ α
  | [] => [(key, a)]
  | (k, old) :: rest => if k = key then (key, a) :: rest else (k, old) :: put key a rest

/-- Gives a key a value made from the one it has, if it has one. -/
def update (key : κ) (f : Option α → α) (t : Table κ α) : Table κ α :=
  put key (f (get? t key)) t

def values (t : Table κ α) : List α :=
  t.map (·.2)

@[simp] theorem get?_nil (key : κ) : get? ([] : Table κ α) key = none := rfl

theorem get?_cons (k key : κ) (a : α) (rest : Table κ α) :
    get? ((k, a) :: rest) key = if k = key then some a else get? rest key := by
  by_cases h : k = key
  · simp [get?, h]
  · have : (k == key) = false := by simpa using h
    simp [get?, this, h]

@[simp] theorem get?_put_self (key : κ) (a : α) (t : Table κ α) :
    get? (put key a t) key = some a := by
  induction t with
  | nil => simp [put, get?_cons]
  | cons p rest ih =>
    obtain ⟨k, old⟩ := p
    by_cases h : k = key
    · simp [put, h, get?_cons]
    · simp [put, h, get?_cons, ih]

theorem get?_put_other {key other : κ} (ne : other ≠ key) (a : α) (t : Table κ α) :
    get? (put key a t) other = get? t other := by
  induction t with
  | nil => simp [put, get?_cons, Ne.symm ne]
  | cons p rest ih =>
    obtain ⟨k, old⟩ := p
    by_cases h : k = key
    · subst h
      simp [put, get?_cons, Ne.symm ne]
    · simp [put, h, get?_cons, ih]

theorem get?_put (key other : κ) (a : α) (t : Table κ α) :
    get? (put key a t) other = if other = key then some a else get? t other := by
  by_cases h : other = key
  · simp [h]
  · simp [h, get?_put_other h]

theorem get?_update (key other : κ) (f : Option α → α) (t : Table κ α) :
    get? (update key f t) other = if other = key then some (f (get? t key)) else get? t other :=
  get?_put key other _ t

theorem put_put (key : κ) (a b : α) (t : Table κ α) :
    put key b (put key a t) = put key b t := by
  induction t with
  | nil => simp [put]
  | cons first rest ih =>
    by_cases same : first.1 = key
    · simp [put, same]
    · simp [put, same, ih]

/-- A key that gets the value it has leaves the table as it is. -/
theorem put_of_get? {t : Table κ α} {key : κ} {a : α} (found : get? t key = some a) :
    put key a t = t := by
  induction t with
  | nil => cases found
  | cons first rest ih =>
    obtain ⟨k, old⟩ := first
    rw [get?_cons] at found
    by_cases same : k = key
    · rw [if_pos same] at found
      cases found
      simp [put, same]
    · rw [if_neg same] at found
      simp [put, same, ih found]

theorem mem_of_get? {t : Table κ α} {key : κ} {a : α} (h : get? t key = some a) : (key, a) ∈ t := by
  obtain ⟨⟨k, b⟩, found, rfl⟩ := Option.map_eq_some_iff.mp h
  have same : k = key := by simpa using List.find?_some found
  exact same ▸ List.mem_of_find?_eq_some found

theorem mem_put {entry : κ × α} {key : κ} {a : α} {t : Table κ α} (h : entry ∈ put key a t) :
    entry = (key, a) ∨ entry ∈ t := by
  induction t with
  | nil => exact .inl (List.mem_singleton.mp h)
  | cons first rest ih =>
    obtain ⟨k, old⟩ := first
    unfold put at h
    split at h
    · rcases List.mem_cons.mp h with h | h
      · exact .inl h
      · exact .inr (List.mem_cons_of_mem _ h)
    · rcases List.mem_cons.mp h with h | h
      · exact .inr (h ▸ List.mem_cons_self)
      · exact (ih h).imp_right (List.mem_cons_of_mem _)

/-- A key that is put keeps its place, or it comes last. -/
theorem keys_put (key : κ) (a : α) (t : Table κ α) :
    (put key a t).map (·.1) =
      if key ∈ t.map (·.1) then t.map (·.1) else t.map (·.1) ++ [key] := by
  induction t with
  | nil => rfl
  | cons first rest ih =>
    obtain ⟨k, old⟩ := first
    unfold put
    by_cases same : k = key
    · simp [same]
    · rw [if_neg same, List.map_cons, ih]
      by_cases later : key ∈ rest.map (·.1) <;> simp [later, Ne.symm same]

end Table

end ChainIndex

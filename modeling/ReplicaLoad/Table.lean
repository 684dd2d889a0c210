-- Tables. A finite map as a list of entries with distinct keys, in the order in
-- which the keys first arrived. Everything else reads a table through `get?`;
-- the lemmas below say what each operation does to that view.

namespace ReplicaLoad

/-- Entries with pairwise distinct keys, oldest key first. -/
structure Table (κ α : Type) where
  entries : List (κ × α)
  distinct : (entries.map (·.1)).Nodup

namespace Table

variable {κ α : Type} [DecidableEq κ]

def empty : Table κ α := ⟨[], List.nodup_nil⟩

instance : Inhabited (Table κ α) := ⟨empty⟩

/-- The first value that a list of entries gives a key. -/
def find? (key : κ) : List (κ × α) → Option α
  | [] => none
  | (k, a) :: rest => if k = key then some a else find? key rest

def get? (t : Table κ α) (key : κ) : Option α := find? key t.entries

/-- Entries with one key set: in place if the key is there, else at the end. -/
def putEntry (key : κ) (value : α) : List (κ × α) → List (κ × α)
  | [] => [(key, value)]
  | (k, a) :: rest => if k = key then (key, value) :: rest else (k, a) :: putEntry key value rest

theorem mem_keys_putEntry (key : κ) (value : α) (es : List (κ × α)) (k : κ) :
    k ∈ (putEntry key value es).map (·.1) ↔ k = key ∨ k ∈ es.map (·.1) := by
  induction es with
  | nil => simp [putEntry]
  | cons e rest ih =>
    obtain ⟨k', a⟩ := e
    by_cases h : k' = key
    · subst h; simp [putEntry]
    · simp only [putEntry, h, if_false, List.map_cons, List.mem_cons, ih]
      constructor
      · rintro (h1 | h1 | h1)
        · exact Or.inr (Or.inl h1)
        · exact Or.inl h1
        · exact Or.inr (Or.inr h1)
      · rintro (h1 | h1 | h1)
        · exact Or.inr (Or.inl h1)
        · exact Or.inl h1
        · exact Or.inr (Or.inr h1)

theorem nodup_putEntry (key : κ) (value : α) (es : List (κ × α)) (h : (es.map (·.1)).Nodup) :
    ((putEntry key value es).map (·.1)).Nodup := by
  induction es with
  | nil => simp [putEntry]
  | cons e rest ih =>
    obtain ⟨k', a⟩ := e
    rw [List.map_cons, List.nodup_cons] at h
    by_cases hk : k' = key
    · subst hk; simpa [putEntry] using h
    · simp only [putEntry, hk, if_false, List.map_cons, List.nodup_cons]
      refine ⟨?_, ih h.2⟩
      rw [mem_keys_putEntry]
      rintro (h1 | h1)
      · exact hk h1
      · exact h.1 h1

def put (t : Table κ α) (key : κ) (value : α) : Table κ α :=
  ⟨putEntry key value t.entries, nodup_putEntry key value t.entries t.distinct⟩

def keep (t : Table κ α) (test : κ → Bool) : Table κ α :=
  ⟨t.entries.filter fun e => test e.1,
    t.distinct.sublist (List.Sublist.map _ List.filter_sublist)⟩

def erase (t : Table κ α) (key : κ) : Table κ α := t.keep fun k => !decide (k = key)

def keys (t : Table κ α) : List κ := t.entries.map (·.1)

def size (t : Table κ α) : Nat := t.entries.length

/-- A table with the entries of a list put in one after another. -/
def ofList (es : List (κ × α)) : Table κ α := es.foldl (fun t e => t.put e.1 e.2) empty

@[simp] theorem get?_empty (key : κ) : (empty : Table κ α).get? key = none := rfl

theorem find?_putEntry (key key' : κ) (value : α) (es : List (κ × α)) :
    find? key' (putEntry key value es) = if key = key' then some value else find? key' es := by
  induction es with
  | nil => simp [putEntry, find?]
  | cons e rest ih =>
    obtain ⟨k, a⟩ := e
    by_cases hk : k = key
    · subst hk
      by_cases h : k = key' <;> simp [putEntry, find?, h]
    · by_cases h : k = key'
      · subst h
        simp [putEntry, find?, hk, Ne.symm hk]
      · simp [putEntry, find?, hk, h, ih]

/-- A put decides its own key and no other. -/
theorem get?_put (t : Table κ α) (key key' : κ) (value : α) :
    (t.put key value).get? key' = if key = key' then some value else t.get? key' :=
  find?_putEntry key key' value t.entries

theorem find?_eq_none_iff {key : κ} {es : List (κ × α)} :
    find? key es = none ↔ key ∉ es.map (·.1) := by
  induction es with
  | nil => simp [find?]
  | cons e rest ih =>
    obtain ⟨k, a⟩ := e
    by_cases hk : k = key
    · simp [find?, hk]
    · simp [find?, hk, Ne.symm hk, ih]

theorem mem_keys {t : Table κ α} {key : κ} : key ∈ t.keys ↔ t.get? key ≠ none := by
  unfold keys get?
  rw [ne_eq, find?_eq_none_iff, Decidable.not_not]

theorem find?_filter (test : κ → Bool) (key : κ) (es : List (κ × α)) :
    find? key (es.filter fun e => test e.1) = if test key then find? key es else none := by
  induction es with
  | nil => simp [find?]
  | cons e rest ih =>
    obtain ⟨k, a⟩ := e
    by_cases h : k = key
    · subst h
      cases ht : test k
      · simp [ht, ih]
      · simp [ht, find?]
    · cases ht : test k <;> simp [ht, find?, h, ih]

theorem find?_map {β : Type} (f : α → β) (key : κ) (es : List (κ × α)) :
    find? key (es.map fun e => (e.1, f e.2)) = (find? key es).map f := by
  induction es with
  | nil => rfl
  | cons e rest ih =>
    obtain ⟨k, a⟩ := e
    by_cases hk : k = key <;> simp [find?, hk, ih]

/-- A filter keeps the value of a key that passes and drops the others. -/
theorem get?_keep (t : Table κ α) (test : κ → Bool) (key : κ) :
    (t.keep test).get? key = if test key then t.get? key else none :=
  find?_filter test key t.entries

/-- An erase empties its own key and no other. -/
theorem get?_erase (t : Table κ α) (key key' : κ) :
    (t.erase key).get? key' = if key = key' then none else t.get? key' := by
  rw [erase, get?_keep]
  by_cases h : key = key'
  · subst h; simp
  · simp [h, Ne.symm h]

theorem get?_foldl_put (es : List (κ × α)) (t : Table κ α) (key : κ) :
    (es.foldl (fun t e => t.put e.1 e.2) t).get? key =
      ((es.filter (·.1 = key)).getLast?.map (·.2)).or (t.get? key) := by
  induction es generalizing t with
  | nil => simp
  | cons e rest ih =>
    rw [List.foldl_cons, ih, get?_put]
    by_cases he : e.1 = key
    · simp only [he, if_true, decide_true, List.filter_cons_of_pos, List.getLast?_cons]
      cases (rest.filter (·.1 = key)).getLast? <;> rfl
    · simp [he]

/-- The last entry for a key counts. -/
theorem get?_ofList (es : List (κ × α)) (key : κ) :
    (ofList es).get? key = (es.filter (·.1 = key)).getLast?.map (·.2) := by
  rw [ofList, get?_foldl_put]
  simp

end Table

end ReplicaLoad

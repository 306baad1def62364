/-
  Tables: finite maps from keys to values, listed in ascending key order.

  * `find?`, `insert` and `filter` are the usual operations;
  * `scan p` lists the entries from the key `p` on, as long as their keys
    start with `p`.
-/
import CursorCommit.Text.Parting

namespace CursorCommit

/-- A finite map with its keys in ascending order. -/
structure Table (α : Type) where
  entries : List (String × α)
  ascending : entries.Pairwise fun a b => a.1 < b.1

namespace Table

variable {α : Type}

instance [DecidableEq α] : DecidableEq (Table α) := fun t u =>
  decidable_of_iff (t.entries = u.entries)
    ⟨fun h => by cases t; cases u; simpa using h, by rintro rfl; rfl⟩

/-- The table without entries. -/
def empty : Table α := ⟨[], .nil⟩

instance : Inhabited (Table α) := ⟨empty⟩

/-- The value at a key. -/
def find? (t : Table α) (key : String) : Option α :=
  t.entries.lookup key

/-- The entries with the value at `key` set, in order. -/
def insertEntry (key : String) (value : α) : List (String × α) → List (String × α)
  | [] => [(key, value)]
  | (k, v) :: rest =>
    if key < k then (key, value) :: (k, v) :: rest
    else if k < key then (k, v) :: insertEntry key value rest
    else (key, value) :: rest

theorem mem_insertEntry {key : String} {value : α} {es : List (String × α)} {e : String × α}
    (h : e ∈ insertEntry key value es) : e = (key, value) ∨ e ∈ es := by
  induction es with
  | nil => simpa [insertEntry] using h
  | cons e' rest ih =>
    obtain ⟨k, v⟩ := e'
    simp only [insertEntry] at h
    split at h
    · simpa using h
    · split at h
      · rcases List.mem_cons.1 h with h | h
        · simp [h]
        · rcases ih h with h | h <;> simp [h]
      · rcases List.mem_cons.1 h with h | h <;> simp [h]

theorem pairwise_insertEntry (key : String) (value : α) {es : List (String × α)}
    (h : es.Pairwise fun a b => a.1 < b.1) :
    (insertEntry key value es).Pairwise fun a b => a.1 < b.1 := by
  induction es with
  | nil => simp [insertEntry]
  | cons e rest ih =>
    obtain ⟨k, v⟩ := e
    have hrest : ∀ a ∈ rest, k < a.1 := (List.pairwise_cons.1 h).1
    simp only [insertEntry]
    split
    · next hk =>
      refine List.Pairwise.cons (fun a ha => ?_) h
      rcases List.mem_cons.1 ha with rfl | ha
      · exact hk
      · exact String.lt_trans hk (hrest a ha)
    · next hk =>
      split
      · next hk' =>
        refine List.Pairwise.cons (fun a ha => ?_) (ih h.of_cons)
        rcases mem_insertEntry ha with rfl | ha
        · exact hk'
        · exact hrest a ha
      · next hk' =>
        have : key = k := String.le_antisymm (String.not_lt.1 hk') (String.not_lt.1 hk)
        exact List.Pairwise.cons (fun a ha => this ▸ hrest a ha) h.of_cons

/-- The table with the value at `key` set. -/
def insert (t : Table α) (key : String) (value : α) : Table α :=
  ⟨insertEntry key value t.entries, pairwise_insertEntry key value t.ascending⟩

/-- The entries whose keys satisfy `p`. -/
def filter (t : Table α) (p : String → Bool) : Table α :=
  ⟨t.entries.filter fun e => p e.1, t.ascending.filter _⟩

/-- The run of entries from the key `start` on whose keys start with it. -/
def scan (t : Table α) (start : String) : List (String × α) :=
  (t.entries.dropWhile fun e => decide (e.1 < start)).takeWhile fun e => Text.startsWith start e.1

/-! ## Look-up -/

theorem lookup_cons_eq (e : String × α) (es : List (String × α)) (key : String) :
    (e :: es).lookup key = if key = e.1 then some e.2 else es.lookup key := by
  obtain ⟨k, v⟩ := e
  by_cases h : key = k
  · simp [h]
  · simp [List.lookup_cons, h, beq_eq_false_iff_ne.2 h]

theorem lookup_eq_none_of_lt {es : List (String × α)} {key : String}
    (h : ∀ e ∈ es, key < e.1) : es.lookup key = none := by
  induction es with
  | nil => rfl
  | cons e rest ih =>
    have hne : key ≠ e.1 := fun he => String.lt_irrefl key (he ▸ h e List.mem_cons_self)
    rw [lookup_cons_eq, if_neg hne]
    exact ih fun e' he' => h e' (List.mem_cons_of_mem _ he')

theorem lookup_insertEntry (key k : String) (value : α) (es : List (String × α)) :
    (insertEntry key value es).lookup k = if k = key then some value else es.lookup k := by
  induction es with
  | nil => rw [insertEntry, lookup_cons_eq]
  | cons e rest ih =>
    obtain ⟨k', v'⟩ := e
    simp only [insertEntry]
    split
    · rw [lookup_cons_eq]
    · next hlt =>
      split
      · next hlt' =>
        have hne : k' ≠ key := fun he => String.lt_irrefl key (he ▸ hlt')
        rw [lookup_cons_eq, ih, lookup_cons_eq]
        by_cases hk : k = k'
        · simp [hk, hne]
        · simp [hk]
      · next hlt' =>
        have : key = k' := String.le_antisymm (String.not_lt.1 hlt') (String.not_lt.1 hlt)
        subst this
        rw [lookup_cons_eq, lookup_cons_eq]
        by_cases hk : k = key <;> simp [hk]

/-- **Setting a value** is seen at its key and nowhere else. -/
theorem find?_insert (t : Table α) (key k : String) (value : α) :
    (t.insert key value).find? k = if k = key then some value else t.find? k :=
  lookup_insertEntry key k value t.entries

/-- **Filtering** keeps what is found at the keys that satisfy `p`. -/
theorem find?_filter (t : Table α) (p : String → Bool) (k : String) :
    (t.filter p).find? k = if p k then t.find? k else none := by
  obtain ⟨es, h⟩ := t
  simp only [find?, filter]
  clear h
  induction es with
  | nil => simp
  | cons e rest ih =>
    rw [List.filter_cons, lookup_cons_eq]
    split
    · next hp =>
      rw [lookup_cons_eq, ih]
      by_cases hk : k = e.1
      · simp [hk, hp]
      · simp [hk]
    · next hp =>
      rw [ih]
      by_cases hk : k = e.1
      · simp [hk, hp]
      · simp [hk]

/-- An entry is listed iff its value is found at its key. -/
theorem mem_entries_iff (t : Table α) {k : String} {v : α} :
    (k, v) ∈ t.entries ↔ t.find? k = some v := by
  obtain ⟨es, h⟩ := t
  simp only [find?]
  induction es with
  | nil => simp
  | cons e rest ih =>
    obtain ⟨k', v'⟩ := e
    have hrest : ∀ e ∈ rest, k' < e.1 := (List.pairwise_cons.1 h).1
    rw [List.mem_cons, ih h.of_cons, lookup_cons_eq]
    by_cases hk : k = k'
    · subst hk
      simp [lookup_eq_none_of_lt hrest, eq_comm]
    · simp [hk]

end Table

end CursorCommit

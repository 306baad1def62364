/-
  Folds one after the other, and what they reach together.

  A fold of several offsets is the fold of the first ones and then, from where
  it ended, of the others (`ofOffsets_append_eq_ok_iff`).  It ends at a
  maximum of its start and its offsets (`isMaximum_highWater`); two maxima of
  the same offsets, in whatever order, are equal in the order
  (`IsMaximum.compare_eq`), though they need not be the same text.  It is the
  last offset that the fold commits (`highWater_eq_lastCommitted`).
-/
import CursorCommit.Proofs.Offset.Order

namespace CursorCommit

namespace Comparator

/-- The offset is one of these, and reaches all of them. -/
structure IsMaximum (c : Comparator) (x : String) (offsets : List String) : Prop where
  mem : x ∈ offsets
  reaches : ∀ y ∈ offsets, c.reaches x y = true

variable {c : Comparator} {x y : String} {xs ys : List String}

theorem compare_eq_of_reaches (h : c.reaches x y = true) (h' : c.reaches y x = true) :
    c.compare x y = .ok .eq := by
  obtain ⟨o, ho, hge⟩ := reaches_iff.1 h
  obtain ⟨o', ho', hge'⟩ := reaches_iff.1 h'
  rw [compare_swap ho] at ho'
  cases ho'
  cases o with
  | eq => exact ho
  | lt => cases hge
  | gt => cases hge'

theorem IsMaximum.perm (h : c.IsMaximum x xs) (hp : xs.Perm ys) : c.IsMaximum x ys where
  mem := hp.subset h.mem
  reaches y hy := h.reaches y (hp.symm.subset hy)

/-- **Maxima of the same offsets** are equal in the order. -/
theorem IsMaximum.compare_eq (h : c.IsMaximum x xs) (h' : c.IsMaximum y xs) :
    c.compare x y = .ok .eq :=
  compare_eq_of_reaches (h.reaches y h'.mem) (h'.reaches x h.mem)

end Comparator

namespace Fold

variable {c : Comparator} {reached : String} {offsets offsets' : List String} {fold : Fold}

/-- **A fold of several offsets** goes on with the later ones where that of the
    earlier ones ended. -/
theorem ofOffsets_append_eq_ok_iff :
    ofOffsets c reached (offsets ++ offsets') = .ok fold ↔
      ∃ first second, ofOffsets c reached offsets = .ok first ∧
        ofOffsets c first.highWater offsets' = .ok second ∧
        fold = ⟨second.highWater, first.outcomes ++ second.outcomes⟩ := by
  induction offsets generalizing reached fold with
  | nil =>
    constructor
    · intro h
      exact ⟨⟨reached, []⟩, fold, rfl, h, rfl⟩
    · rintro ⟨_, second, h₁, h₂, rfl⟩
      cases h₁
      exact h₂
  | cons offset rest ih =>
    simp only [List.cons_append, ofOffsets_cons_eq_ok_iff, ih]
    constructor
    · rintro ⟨o, _, ho, ⟨first, second, h₁, h₂, rfl⟩, rfl⟩
      exact ⟨_, second, ⟨o, first, ho, h₁, rfl⟩, h₂, rfl⟩
    · rintro ⟨_, second, ⟨o, first, ho, h₁, rfl⟩, h₂, rfl⟩
      exact ⟨o, _, ho, ⟨first, second, h₁, h₂, rfl⟩, rfl⟩

theorem highWater_mem (h : ofOffsets c reached offsets = .ok fold) :
    fold.highWater ∈ reached :: offsets := by
  induction offsets generalizing reached fold with
  | nil => cases h; exact List.mem_cons_self
  | cons offset rest ih =>
    obtain ⟨o, tail, -, ht, rfl⟩ := ofOffsets_cons_eq_ok_iff.1 h
    have ih := ih ht
    by_cases hgt : o = .gt
    · rw [if_pos hgt] at ih
      exact List.mem_cons_of_mem _ ih
    · rw [if_neg hgt] at ih
      rcases List.mem_cons.1 ih with he | hm
      · exact he ▸ List.mem_cons_self
      · exact List.mem_cons_of_mem _ (List.mem_cons_of_mem _ hm)

/-- **A fold ends at a maximum** of its start and its offsets. -/
theorem isMaximum_highWater (h : ofOffsets c reached offsets = .ok fold)
    (hr : c.reaches reached reached = true) : c.IsMaximum fold.highWater (reached :: offsets) where
  mem := highWater_mem h
  reaches := List.forall_mem_cons.2
    ⟨highWater_reaches_start h hr, fun _ hx => highWater_reaches h hx⟩

theorem highWater_reaches_self (h : ofOffsets c reached offsets = .ok fold)
    (hr : c.reaches reached reached = true) : c.reaches fold.highWater fold.highWater = true :=
  have hmax := isMaximum_highWater h hr
  hmax.reaches _ hmax.mem

/-- The last of the offsets that were committed, given what became of each. -/
def lastCommitted (offsets : List String) (outcomes : List Outcome) : Option String :=
  (((offsets.zip outcomes).filter fun e => e.2 == .committed).map Prod.fst).getLast?

/-- **A fold ends at the last offset that it commits**, or at its start if it
    commits none. -/
theorem highWater_eq_lastCommitted (h : ofOffsets c reached offsets = .ok fold) :
    fold.highWater = (lastCommitted offsets fold.outcomes).getD reached := by
  induction offsets generalizing reached fold with
  | nil => cases h; rfl
  | cons offset rest ih =>
    obtain ⟨o, tail, -, ht, rfl⟩ := ofOffsets_cons_eq_ok_iff.1 h
    have ih := ih ht
    by_cases hgt : o = .gt
    · rw [if_pos hgt] at ih
      simp [lastCommitted, hgt, ih, List.getLast?_cons]
    · rw [if_neg hgt] at ih
      simp [lastCommitted, hgt, ih]

end Fold

end CursorCommit

/-
  The laws of comparators.

  A comparator is partial: it orders the offsets of its form, and among these
  only the ones with equally many fields (`exists_compare_iff`).  Where it
  compares, it is a total preorder: to compare the other way round reverses the
  order, to be comparable is transitive, and so is the order, also when only
  one of its steps is strict (`compare_gt_of_reaches`, `compare_gt_of_gt`).

  `compare_laws` has all of them, for any separator and any texts.
-/
import CursorCommit.Proofs.Lists
import CursorCommit.Proofs.Offset.Maximum

namespace CursorCommit.Comparator

/-- How many fields an offset has; one, if the comparator does not part it. -/
def fieldCount : Comparator → String → Nat
  | segmented separator, offset => (offset.toList.splitOn separator).length
  | lexical, _ | numeric, _ => 1

variable {c : Comparator} {x y z : String}

theorem length_fields {separator : Char} {ns : List Nat} (h : fields separator x = .ok ns) :
    ns.length = (segmented separator).fieldCount x :=
  (mapM_eq_ok_iff.1 h).length_eq.symm

theorem validate_eq_ok_iff_exists : c.validate x = .ok () ↔ ∃ o, c.compare x x = .ok o := by
  unfold validate
  cases c.compare x x <;> simp [Except.map]

theorem validate_eq_ok_iff_compare : c.validate x = .ok () ↔ c.compare x x = .ok .eq := by
  rw [validate_eq_ok_iff]
  constructor
  · exact fun h => compare_eq_of_reaches h h
  · exact reaches_self

theorem compare_swap_iff {o : Ordering} :
    c.compare x y = .ok o ↔ c.compare y x = .ok o.swap := by
  constructor
  · exact compare_swap
  · intro h
    rw [← Ordering.swap_swap (o := o)]
    exact compare_swap h

/-! ## What can be compared -/

/-- **Offsets can be compared** iff both are of the comparator's form and have
    equally many fields. -/
theorem exists_compare_iff : (∃ o, c.compare x y = .ok o) ↔
    c.validate x = .ok () ∧ c.validate y = .ok () ∧ c.fieldCount x = c.fieldCount y := by
  simp only [validate_eq_ok_iff_exists]
  cases c with
  | lexical => simp [compare, fieldCount]
  | numeric =>
    simp only [numeric_eq_ok_iff]
    constructor
    · rintro ⟨_, m, n, hm, hn, rfl⟩
      exact ⟨⟨_, m, m, hm, hm, rfl⟩, ⟨_, n, n, hn, hn, rfl⟩, rfl⟩
    · rintro ⟨⟨_, m, -, hm, -⟩, ⟨_, n, -, hn, -⟩, -⟩
      exact ⟨_, m, n, hm, hn, rfl⟩
  | segmented separator =>
    simp only [segmented_eq_ok_iff]
    constructor
    · rintro ⟨_, ms, ns, hm, hn, hl, rfl⟩
      refine ⟨⟨_, ms, ms, hm, hm, rfl, rfl⟩, ⟨_, ns, ns, hn, hn, rfl, rfl⟩, ?_⟩
      rw [← length_fields hm, hl, length_fields hn]
    · rintro ⟨⟨_, ms, -, hm, -⟩, ⟨_, ns, -, hn, -⟩, hc⟩
      refine ⟨_, ms, ns, hm, hn, ?_, rfl⟩
      rw [length_fields hm, hc, length_fields hn]

theorem exists_compare_trans (h : ∃ o, c.compare x y = .ok o) (h' : ∃ o, c.compare y z = .ok o) :
    ∃ o, c.compare x z = .ok o := by
  obtain ⟨hx, -, hxy⟩ := exists_compare_iff.1 h
  obtain ⟨-, hz, hyz⟩ := exists_compare_iff.1 h'
  exact exists_compare_iff.2 ⟨hx, hz, hxy.trans hyz⟩

theorem exists_compare_symm (h : ∃ o, c.compare x y = .ok o) : ∃ o, c.compare y x = .ok o := by
  obtain ⟨o, ho⟩ := h
  exact ⟨o.swap, compare_swap ho⟩

/-! ## Steps of which one is strict -/

theorem compare_ne_gt (h : c.reaches y x = true) : c.compare x y ≠ .ok .gt := by
  obtain ⟨o, ho, hne⟩ := not_gt_of_reaches h
  rw [ho]
  exact fun he => hne (Except.ok.inj he)

theorem compare_gt_of_not_reaches (h : c.reaches x y = true) (h' : c.reaches y x ≠ true) :
    c.compare x y = .ok .gt := by
  obtain ⟨o, ho, -⟩ := reaches_iff.1 h
  cases o with
  | gt => exact ho
  | lt => exact absurd (reaches_of_not_gt ho nofun) h'
  | eq => exact absurd (reaches_of_not_gt ho nofun) h'

theorem compare_gt_of_gt (h : c.compare x y = .ok .gt) (h' : c.reaches y z = true) :
    c.compare x z = .ok .gt := by
  refine compare_gt_of_not_reaches (reaches_trans (reaches_of_gt h) h') fun hzx => ?_
  exact compare_ne_gt (reaches_trans h' hzx) h

theorem compare_gt_of_reaches (h : c.reaches x y = true) (h' : c.compare y z = .ok .gt) :
    c.compare x z = .ok .gt := by
  refine compare_gt_of_not_reaches (reaches_trans h (reaches_of_gt h')) fun hzx => ?_
  exact compare_ne_gt (reaches_trans hzx h) h'

/-- **Two steps up**: the order of the first and the last offset, of three that
    are compared one after the other. -/
theorem compare_trans {o o' : Ordering} (h : c.compare x y = .ok o) (h' : c.compare y z = .ok o')
    (ho : o ≠ .gt) (ho' : o' ≠ .gt) :
    ∃ o'', c.compare x z = .ok o'' ∧ o'' ≠ .gt ∧ (o = .lt ∨ o' = .lt → o'' = .lt) := by
  have hyx : c.reaches y x = true := reaches_of_not_gt h ho
  have hzy : c.reaches z y = true := reaches_of_not_gt h' ho'
  obtain ⟨o'', hxz, hne⟩ := not_gt_of_reaches (reaches_trans hzy hyx)
  refine ⟨o'', hxz, hne, fun hstrict => ?_⟩
  have hgt : c.compare z x = .ok .gt := by
    rcases hstrict with rfl | rfl
    · exact compare_gt_of_reaches hzy (compare_swap h)
    · exact compare_gt_of_gt (compare_swap h') hyx
  rw [compare_swap hgt] at hxz
  cases hxz
  rfl

/-! ## The laws -/

/-- **The laws of a comparator.**  An offset is of its form iff it equals itself;
    two offsets compare the other way round reversed, and can be compared iff
    both are of its form and have equally many fields; to be comparable is
    transitive, and so is the order, strictly if one of its steps is. -/
theorem compare_laws (c : Comparator) (x y z : String) :
    (c.validate x = .ok () ↔ c.compare x x = .ok .eq) ∧
    (∀ o, c.compare x y = .ok o ↔ c.compare y x = .ok o.swap) ∧
    ((∃ o, c.compare x y = .ok o) ↔
      c.validate x = .ok () ∧ c.validate y = .ok () ∧ c.fieldCount x = c.fieldCount y) ∧
    ∀ o o', c.compare x y = .ok o → c.compare y z = .ok o' →
      ∃ o'', c.compare x z = .ok o'' ∧
        (o ≠ .gt → o' ≠ .gt → o'' ≠ .gt ∧ (o = .lt ∨ o' = .lt → o'' = .lt)) := by
  refine ⟨validate_eq_ok_iff_compare, fun _ => compare_swap_iff, exists_compare_iff, ?_⟩
  intro o o' h h'
  obtain ⟨o'', hxz⟩ := exists_compare_trans ⟨o, h⟩ ⟨o', h'⟩
  refine ⟨o'', hxz, fun ho ho' => ?_⟩
  obtain ⟨_, hxz', hle⟩ := compare_trans h h' ho ho'
  rw [hxz] at hxz'
  cases hxz'
  exact hle

/-- Fields between ones, of which some have a sign or zeros in front. -/
theorem odd_spellings_compared :
    (segmented '1').compare "21+3" "0213" = .ok .eq ∧
      (segmented '1').compare "0213" "214" = .ok .lt ∧
        (segmented '1').compare "21+3" "214" = .ok .lt := by
  have h : (segmented '1').compare "21+3" "0213" = .ok .eq := by decide +kernel
  have h' : (segmented '1').compare "0213" "214" = .ok .lt := by decide +kernel
  obtain ⟨-, -, -, htrans⟩ := compare_laws (segmented '1') "21+3" "0213" "214"
  obtain ⟨o, ho, hle⟩ := htrans _ _ h h'
  obtain ⟨-, hlt⟩ := hle nofun nofun
  rw [hlt (Or.inr rfl)] at ho
  exact ⟨h, h', ho⟩

end CursorCommit.Comparator

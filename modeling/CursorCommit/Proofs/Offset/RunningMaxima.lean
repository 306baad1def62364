/-
  A fold commits the strict running maxima.

  A fold compares an offset only with where it has got so far.  As this is
  greater or equal to all that came before, and comparable with what they are
  comparable with, it decides the same as a comparison with all of them:

  * `exists_ofOffsets_iff`: a fold succeeds iff each offset can be compared with
    its start, and else it fails at the first one that cannot
    (`ofOffsets_eq_error_iff`, `compare_start_of_compare_highWater`);
  * `committed_iff`: an offset is committed iff it is strictly greater than the
    start and than every earlier offset, committed or not;
  * `ofOffsets_running_maxima`: so does a whole fold, which ends at the last
    offset that it commits.
-/
import CursorCommit.Proofs.Offset.Laws

namespace CursorCommit.Fold

variable {c : Comparator} {reached offset : String} {offsets : List String} {fold : Fold}

/-! ## Where a fold has got to -/

theorem exists_compare_next {o : Ordering} (ho : c.compare offset reached = .ok o) :
    ∃ o', c.compare (if o = .gt then offset else reached) reached = .ok o' := by
  split
  · exact ⟨o, ho⟩
  · exact Comparator.exists_compare_trans ⟨o.swap, Comparator.compare_swap ho⟩ ⟨o, ho⟩

/-- **One step of a fold**: to be above where it goes on from is to be above
    where it was and above the offset. -/
theorem compare_next_gt_iff {o : Ordering} (ho : c.compare offset reached = .ok o) {x : String} :
    c.compare x (if o = .gt then offset else reached) = .ok .gt ↔
      c.compare x reached = .ok .gt ∧ c.compare x offset = .ok .gt := by
  by_cases hgt : o = .gt
  · subst hgt
    rw [if_pos rfl]
    exact ⟨fun h => ⟨Comparator.compare_gt_trans h ho, h⟩, And.right⟩
  · rw [if_neg hgt]
    have hreached : c.reaches reached offset = true := Comparator.reaches_of_not_gt ho hgt
    exact ⟨fun h => ⟨h, Comparator.compare_gt_of_gt h hreached⟩, And.left⟩

/-! ## When a fold succeeds, and what it commits -/

/-- **A fold succeeds** iff each offset can be compared with its start. -/
theorem exists_ofOffsets_iff : (∃ fold, ofOffsets c reached offsets = .ok fold) ↔
    ∀ x ∈ offsets, ∃ o, c.compare x reached = .ok o := by
  induction offsets generalizing reached with
  | nil => simp [ofOffsets]
  | cons offset rest ih =>
    rw [List.forall_mem_cons]
    constructor
    · rintro ⟨_, h⟩
      obtain ⟨o, tail, ho, ht, -⟩ := ofOffsets_cons_eq_ok_iff.1 h
      refine ⟨⟨o, ho⟩, fun x hx => ?_⟩
      exact Comparator.exists_compare_trans (ih.1 ⟨tail, ht⟩ x hx) (exists_compare_next ho)
    · rintro ⟨⟨o, ho⟩, hrest⟩
      have hnext := Comparator.exists_compare_symm (exists_compare_next ho)
      obtain ⟨tail, ht⟩ := ih.2 fun x hx => Comparator.exists_compare_trans (hrest x hx) hnext
      exact ⟨_, ofOffsets_cons_eq_ok_iff.2 ⟨o, tail, ho, ht, rfl⟩⟩

theorem ofOffsets_cons_eq_error_iff {rest : List String} {fault : OffsetFault} :
    ofOffsets c reached (offset :: rest) = .error fault ↔
      c.compare offset reached = .error fault ∨ ∃ o, c.compare offset reached = .ok o ∧
        ofOffsets c (if o = .gt then offset else reached) rest = .error fault := by
  rw [ofOffsets, except_bind_eq_error_iff]
  refine or_congr_right (exists_congr fun o => and_congr_right fun _ => ?_)
  split <;> simp [except_bind_eq_error_iff, pure, Except.pure]

/-- **A fold fails** over the comparison of an offset with where the offsets
    before it have got to. -/
theorem ofOffsets_eq_error_iff {fault : OffsetFault} :
    ofOffsets c reached offsets = .error fault ↔ ∃ before x after fold,
      offsets = before ++ x :: after ∧ ofOffsets c reached before = .ok fold ∧
        c.compare x fold.highWater = .error fault := by
  induction offsets generalizing reached with
  | nil => simp [ofOffsets]
  | cons offset rest ih =>
    simp only [ofOffsets_cons_eq_error_iff, ih, List.cons_eq_append_iff]
    constructor
    · rintro (h | ⟨o, ho, before, x, after, fold, rfl, hfold, hx⟩)
      · exact ⟨[], offset, rest, ⟨reached, []⟩, Or.inl ⟨rfl, rfl⟩, rfl, h⟩
      · exact ⟨offset :: before, x, after, _, Or.inr ⟨before, rfl, rfl⟩,
          ofOffsets_cons_eq_ok_iff.2 ⟨o, fold, ho, hfold, rfl⟩, hx⟩
    · rintro ⟨_, x, after, fold, ⟨rfl, h⟩ | ⟨before, rfl, rfl⟩, hfold, hx⟩
      · cases h
        cases hfold
        exact Or.inl hx
      · obtain ⟨o, tail, ho, ht, rfl⟩ := ofOffsets_cons_eq_ok_iff.1 hfold
        exact Or.inr ⟨o, ho, before, x, after, tail, rfl, ht, hx⟩

/-- The offset that a fold fails at cannot be compared with its start, unlike
    those before it. -/
theorem compare_start_of_compare_highWater (h : ofOffsets c reached offsets = .ok fold) {x : String}
    (hx : ¬ ∃ o, c.compare x fold.highWater = .ok o) :
    (∀ y ∈ offsets, ∃ o, c.compare y reached = .ok o) ∧ ¬ ∃ o, c.compare x reached = .ok o := by
  have hall := exists_ofOffsets_iff.1 ⟨fold, h⟩
  refine ⟨hall, fun hstart => hx ?_⟩
  have hmore : ∀ y ∈ offsets ++ [x], ∃ o, c.compare y reached = .ok o :=
    List.forall_mem_append.2 ⟨hall, by simpa using hstart⟩
  obtain ⟨_, hfold⟩ := exists_ofOffsets_iff.2 hmore
  obtain ⟨first, second, hfirst, hsecond, -⟩ := ofOffsets_append_eq_ok_iff.1 hfold
  rw [h] at hfirst
  cases hfirst
  obtain ⟨o, -, ho, -⟩ := ofOffsets_cons_eq_ok_iff.1 hsecond
  exact ⟨o, ho⟩

/-- **An offset is committed** iff it is strictly greater than the start and
    than every earlier offset. -/
theorem committed_iff (h : ofOffsets c reached offsets = .ok fold) {i : Nat} {x : String}
    (hx : offsets[i]? = some x) : fold.outcomes[i]? = some .committed ↔
      c.compare x reached = .ok .gt ∧ ∀ y ∈ offsets.take i, c.compare x y = .ok .gt := by
  induction offsets generalizing reached fold i with
  | nil => simp at hx
  | cons offset rest ih =>
    obtain ⟨o, tail, ho, ht, rfl⟩ := ofOffsets_cons_eq_ok_iff.1 h
    cases i with
    | zero =>
      obtain rfl : offset = x := by simpa using hx
      simp [ho]
    | succ i =>
      rw [List.getElem?_cons_succ] at hx ⊢
      rw [ih ht hx, compare_next_gt_iff ho, List.take_succ_cons, List.forall_mem_cons, and_assoc]

/-- Where a fold ends reaches its start, unless it has no offsets and a start
    that is not of the comparator's form. -/
theorem highWater_reaches_start_iff (h : ofOffsets c reached offsets = .ok fold) :
    c.reaches fold.highWater reached = true ↔ offsets ≠ [] ∨ c.validate reached = .ok () := by
  rw [Comparator.validate_eq_ok_iff]
  constructor
  · intro hr
    by_cases hnil : offsets = []
    · subst hnil
      cases h
      exact Or.inr hr
    · exact Or.inl hnil
  · intro hr
    refine highWater_reaches_start h (hr.elim (fun hne => ?_) id)
    obtain ⟨x, hx⟩ := List.exists_mem_of_ne_nil offsets hne
    obtain ⟨o, ho⟩ := exists_ofOffsets_iff.1 ⟨fold, h⟩ x hx
    exact Comparator.reaches_self (Comparator.compare_swap ho)

/-! ## The whole fold -/

/-- **A fold marks the strict running maxima.**  It succeeds iff each offset can
    be compared with its start.  Then it has an outcome for each offset, and an
    offset is committed iff it is strictly greater than the start and than every
    earlier offset.  It ends at the last offset that is committed, or at its
    start; this reaches all offsets, and the start as well unless there are no
    offsets and the start is not of the comparator's form. -/
theorem ofOffsets_running_maxima (c : Comparator) (reached : String) (offsets : List String) :
    ((∃ fold, ofOffsets c reached offsets = .ok fold) ↔
      ∀ x ∈ offsets, ∃ o, c.compare x reached = .ok o) ∧
    ∀ fold, ofOffsets c reached offsets = .ok fold →
      fold.outcomes.length = offsets.length ∧
      (∀ i x, offsets[i]? = some x → (fold.outcomes[i]? = some .committed ↔
        c.compare x reached = .ok .gt ∧ ∀ y ∈ offsets.take i, c.compare x y = .ok .gt)) ∧
      fold.highWater = (lastCommitted offsets fold.outcomes).getD reached ∧
      (∀ x ∈ offsets, c.reaches fold.highWater x = true) ∧
      (c.reaches fold.highWater reached = true ↔
        offsets ≠ [] ∨ c.validate reached = .ok ()) := by
  refine ⟨exists_ofOffsets_iff, fun fold h => ⟨length_outcomes h, ?_, ?_, ?_, ?_⟩⟩
  · exact fun i x hx => committed_iff h hx
  · exact highWater_eq_lastCommitted h
  · exact fun x hx => highWater_reaches h hx
  · exact highWater_reaches_start_iff h

/-- Spellings of an offset that was reported before are outdated. -/
theorem spellings_running_maxima :
    ∃ fold, ofOffsets .numeric "5" ["4", "+7", "07", "10", "8"] = .ok fold ∧
      fold.outcomes = [.outdated, .committed, .outdated, .committed, .outdated] ∧
        fold.highWater = "10" ∧
          (∀ y ∈ ["4", "+7", "07"], Comparator.numeric.compare "10" y = .ok .gt) ∧
            Comparator.numeric.reaches fold.highWater "5" = true := by
  have h : ofOffsets .numeric "5" ["4", "+7", "07", "10", "8"] =
      .ok ⟨"10", [.outdated, .committed, .outdated, .committed, .outdated]⟩ := by decide +kernel
  obtain ⟨-, hmaxima⟩ := ofOffsets_running_maxima .numeric "5" ["4", "+7", "07", "10", "8"]
  obtain ⟨-, hcommitted, -, -, hreaches⟩ := hmaxima _ h
  exact ⟨_, h, rfl, rfl, ((hcommitted 3 "10" rfl).1 rfl).2, hreaches.2 (Or.inl nofun)⟩

/-- Without offsets a fold ends at its start, also at one that cannot be
    compared, not even with itself. -/
theorem malformed_start_unreached :
    (∀ x ∈ ([] : List String), ∃ o, Comparator.numeric.compare x "x" = .ok o) ∧
      ∃ fold, ofOffsets .numeric "x" [] = .ok fold ∧ fold.highWater = "x" ∧
        Comparator.numeric.compare fold.highWater "x" = .error (.notUnsigned "x") ∧
          Comparator.numeric.reaches fold.highWater "x" = false :=
  ⟨by simp, ⟨"x", []⟩, rfl, rfl, by decide +kernel, by decide +kernel⟩

end CursorCommit.Fold

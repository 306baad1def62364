/-
  The order of offsets, and how far a fold gets in it.

  Two offsets that compare one way compare the other way round reversed
  (`compare_swap`), and being greater is transitive (`compare_gt_trans`).
  Hence a fold that committed an offset ends strictly above the offset that
  it started from (`highWater_gt`), and any other fold ends there.

  `c.reaches x y` says that `x` compares as at least `y`, which is a preorder
  on the offsets of one form.  Where a fold ends it has reached all its
  offsets (`highWater_reaches`); and offsets that are reached already make a
  fold without any commit (`ofOffsets_of_reaches`).
-/
import CursorCommit.Offset.Fold

namespace CursorCommit

namespace Comparator

theorem numeric_eq_ok_iff {a b : String} {o : Ordering} :
    numeric.compare a b = .ok o ↔
      ∃ m n, number a.toList = .ok m ∧ number b.toList = .ok n ∧ Ord.compare m n = o := by
  simp only [compare, bind, Except.bind, pure, Except.pure]
  cases number a.toList <;> cases number b.toList <;> simp

theorem segmented_eq_ok_iff {sep : Char} {a b : String} {o : Ordering} :
    (segmented sep).compare a b = .ok o ↔
      ∃ ms ns, fields sep a = .ok ms ∧ fields sep b = .ok ns ∧ ms.length = ns.length ∧
        Ord.compare ms ns = o := by
  simp only [compare, bind, Except.bind, pure, Except.pure]
  cases fields sep a <;> cases fields sep b <;> simp [throw, throwThe, MonadExceptOf.throw]
  split <;> simp_all

variable {c : Comparator} {x y z : String}

theorem compare_swap {o : Ordering} (h : c.compare x y = .ok o) : c.compare y x = .ok o.swap := by
  cases c with
  | lexical =>
    simp only [compare, Except.ok.injEq] at h ⊢
    rw [← h]; exact Std.OrientedOrd.eq_swap
  | numeric =>
    obtain ⟨m, n, hm, hn, rfl⟩ := numeric_eq_ok_iff.1 h
    exact numeric_eq_ok_iff.2 ⟨n, m, hn, hm, Std.OrientedOrd.eq_swap⟩
  | segmented sep =>
    obtain ⟨ms, ns, hm, hn, hl, rfl⟩ := segmented_eq_ok_iff.1 h
    exact segmented_eq_ok_iff.2 ⟨ns, ms, hn, hm, hl.symm, Std.OrientedOrd.eq_swap⟩

theorem compare_gt_trans (h : c.compare x y = .ok .gt) (h' : c.compare y z = .ok .gt) :
    c.compare x z = .ok .gt := by
  cases c with
  | lexical =>
    simp only [compare, Except.ok.injEq] at h h' ⊢
    exact Std.TransCmp.gt_trans h h'
  | numeric =>
    obtain ⟨m, n, hm, hn, ho⟩ := numeric_eq_ok_iff.1 h
    obtain ⟨n', k, hn', hk, ho'⟩ := numeric_eq_ok_iff.1 h'
    rw [hn] at hn'; cases hn'
    exact numeric_eq_ok_iff.2 ⟨m, k, hm, hk, Std.TransCmp.gt_trans ho ho'⟩
  | segmented sep =>
    obtain ⟨ms, ns, hm, hn, hl, ho⟩ := segmented_eq_ok_iff.1 h
    obtain ⟨ns', ks, hn', hk, hl', ho'⟩ := segmented_eq_ok_iff.1 h'
    rw [hn] at hn'; cases hn'
    exact segmented_eq_ok_iff.2 ⟨ms, ks, hm, hk, hl.trans hl', Std.TransCmp.gt_trans ho ho'⟩

/-! ## Reaching an offset -/

/-- Whether `x` compares as at least `y`. -/
def reaches (c : Comparator) (x y : String) : Bool :=
  (c.compare x y).toOption.any Ordering.isGE

theorem reaches_iff : c.reaches x y = true ↔ ∃ o, c.compare x y = .ok o ∧ o.isGE = true := by
  unfold reaches
  cases c.compare x y <;> simp [Except.toOption]

theorem reaches_of_gt (h : c.compare x y = .ok .gt) : c.reaches x y = true :=
  reaches_iff.2 ⟨.gt, h, rfl⟩

theorem reaches_of_not_gt {o : Ordering} (h : c.compare y x = .ok o) (ho : o ≠ .gt) :
    c.reaches x y = true := by
  refine reaches_iff.2 ⟨o.swap, compare_swap h, ?_⟩
  cases o with
  | gt => exact absurd rfl ho
  | _ => rfl

theorem not_gt_of_reaches (h : c.reaches x y = true) : ∃ o, c.compare y x = .ok o ∧ o ≠ .gt := by
  obtain ⟨o, ho, hge⟩ := reaches_iff.1 h
  refine ⟨o.swap, compare_swap ho, ?_⟩
  cases o <;> simp_all

theorem reaches_self {o : Ordering} (h : c.compare x y = .ok o) : c.reaches x x = true := by
  have hself : c.compare x x = .ok .eq := by
    cases c with
    | lexical => simp [compare]
    | numeric =>
      obtain ⟨m, n, hm, -, -⟩ := numeric_eq_ok_iff.1 h
      exact numeric_eq_ok_iff.2 ⟨m, m, hm, hm, Std.ReflOrd.compare_self⟩
    | segmented sep =>
      obtain ⟨ms, ns, hm, -, -, -⟩ := segmented_eq_ok_iff.1 h
      exact segmented_eq_ok_iff.2 ⟨ms, ms, hm, hm, rfl, Std.ReflOrd.compare_self⟩
  exact reaches_iff.2 ⟨.eq, hself, rfl⟩

theorem reaches_trans (h : c.reaches x y = true) (h' : c.reaches y z = true) :
    c.reaches x z = true := by
  obtain ⟨o, ho, hge⟩ := reaches_iff.1 h
  obtain ⟨o', ho', hge'⟩ := reaches_iff.1 h'
  refine reaches_iff.2 ?_
  cases c with
  | lexical =>
    simp only [compare, Except.ok.injEq] at ho ho' ⊢
    subst ho ho'
    exact ⟨_, rfl, Std.TransCmp.isGE_trans hge hge'⟩
  | numeric =>
    obtain ⟨m, n, hm, hn, rfl⟩ := numeric_eq_ok_iff.1 ho
    obtain ⟨n', k, hn', hk, rfl⟩ := numeric_eq_ok_iff.1 ho'
    rw [hn] at hn'; cases hn'
    exact ⟨_, numeric_eq_ok_iff.2 ⟨m, k, hm, hk, rfl⟩, Std.TransCmp.isGE_trans hge hge'⟩
  | segmented sep =>
    obtain ⟨ms, ns, hm, hn, hl, rfl⟩ := segmented_eq_ok_iff.1 ho
    obtain ⟨ns', ks, hn', hk, hl', rfl⟩ := segmented_eq_ok_iff.1 ho'
    rw [hn] at hn'; cases hn'
    exact ⟨_, segmented_eq_ok_iff.2 ⟨ms, ks, hm, hk, hl.trans hl', rfl⟩,
      Std.TransCmp.isGE_trans hge hge'⟩

theorem validate_eq_ok_iff : c.validate x = .ok () ↔ c.reaches x x = true := by
  unfold validate
  constructor
  · intro h
    cases ho : c.compare x x with
    | error e => rw [ho] at h; cases h
    | ok o => exact reaches_self ho
  · intro h
    obtain ⟨o, ho, -⟩ := reaches_iff.1 h
    rw [ho]; rfl

end Comparator

namespace Fold

variable {c : Comparator}

/-- **A fold goes on** from the offset where its first one left off. -/
theorem ofOffsets_cons_eq_ok_iff {reached offset : String} {rest : List String} {fold : Fold} :
    ofOffsets c reached (offset :: rest) = .ok fold ↔
      ∃ o tail, c.compare offset reached = .ok o ∧
        ofOffsets c (if o = .gt then offset else reached) rest = .ok tail ∧
        fold = ⟨tail.highWater, (if o = .gt then .committed else .outdated) :: tail.outcomes⟩ := by
  constructor
  · intro h
    simp only [ofOffsets, bind, Except.bind, pure, Except.pure] at h
    split at h
    · cases h
    · next o ho =>
      split at h <;> next hgt =>
        split at h
        · cases h
        · next tail ht =>
          cases h
          exact ⟨o, tail, ho, by simpa only [hgt, if_true, if_false] using ht, by simp [hgt]⟩
  · rintro ⟨o, tail, ho, ht, rfl⟩
    simp only [ofOffsets, bind, Except.bind, pure, Except.pure, ho]
    split <;> next hgt =>
      simp only [hgt, if_true, if_false] at ht ⊢
      rw [ht]

theorem length_outcomes {reached : String} {offsets : List String} {fold : Fold}
    (h : ofOffsets c reached offsets = .ok fold) : fold.outcomes.length = offsets.length := by
  induction offsets generalizing reached fold with
  | nil => cases h; rfl
  | cons offset rest ih =>
    obtain ⟨o, tail, -, ht, rfl⟩ := ofOffsets_cons_eq_ok_iff.1 h
    simp [ih ht]

/-- **Where a fold ends**: strictly above its start if it committed an offset,
    and at its start if not. -/
theorem highWater_spec {reached : String} {offsets : List String} {fold : Fold}
    (h : ofOffsets c reached offsets = .ok fold) :
    if fold.advanced then c.compare fold.highWater reached = .ok .gt
      else fold.highWater = reached := by
  induction offsets generalizing reached fold with
  | nil => cases h; rfl
  | cons offset rest ih =>
    obtain ⟨o, tail, ho, ht, rfl⟩ := ofOffsets_cons_eq_ok_iff.1 h
    have ih := ih ht
    by_cases hgt : o = .gt
    · subst hgt
      simp only [advanced, if_true, List.contains_cons, beq_self_eq_true, Bool.true_or] at ih ⊢
      split at ih
      · exact Comparator.compare_gt_trans ih ho
      · rw [ih]; exact ho
    · simp only [hgt, if_false] at ih ⊢
      exact ih

theorem highWater_gt {reached : String} {offsets : List String} {fold : Fold}
    (h : ofOffsets c reached offsets = .ok fold) (ha : fold.advanced = true) :
    c.compare fold.highWater reached = .ok .gt := by
  have := highWater_spec h
  rwa [if_pos ha] at this

theorem highWater_reaches_start {reached : String} {offsets : List String} {fold : Fold}
    (h : ofOffsets c reached offsets = .ok fold) (hr : c.reaches reached reached = true) :
    c.reaches fold.highWater reached = true := by
  have hs := highWater_spec h
  split at hs
  · exact Comparator.reaches_of_gt hs
  · rw [hs]; exact hr

/-- **Where a fold ends, all its offsets are reached.** -/
theorem highWater_reaches {reached : String} {offsets : List String} {fold : Fold}
    (h : ofOffsets c reached offsets = .ok fold) {x : String} (hx : x ∈ offsets) :
    c.reaches fold.highWater x = true := by
  induction offsets generalizing reached fold with
  | nil => cases hx
  | cons offset rest ih =>
    obtain ⟨o, tail, ho, ht, rfl⟩ := ofOffsets_cons_eq_ok_iff.1 h
    show c.reaches tail.highWater x = true
    rcases List.mem_cons.1 hx with rfl | hx
    · by_cases hgt : o = .gt
      · rw [if_pos hgt] at ht
        exact highWater_reaches_start ht (Comparator.reaches_self ho)
      · rw [if_neg hgt] at ht
        have hself := Comparator.reaches_self (Comparator.compare_swap ho)
        exact Comparator.reaches_trans (highWater_reaches_start ht hself)
          (Comparator.reaches_of_not_gt ho hgt)
    · exact ih ht hx

/-- **Offsets that are reached already are all outdated.** -/
theorem ofOffsets_of_reaches {reached : String} {offsets : List String}
    (h : ∀ x ∈ offsets, c.reaches reached x = true) :
    ofOffsets c reached offsets = .ok ⟨reached, List.replicate offsets.length .outdated⟩ := by
  induction offsets with
  | nil => rfl
  | cons offset rest ih =>
    obtain ⟨hx, hrest⟩ := List.forall_mem_cons.1 h
    obtain ⟨o, ho, hgt⟩ := Comparator.not_gt_of_reaches hx
    refine ofOffsets_cons_eq_ok_iff.2 ⟨o, ⟨reached, List.replicate rest.length .outdated⟩, ho, ?_, ?_⟩
    · rw [if_neg hgt]; exact ih hrest
    · simp [hgt, List.replicate_succ]

end Fold

end CursorCommit

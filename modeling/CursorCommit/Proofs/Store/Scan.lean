/-
  Scans of a table by the start of its keys.

  The keys that start with a text follow one another in the order of keys, and
  the text itself would be right before them.  So a scan, which goes from there
  to the first key that starts otherwise, lists all entries whose keys start
  with the text and no others (`Table.scan_eq_filter`).
-/
import CursorCommit.Store.Table
import Mathlib.Data.List.Basic

namespace CursorCommit

/-! ## Texts with a common start -/

namespace Text

theorem not_lt_of_startsWith {start s : String} (h : startsWith start s = true) : ¬ s < start := by
  obtain ⟨rest, rfl⟩ := startsWith_iff.1 h
  rw [String.lt_iff, String.toList_append]
  induction start.toList with
  | nil => exact List.not_lt_nil _
  | cons c cs ih => simpa [List.cons_lt_cons_iff] using ih

/-- **What lies between** a start and a text that starts with it, starts with
    it too. -/
theorem startsWith_of_lt {start a b : String} (ha : ¬ a < start) (hab : a < b)
    (hb : startsWith start b = true) : startsWith start a = true := by
  rw [String.lt_iff] at ha hab
  unfold startsWith at hb ⊢
  generalize start.toList = cs, a.toList = as, b.toList = bs at ha hab hb ⊢
  induction cs generalizing as bs with
  | nil => rfl
  | cons c cs ih =>
    cases as with
    | nil => exact absurd (List.nil_lt_cons c cs) ha
    | cons d as =>
      cases bs with
      | nil => cases hb
      | cons e bs =>
        rw [List.isPrefixOf_cons_cons, Bool.and_eq_true, beq_iff_eq] at hb ⊢
        obtain ⟨rfl, hb⟩ := hb
        rw [List.cons_lt_cons_iff] at ha hab
        -- the first characters are equal, as they lie on both sides of each other
        have hd : d = c := hab.elim (fun hlt => absurd (Or.inl hlt) ha) And.left
        subst hd
        have has : as < bs := hab.elim (fun hlt => absurd hlt (Char.lt_irrefl d)) And.right
        exact ⟨rfl, ih as bs (fun hlt => ha (Or.inr ⟨rfl, hlt⟩)) has hb⟩

end Text

/-! ## Initial parts of lists -/

section
variable {α : Type} {p : α → Bool} {xs : List α}

/-- The elements with a property that passes down a list are its first
    ones. -/
theorem takeWhile_eq_filter (h : xs.Pairwise fun a b => p b = true → p a = true) :
    xs.takeWhile p = xs.filter p := by
  induction h with
  | nil => rfl
  | @cons a xs ha _ ih =>
    by_cases hp : p a = true
    · rw [List.takeWhile_cons_of_pos hp, List.filter_cons_of_pos hp, ih]
    · rw [List.takeWhile_cons_of_neg hp, List.filter_cons_of_neg hp, eq_comm,
        List.filter_eq_nil_iff]
      exact fun b hb hpb => hp (ha b hb hpb)

theorem dropWhile_eq_filter (h : xs.Pairwise fun a b => p b = true → p a = true) :
    xs.dropWhile p = xs.filter fun x => !p x := by
  induction h with
  | nil => rfl
  | @cons a xs ha _ ih =>
    by_cases hp : p a = true
    · rw [List.dropWhile_cons_of_pos hp, List.filter_cons_of_neg (by simp [hp]), ih]
    · rw [List.dropWhile_cons_of_neg hp, List.filter_cons_of_pos (by simp [hp]), eq_comm,
        List.cons_inj_right, List.filter_eq_self]
      intro b hb
      have := mt (ha b hb) hp
      simpa using this

end

/-! ## Scans -/

namespace Table

variable {α : Type} (t : Table α) (start : String)

/-- **A scan lists the entries whose keys start with the text.** -/
theorem scan_eq_filter : t.scan start = t.entries.filter fun e => Text.startsWith start e.1 := by
  have hdrop : (t.entries.dropWhile fun e => decide (e.1 < start)) =
      t.entries.filter fun e => !decide (e.1 < start) := by
    refine dropWhile_eq_filter (t.ascending.imp fun hab hb => ?_)
    exact decide_eq_true (String.lt_trans hab (of_decide_eq_true hb))
  unfold scan
  rw [hdrop, takeWhile_eq_filter, List.filter_filter]
  · refine List.filter_congr fun e _ => ?_
    by_cases hs : Text.startsWith start e.1 = true
    · simp [hs, Text.not_lt_of_startsWith hs]
    · simp [hs]
  · have hfrom : ∀ e ∈ t.entries.filter fun e => !decide (e.1 < start), ¬ e.1 < start := by
      intro e he
      simpa using (List.mem_filter.1 he).2
    refine List.Pairwise.imp_of_mem ?_ (t.ascending.filter _)
    intro a b ha _ hab hb
    exact Text.startsWith_of_lt (hfrom a ha) hab hb

theorem mem_scan_iff {t : Table α} {start key : String} {value : α} :
    (key, value) ∈ t.scan start ↔
      t.find? key = some value ∧ Text.startsWith start key = true := by
  rw [scan_eq_filter, List.mem_filter, mem_entries_iff]

theorem pairwise_scan : (t.scan start).Pairwise fun a b => a.1 < b.1 := by
  rw [scan_eq_filter]
  exact t.ascending.filter _

end Table

end CursorCommit

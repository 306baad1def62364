/-
  Padding and the comparators that compare numbers.

  Zeros on the left do not change a number, and a number may have them; but
  they leave no number if they come before a sign.  So the offset that is handed
  out for one of a comparator's form is again of this form, and equal to it,
  iff it needs no zeros or has no sign in front (`padOffset_spec`).
-/
import CursorCommit.Offset.Padding
import CursorCommit.Proofs.Lists
import CursorCommit.Proofs.Offset.Maximum

namespace CursorCommit

/-! ## Zeros before a numeral -/

namespace Text

theorem readDigits_eq_some_iff {cs : List Char} {n : Nat} : readDigits cs = some n ↔
    cs ≠ [] ∧ cs.all Char.isDigit = true ∧ Nat.ofDigitChars 10 cs 0 = n := by
  unfold readDigits
  split
  · next h => simp [h.1, h.2]
  · next h =>
    simp only [reduceCtorEq, false_iff]
    exact fun hn => h ⟨hn.1, hn.2.1⟩

theorem unsigned_of_head?_ne {cs : List Char} (h : cs.head? ≠ some '+') : unsigned cs = cs := by
  unfold unsigned
  split
  · exact absurd rfl h
  · rfl

/-- **Zeros before a numeral** leave its value, if it has no sign. -/
theorem readUnsigned_zeros {limit k n : Nat} {cs : List Char} (hk : k ≠ 0) (hcs : cs ≠ []) :
    readUnsigned limit (List.replicate k '0' ++ cs) = some n ↔
      cs.head? ≠ some '+' ∧ readUnsigned limit cs = some n := by
  obtain ⟨k, rfl⟩ := Nat.exists_eq_succ_of_ne_zero hk
  have hzeros : unsigned (List.replicate (k + 1) '0' ++ cs) = List.replicate (k + 1) '0' ++ cs :=
    unsigned_of_head?_ne (by simp [List.replicate_succ])
  have hdigits : (List.replicate (k + 1) '0' ++ cs).all Char.isDigit = cs.all Char.isDigit := by
    rw [List.all_append, List.all_replicate, if_neg (Nat.succ_ne_zero k),
      show Char.isDigit '0' = true from rfl, Bool.true_and]
  have hvalue : Nat.ofDigitChars 10 (List.replicate (k + 1) '0' ++ cs) 0 =
      Nat.ofDigitChars 10 cs 0 := by
    rw [Nat.ofDigitChars_append, Nat.ofDigitChars_replicate_zero, Nat.mul_zero]
  simp only [readUnsigned, Option.filter_eq_some_iff, hzeros, readDigits_eq_some_iff, hdigits,
    hvalue, decide_eq_true_eq]
  by_cases hsign : cs.head? = some '+'
  · -- a sign after zeros is no digit
    have hno : cs.all Char.isDigit = false := by
      cases cs with
      | nil => exact absurd rfl hcs
      | cons c cs =>
        cases hsign
        rfl
    simp [hsign, hno]
  · simp [unsigned_of_head?_ne hsign, hsign, hcs]

end Text

namespace Comparator

/-! ## The numbers of an offset -/

/-- The comparator compares numbers, and a zero does not part them. -/
def ByNumbers : Comparator → Prop
  | lexical => False
  | numeric => True
  | segmented separator => separator ≠ '0'

/-- What the comparator reads as one number each. -/
def numerals : Comparator → List Char → List (List Char)
  | segmented separator, cs => cs.splitOn separator
  | lexical, cs | numeric, cs => [cs]

variable {c : Comparator} {a b : String}

theorem compare_eq_eq_iff (h : c.ByNumbers) : c.compare a b = .ok .eq ↔
    ∃ ns, (c.numerals a.toList).mapM number = .ok ns ∧
      (c.numerals b.toList).mapM number = .ok ns := by
  cases c with
  | lexical => cases h
  | numeric =>
    simp only [numeric_eq_ok_iff, numerals, mapM_eq_ok_iff, List.forall₂_cons_left_iff,
      List.forall₂_nil_left_iff, Std.compare_eq_iff_eq]
    constructor
    · rintro ⟨m, _, hm, hn, rfl⟩
      exact ⟨[m], ⟨m, [], hm, rfl, rfl⟩, m, [], hn, rfl, rfl⟩
    · rintro ⟨_, ⟨m, _, hm, rfl, rfl⟩, n, _, hn, rfl, he⟩
      exact ⟨m, n, hm, hn, (List.cons.inj he).1⟩
  | segmented separator =>
    rw [segmented_eq_ok_iff]
    constructor
    · rintro ⟨ms, ns, hm, hn, -, ho⟩
      obtain rfl : ms = ns := Std.compare_eq_iff_eq.1 ho
      exact ⟨ms, hm, hn⟩
    · rintro ⟨ns, ha, hb⟩
      exact ⟨ns, ns, ha, hb, rfl, Std.ReflOrd.compare_self⟩

theorem validate_eq_ok_iff_numerals (h : c.ByNumbers) :
    c.validate a = .ok () ↔ ∃ ns, (c.numerals a.toList).mapM number = .ok ns := by
  rw [validate_eq_ok_iff]
  constructor
  · intro hr
    obtain ⟨ns, hns, -⟩ := (compare_eq_eq_iff h).1 (compare_eq_of_reaches hr hr)
    exact ⟨ns, hns⟩
  · rintro ⟨ns, hns⟩
    exact reaches_self ((compare_eq_eq_iff h).2 ⟨ns, hns, hns⟩)

theorem ne_empty_of_validate (h : c.ByNumbers) (ha : c.validate a = .ok ()) : a ≠ "" := by
  rintro rfl
  obtain ⟨ns, hns⟩ := (validate_eq_ok_iff_numerals h).1 ha
  cases c with
  | lexical => cases h
  | numeric | segmented separator => cases hns

theorem number_eq_ok_iff {cs : List Char} {n : Nat} :
    number cs = .ok n ↔ Text.readUnsigned Text.limit64 cs = some n := by
  unfold number
  cases Text.readUnsigned Text.limit64 cs <;> simp

theorem numerals_zeros (h : c.ByNumbers) (k : Nat) (cs : List Char) :
    c.numerals (List.replicate k '0' ++ cs) =
      (c.numerals cs).modifyHead (List.replicate k '0' ++ ·) := by
  cases c with
  | lexical => cases h
  | numeric => rfl
  | segmented separator =>
    have hno : ('0' == separator) = false := beq_eq_false_iff_ne.2 (Ne.symm h)
    simp only [numerals]
    induction k with
    | zero =>
      show cs.splitOn separator = (cs.splitOn separator).modifyHead id
      rw [List.modifyHead_id, id]
    | succ k ih =>
      rw [List.replicate_succ, List.cons_append, List.splitOn_cons_eq_if_modifyHead, hno,
        if_neg Bool.false_ne_true, ih, List.modifyHead_modifyHead]
      rfl

/-- The first numeral starts as the offset does, unless it is empty. -/
theorem exists_numerals_eq_cons (c : Comparator) (cs : List Char) :
    ∃ first rest, c.numerals cs = first :: rest ∧ (first ≠ [] → first.head? = cs.head?) := by
  cases c with
  | lexical | numeric => exact ⟨cs, [], rfl, fun _ => rfl⟩
  | segmented separator =>
    simp only [numerals]
    cases cs with
    | nil => exact ⟨[], [], rfl, fun _ => rfl⟩
    | cons x xs =>
      rw [List.splitOn_cons_eq_if_modifyHead]
      split
      · exact ⟨[], _, rfl, fun hne => absurd rfl hne⟩
      · obtain ⟨first, rest, he⟩ := List.exists_cons_of_ne_nil (List.splitOn_ne_nil separator xs)
        exact ⟨x :: first, rest, by rw [he, List.modifyHead_cons], fun _ => rfl⟩

theorem number_zeros {cs : List Char} {n k : Nat} (hk : k ≠ 0) (hcs : cs ≠ []) :
    number (List.replicate k '0' ++ cs) = .ok n ↔ cs.head? ≠ some '+' ∧ number cs = .ok n := by
  rw [number_eq_ok_iff, number_eq_ok_iff, Text.readUnsigned_zeros hk hcs]

/-- **Zeros on the left** leave the numbers of an offset, if it has no sign in
    front, and leave none if it has. -/
theorem mapM_numerals_zeros (h : c.ByNumbers) {k : Nat} (hk : k ≠ 0) {cs : List Char}
    {ns : List Nat} (hns : (c.numerals cs).mapM number = .ok ns) (ns' : List Nat) :
    (c.numerals (List.replicate k '0' ++ cs)).mapM number = .ok ns' ↔
      cs.head? ≠ some '+' ∧ ns' = ns := by
  obtain ⟨first, rest, he, hhead⟩ := c.exists_numerals_eq_cons cs
  rw [numerals_zeros h, he, List.modifyHead_cons]
  rw [he] at hns
  simp only [mapM_eq_ok_iff, List.forall₂_cons_left_iff] at hns ⊢
  obtain ⟨n, ms, hn, hms, rfl⟩ := hns
  have hne : first ≠ [] := by
    rintro rfl
    cases hn
  rw [← hhead hne]
  simp only [number_zeros hk hne, hn, Except.ok.injEq]
  constructor
  · rintro ⟨_, ms', ⟨hsign, rfl⟩, hms', rfl⟩
    rw [← mapM_eq_ok_iff] at hms hms'
    rw [hms] at hms'
    cases hms'
    exact ⟨hsign, rfl⟩
  · rintro ⟨hsign, rfl⟩
    exact ⟨n, ms, ⟨hsign, rfl⟩, hms, rfl⟩

end Comparator

/-! ## Padded offsets -/

/-- No sign of the offset gets zeros in front when it is padded. -/
def IsPaddable (width : Nat) (offset : String) : Prop :=
  width ≤ offset.length ∨ offset.toList.head? ≠ some '+'

instance (width : Nat) (offset : String) : Decidable (IsPaddable width offset) :=
  inferInstanceAs (Decidable (_ ∨ _))

theorem toList_padOffset (width : Nat) (offset : String) : (padOffset width offset).toList =
    List.replicate (width - offset.length) '0' ++ offset.toList := by
  rw [padOffset, String.toList_ofList, List.leftpad, String.length_toList]

theorem padOffset_ne_empty {offset : String} (h : offset ≠ "") (width : Nat) :
    padOffset width offset ≠ "" := by
  intro he
  have hlength := length_padOffset width offset
  rw [he, String.length_empty] at hlength
  exact h (String.length_eq_zero_iff.1 (by omega))

/-- **A padded offset** compares equal to the offset, or is not of the
    comparator's form if the zeros come before a sign. -/
theorem padOffset_spec {c : Comparator} (h : c.ByNumbers) {offset : String}
    (ho : c.validate offset = .ok ()) (width : Nat) :
    if IsPaddable width offset then c.compare (padOffset width offset) offset = .ok .eq
      else c.validate (padOffset width offset) ≠ .ok () := by
  obtain ⟨ns, hns⟩ := (Comparator.validate_eq_ok_iff_numerals h).1 ho
  by_cases hw : width ≤ offset.length
  · have hp : IsPaddable width offset := Or.inl hw
    rw [if_pos hp, padOffset_of_le hw, Comparator.compare_eq_eq_iff h]
    exact ⟨ns, hns, hns⟩
  · have hzeros := Comparator.mapM_numerals_zeros h (Nat.sub_ne_zero_of_lt (Nat.not_le.1 hw)) hns
    rw [← toList_padOffset] at hzeros
    split
    · next hp =>
      rw [Comparator.compare_eq_eq_iff h]
      exact ⟨ns, (hzeros ns).2 ⟨hp.resolve_left hw, rfl⟩, hns⟩
    · next hp =>
      rw [Ne, Comparator.validate_eq_ok_iff_numerals h]
      rintro ⟨ns', hns'⟩
      exact hp (Or.inr ((hzeros ns').1 hns').1)

end CursorCommit

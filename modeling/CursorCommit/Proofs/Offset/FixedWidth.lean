/-
  Offsets of a fixed width.

  Digits of one width are in the same order as text and as numbers
  (`Text.compare_ofDigitChars`); so comparators that compare text can stand in
  for ones that compare numbers, as long as the widths agree:

  * `padded_fold_agrees`: a lexical fold of padded offsets is the numeric fold
    of the offsets as they were;
  * `segmented_agrees_with_lexical`: offsets with fields of the same widths
    compare as text as they do field by field.
-/
import CursorCommit.Proofs.Offset.Padding
import CursorCommit.Proofs.Offset.RunningMaxima
import Mathlib.Algebra.Group.Nat.Defs

namespace CursorCommit

namespace Text

/-! ## The order of texts -/

theorem compare_toList (a b : String) : compare a.toList b.toList = compare a b := by
  show _ = compareOfLessAndEq a b
  simp only [compareOfLessAndEq, String.lt_iff, ← String.toList_inj]
  generalize a.toList = xs, b.toList = ys
  induction xs generalizing ys with
  | nil => cases ys <;> simp
  | cons x xs ih =>
    cases ys with
    | nil => simp
    | cons y ys =>
      rw [List.compare_cons_cons, ih]
      show (compareOfLessAndEq x y).then _ = _
      simp only [compareOfLessAndEq, List.cons_lt_cons_iff, List.cons.injEq]
      by_cases hlt : x < y
      · simp [hlt]
      · by_cases he : x = y <;> simp [hlt, he]

/-- After first parts of one length, these decide before the rest does. -/
theorem compare_append {α : Type} [Ord α] {xs ys : List α} (h : xs.length = ys.length)
    (xs' ys' : List α) :
    compare (xs ++ xs') (ys ++ ys') = (compare xs ys).then (compare xs' ys') := by
  induction xs generalizing ys with
  | nil =>
    obtain rfl := List.length_eq_zero_iff.1 h.symm
    simp
  | cons x xs ih =>
    cases ys with
    | nil => cases h
    | cons y ys =>
      simp only [List.cons_append, List.compare_cons_cons, Ordering.then_assoc]
      rw [ih (Nat.succ.inj h)]

/-! ## Digits -/

/-- The text consists of the digits of a number of 64 bits, and has no sign. -/
structure IsNumeral (text : String) : Prop where
  ne_empty : text ≠ ""
  digits : text.toList.all Char.isDigit = true
  small : Nat.ofDigitChars 10 text.toList 0 < limit64

instance : DecidablePred IsNumeral := fun text =>
  decidable_of_iff (text ≠ "" ∧ text.toList.all Char.isDigit = true ∧
    Nat.ofDigitChars 10 text.toList 0 < limit64)
    ⟨fun ⟨he, hd, hs⟩ => ⟨he, hd, hs⟩, fun ⟨he, hd, hs⟩ => ⟨he, hd, hs⟩⟩

theorem compare_mul_add {b m n l k : Nat} (hl : l < b) (hk : k < b) :
    compare (b * m + l) (b * n + k) = (compare m n).then (compare l k) := by
  cases hmn : compare m n with
  | lt =>
    have hle : b * (m + 1) ≤ b * n := Nat.mul_le_mul_left b (Nat.compare_eq_lt.1 hmn)
    rw [Nat.mul_succ] at hle
    exact Nat.compare_eq_lt.2 (by omega)
  | gt =>
    have hle : b * (n + 1) ≤ b * m := Nat.mul_le_mul_left b (Nat.compare_eq_gt.1 hmn)
    rw [Nat.mul_succ] at hle
    exact Nat.compare_eq_gt.2 (by omega)
  | eq =>
    obtain rfl := Nat.compare_eq_eq.1 hmn
    rw [Ordering.eq_then]
    cases hlk : compare l k with
    | lt => exact Nat.compare_eq_lt.2 (Nat.add_lt_add_left (Nat.compare_eq_lt.1 hlk) _)
    | gt => exact Nat.compare_eq_gt.2 (Nat.add_lt_add_left (Nat.compare_eq_gt.1 hlk) _)
    | eq => exact Nat.compare_eq_eq.2 (congrArg _ (Nat.compare_eq_eq.1 hlk))

theorem compare_digit {x y : Char} (hx : x.isDigit = true) (hy : y.isDigit = true) :
    compare (x.toNat - '0'.toNat) (y.toNat - '0'.toNat) = compare x y := by
  have hx := (Char.isDigit_iff_toNat.1 hx).1
  have hy := (Char.isDigit_iff_toNat.1 hy).1
  have hlt : x < y ↔ x.toNat - '0'.toNat < y.toNat - '0'.toNat := by
    rw [Char.lt_def, UInt32.lt_iff_toNat_lt, Char.toNat_val, Char.toNat_val]
    omega
  have heq : x = y ↔ x.toNat - '0'.toNat = y.toNat - '0'.toNat := by
    rw [← Char.toNat_inj]
    omega
  show compareOfLessAndEq _ _ = compareOfLessAndEq x y
  simp only [compareOfLessAndEq, hlt, heq]

theorem ofDigitChars_cons_eq (x : Char) (xs : List Char) : Nat.ofDigitChars 10 (x :: xs) 0 =
    10 ^ xs.length * (x.toNat - '0'.toNat) + Nat.ofDigitChars 10 xs 0 := by
  rw [Nat.ofDigitChars_cons, Nat.ofDigitChars_eq_ofDigitChars_zero, Nat.mul_zero, Nat.zero_add]

theorem ofDigitChars_lt {xs : List Char} (h : xs.all Char.isDigit = true) :
    Nat.ofDigitChars 10 xs 0 < 10 ^ xs.length := by
  induction xs with
  | nil => simp
  | cons x xs ih =>
    rw [List.all_cons, Bool.and_eq_true] at h
    have hnine : x.toNat ≤ '0'.toNat + 9 := (Char.isDigit_iff_toNat.1 h.1).2
    have hdigit : 10 ^ xs.length * (x.toNat - '0'.toNat) ≤ 10 ^ xs.length * 9 :=
      Nat.mul_le_mul_left _ (by omega)
    have hrest := ih h.2
    rw [ofDigitChars_cons_eq, List.length_cons, Nat.pow_succ]
    omega

/-- **Digits of one width** are in the order of their values. -/
theorem compare_ofDigitChars {xs ys : List Char} (hl : xs.length = ys.length)
    (hx : xs.all Char.isDigit = true) (hy : ys.all Char.isDigit = true) :
    compare (Nat.ofDigitChars 10 xs 0) (Nat.ofDigitChars 10 ys 0) = compare xs ys := by
  induction xs generalizing ys with
  | nil =>
    obtain rfl := List.length_eq_zero_iff.1 hl.symm
    simp
  | cons x xs ih =>
    cases ys with
    | nil => cases hl
    | cons y ys =>
      rw [List.all_cons, Bool.and_eq_true] at hx hy
      have hl : xs.length = ys.length := Nat.succ.inj hl
      rw [ofDigitChars_cons_eq, ofDigitChars_cons_eq, hl,
        compare_mul_add (hl ▸ ofDigitChars_lt hx.2) (ofDigitChars_lt hy.2), ih hl hx.2 hy.2,
        compare_digit hx.1 hy.1, List.compare_cons_cons]

end Text

open Text (IsNumeral)

namespace Comparator

theorem number_of_isNumeral {text : String} (h : IsNumeral text) :
    number text.toList = .ok (Nat.ofDigitChars 10 text.toList 0) := by
  have hne : text.toList ≠ [] := by simpa using h.ne_empty
  have hsign : text.toList.head? ≠ some '+' := by
    intro hplus
    have hmem : '+' ∈ text.toList := List.mem_of_mem_head? (Option.mem_def.2 hplus)
    exact absurd (List.all_eq_true.1 h.digits _ hmem) (by decide)
  rw [number_eq_ok_iff, Text.readUnsigned, Text.unsigned_of_head?_ne hsign,
    Option.filter_eq_some_iff, Text.readDigits_eq_some_iff]
  exact ⟨⟨hne, h.digits, rfl⟩, decide_eq_true h.small⟩

theorem numeric_of_isNumeral {a b : String} (ha : IsNumeral a) (hb : IsNumeral b) :
    numeric.compare a b =
      .ok (Ord.compare (Nat.ofDigitChars 10 a.toList 0) (Nat.ofDigitChars 10 b.toList 0)) :=
  numeric_eq_ok_iff.2 ⟨_, _, number_of_isNumeral ha, number_of_isNumeral hb, rfl⟩

/-! ## Padded offsets -/

/-- **Padded digits** are in the order of the numbers. -/
theorem lexical_padOffset {width : Nat} {a b : String} (ha : IsNumeral a) (hb : IsNumeral b)
    (hla : a.length ≤ width) (hlb : b.length ≤ width) :
    lexical.compare (padOffset width a) (padOffset width b) = numeric.compare a b := by
  have hdigits {x : String} (hx : IsNumeral x) :
      (padOffset width x).toList.all Char.isDigit = true := by
    rw [toList_padOffset, List.all_append, hx.digits, Bool.and_true, List.all_replicate]
    split <;> rfl
  have hvalue (x : String) : Nat.ofDigitChars 10 (padOffset width x).toList 0 =
      Nat.ofDigitChars 10 x.toList 0 := by
    rw [toList_padOffset, Nat.ofDigitChars_append, Nat.ofDigitChars_replicate_zero, Nat.mul_zero]
  have hwidth {x : String} (hx : x.length ≤ width) :
      (padOffset width x).toList.length = width := by
    rw [String.length_toList, length_padOffset, Nat.max_eq_left hx]
  rw [numeric_of_isNumeral ha hb, ← hvalue a, ← hvalue b, Text.compare_ofDigitChars
    ((hwidth hla).trans (hwidth hlb).symm) (hdigits ha) (hdigits hb), Text.compare_toList]
  rfl

end Comparator

namespace Fold

/-- **A fold of offsets in another form** ends the same way, in an order that
    agrees on them. -/
theorem ofOffsets_map {c c' : Comparator} {f : String → String} {P : String → Prop}
    (hf : ∀ x y, P x → P y → c'.compare (f x) (f y) = c.compare x y) {reached : String}
    {offsets : List String} (hr : P reached) (ho : ∀ x ∈ offsets, P x) {fold : Fold}
    (h : ofOffsets c reached offsets = .ok fold) :
    ofOffsets c' (f reached) (offsets.map f) = .ok ⟨f fold.highWater, fold.outcomes⟩ := by
  induction offsets generalizing reached fold with
  | nil => cases h; rfl
  | cons offset rest ih =>
    obtain ⟨ho, hrest⟩ := List.forall_mem_cons.1 ho
    obtain ⟨o, tail, hc, ht, rfl⟩ := ofOffsets_cons_eq_ok_iff.1 h
    have hnext : P (if o = .gt then offset else reached) := by split <;> assumption
    refine ofOffsets_cons_eq_ok_iff.2 ⟨o, ⟨f tail.highWater, tail.outcomes⟩, ?_, ?_, rfl⟩
    · rw [hf offset reached ho hr, hc]
    · rw [← apply_ite f]
      exact ih hnext hrest ht

/-- **Padded offsets are in the order of the numbers.**  Offsets that are digits
    of 64 bits, and not wider than the width, compare padded and as text as they
    do unpadded and as numbers; and a fold of them padded has the outcomes of
    the fold of the numbers, and ends at the padded offset where that one
    ends. -/
theorem padded_fold_agrees (width : Nat) :
    (∀ a b, IsNumeral a → IsNumeral b → a.length ≤ width → b.length ≤ width →
      ∃ o, Comparator.numeric.compare a b = .ok o ∧
        Comparator.lexical.compare (padOffset width a) (padOffset width b) = .ok o) ∧
    ∀ reached offsets, (∀ x ∈ reached :: offsets, IsNumeral x ∧ x.length ≤ width) →
      ∃ fold, ofOffsets .numeric reached offsets = .ok fold ∧
        ofOffsets .lexical (padOffset width reached) (offsets.map (padOffset width)) =
          .ok ⟨padOffset width fold.highWater, fold.outcomes⟩ := by
  constructor
  · intro a b ha hb hla hlb
    have ho := Comparator.numeric_of_isNumeral ha hb
    exact ⟨_, ho, (Comparator.lexical_padOffset ha hb hla hlb).trans ho⟩
  · intro reached offsets hall
    obtain ⟨hr, ho⟩ := List.forall_mem_cons.1 hall
    obtain ⟨fold, hfold⟩ := exists_ofOffsets_iff.2 fun x hx =>
      ⟨_, Comparator.numeric_of_isNumeral (ho x hx).1 hr.1⟩
    have hagree : ∀ x y, IsNumeral x ∧ x.length ≤ width → IsNumeral y ∧ y.length ≤ width →
        Comparator.lexical.compare (padOffset width x) (padOffset width y) =
          Comparator.numeric.compare x y :=
      fun x y hx hy => Comparator.lexical_padOffset hx.1 hy.1 hx.2 hy.2
    exact ⟨fold, hfold, ofOffsets_map hagree hr ho hfold⟩

/-- Leading zeros, and the greatest number of 64 bits. -/
theorem greatest_offset_padded :
    (∀ x ∈ ["007", "7", "18446744073709551615", "0000000000000000010"],
      IsNumeral x ∧ x.length ≤ 20) ∧
    ∃ fold, ofOffsets .numeric "007" ["7", "18446744073709551615", "0000000000000000010"] =
        .ok fold ∧
      fold = ⟨"18446744073709551615", [.outdated, .committed, .outdated]⟩ ∧
      ofOffsets .lexical "00000000000000000007"
          ["00000000000000000007", "18446744073709551615", "00000000000000000010"] =
        .ok ⟨padOffset 20 fold.highWater, fold.outcomes⟩ := by
  have hall : ∀ x ∈ ["007", "7", "18446744073709551615", "0000000000000000010"],
      IsNumeral x ∧ x.length ≤ 20 := by decide +kernel
  obtain ⟨fold, hfold, hpadded⟩ := (padded_fold_agrees 20).2 _ _ hall
  have hvalue : ofOffsets .numeric "007" ["7", "18446744073709551615", "0000000000000000010"] =
      .ok ⟨"18446744073709551615", [.outdated, .committed, .outdated]⟩ := by decide +kernel
  refine ⟨hall, fold, hfold, Except.ok.inj (hfold.symm.trans hvalue), ?_⟩
  rw [← hpadded]
  decide +kernel

end Fold

/-! ## Fields of fixed widths -/

namespace Comparator

/-- The fields are digits of one width. -/
structure SameWidth (f g : String) : Prop where
  left : IsNumeral f
  right : IsNumeral g
  width : f.length = g.length

/-- The offset is made of these fields, at least one, with the separator
    between them. -/
structure IsMadeOf (separator : Char) (fs : List String) (offset : String) : Prop where
  ne_nil : fs ≠ []
  joined : offset = (String.singleton separator).intercalate fs

variable {separator : Char} {fs gs : List String} {a b : String}

theorem SameWidth.length_eq {f g : String} (h : SameWidth f g) :
    f.toList.length = g.toList.length := by
  rw [String.length_toList, String.length_toList, h.width]

theorem SameWidth.compare_eq {f g : String} (h : SameWidth f g) :
    Ord.compare (Nat.ofDigitChars 10 f.toList 0) (Nat.ofDigitChars 10 g.toList 0) =
      Ord.compare f.toList g.toList :=
  Text.compare_ofDigitChars h.length_eq h.left.digits h.right.digits

theorem IsMadeOf.fields_eq (h : IsMadeOf separator fs a) (hs : separator.isDigit = false)
    (hfs : ∀ f ∈ fs, IsNumeral f) :
    fields separator a = .ok (fs.map fun f => Nat.ofDigitChars 10 f.toList 0) := by
  have hsplit : a.toList.splitOn separator = fs.map String.toList := by
    rw [h.joined, String.toList_intercalate, String.toList_singleton]
    refine List.splitOn_intercalate separator ?_ (by simpa using h.ne_nil)
    intro cs hcs hmem
    obtain ⟨f, hf, rfl⟩ := List.mem_map.1 hcs
    rw [List.all_eq_true.1 (hfs f hf).digits _ hmem] at hs
    cases hs
  rw [fields, hsplit, mapM_eq_ok_iff, List.forall₂_map_left_iff, List.forall₂_map_right_iff,
    List.forall₂_same]
  exact fun f hf => number_of_isNumeral (hfs f hf)

/-- **Fields of the same widths** keep the separators side by side, so that the
    first fields which differ decide over the texts. -/
theorem compare_joined (h : List.Forall₂ SameWidth fs gs) :
    Ord.compare ((String.singleton separator).intercalate fs)
        ((String.singleton separator).intercalate gs) =
      Ord.compare (fs.map fun f => Nat.ofDigitChars 10 f.toList 0)
        (gs.map fun g => Nat.ofDigitChars 10 g.toList 0) := by
  simp only [← Text.compare_toList, String.toList_intercalate, String.toList_singleton]
  induction h with
  | nil => simp
  | @cons f g fs gs hfg hrest ih =>
    cases hrest with
    | nil => simp [hfg.compare_eq]
    | cons =>
      simp only [List.map_cons, List.intercalate_cons_cons, List.append_assoc] at ih ⊢
      rw [Text.compare_append hfg.length_eq, List.compare_cons_cons, hfg.compare_eq, ← ih]
      simp

/-- **Offsets with fields of the same widths** compare as text as they do field
    by field, for any separator that is no digit. -/
theorem segmented_agrees_with_lexical (hs : separator.isDigit = false)
    (ha : IsMadeOf separator fs a) (hb : IsMadeOf separator gs b)
    (h : List.Forall₂ SameWidth fs gs) :
    ∃ o, (segmented separator).compare a b = .ok o ∧ lexical.compare a b = .ok o := by
  have hfs : ∀ f ∈ fs, IsNumeral f := by
    intro f hf
    obtain ⟨g, -, hfg⟩ := forall₂_mem_left h hf
    exact hfg.left
  have hgs : ∀ g ∈ gs, IsNumeral g := by
    intro g hg
    obtain ⟨f, -, hfg⟩ := forall₂_mem_right h hg
    exact hfg.right
  refine ⟨_, segmented_eq_ok_iff.2 ⟨_, _, ha.fields_eq hs hfs, hb.fields_eq hs hgs, ?_, rfl⟩, ?_⟩
  · rw [List.length_map, List.length_map, h.length_eq]
  · rw [compare, ha.joined, hb.joined, compare_joined h]

/-- A separator that is a sign elsewhere. -/
theorem signs_between_fields_agree :
    ('+').isDigit = false ∧
      IsMadeOf '+' ["007", "18446744073709551615"] "007+18446744073709551615" ∧
      IsMadeOf '+' ["012", "00000000000000000009"] "012+00000000000000000009" ∧
      List.Forall₂ SameWidth ["007", "18446744073709551615"] ["012", "00000000000000000009"] ∧
      ∃ o, (segmented '+').compare "007+18446744073709551615" "012+00000000000000000009" = .ok o ∧
        lexical.compare "007+18446744073709551615" "012+00000000000000000009" = .ok o ∧
          o = .lt := by
  have ha : IsMadeOf '+' ["007", "18446744073709551615"] "007+18446744073709551615" :=
    ⟨nofun, by decide +kernel⟩
  have hb : IsMadeOf '+' ["012", "00000000000000000009"] "012+00000000000000000009" :=
    ⟨nofun, by decide +kernel⟩
  have h : List.Forall₂ SameWidth ["007", "18446744073709551615"]
      ["012", "00000000000000000009"] :=
    .cons ⟨by decide +kernel, by decide +kernel, by decide +kernel⟩
      (.cons ⟨by decide +kernel, by decide +kernel, by decide +kernel⟩ .nil)
  obtain ⟨o, hsegmented, hlexical⟩ := segmented_agrees_with_lexical (by decide) ha hb h
  have hvalue : lexical.compare "007+18446744073709551615" "012+00000000000000000009" =
      .ok .lt := by decide +kernel
  exact ⟨by decide, ha, hb, h, o, hsegmented, hlexical, Except.ok.inj (hlexical.symm.trans hvalue)⟩

end Comparator

end CursorCommit

/-
  Parting a text at a separator.

  * `partAtFirst sep cs` cuts `cs` at the first occurrence of `sep`, and
    `partAtFirst_eq_some_iff` says which one is the first;
  * `startsWith p s` and `afterStart p s` speak of the start of a text, and
    `beforeEnd? p s` removes an end from it.
-/

namespace CursorCommit.Text

/-- What stands before and after the first occurrence of `sep`. -/
def partAtFirst (sep : List Char) : List Char → Option (List Char × List Char)
  | [] => if sep = [] then some ([], []) else none
  | c :: cs =>
    if sep.isPrefixOf (c :: cs) then some ([], (c :: cs).drop sep.length)
    else (partAtFirst sep cs).map fun (before, after) => (c :: before, after)

/-- Whether the text `s` starts with `start`. -/
def startsWith (start s : String) : Bool :=
  start.toList.isPrefixOf s.toList

/-- What is left of `s` after as many characters as `start` has. -/
def afterStart (start s : String) : String :=
  String.ofList (s.toList.drop start.toList.length)

/-- What stands before `ending`, if the text ends with it. -/
def beforeEnd? (ending s : String) : Option String :=
  if ending.toList.isSuffixOf s.toList then
    some (String.ofList (s.toList.take (s.toList.length - ending.toList.length)))
  else none

theorem partAtFirst_of_isPrefix {sep : List Char} {c : Char} {cs : List Char}
    (h : sep <+: c :: cs) :
    partAtFirst sep (c :: cs) = some ([], (c :: cs).drop sep.length) := by
  rw [partAtFirst, if_pos (List.isPrefixOf_iff_prefix.2 h)]

theorem partAtFirst_cons_eq_some_iff {sep before after : List Char} {c : Char} {cs : List Char}
    (h : ¬ sep <+: c :: cs) :
    partAtFirst sep (c :: cs) = some (before, after) ↔
      ∃ rest, before = c :: rest ∧ partAtFirst sep cs = some (rest, after) := by
  rw [partAtFirst, if_neg (mt List.isPrefixOf_iff_prefix.1 h), Option.map_eq_some_iff]
  constructor
  · rintro ⟨⟨rest, _⟩, hrest, he⟩
    cases he
    exact ⟨rest, rfl, hrest⟩
  · rintro ⟨rest, rfl, hrest⟩
    exact ⟨(rest, after), hrest, rfl⟩

/-- **A text is cut at the first separator**: what stands before it, with all
    of the separator but its last character, does not contain another. -/
theorem partAtFirst_eq_some_iff {sep cs before after : List Char} (hsep : sep ≠ []) :
    partAtFirst sep cs = some (before, after) ↔
      cs = before ++ sep ++ after ∧ ¬ sep <:+: before ++ sep.dropLast := by
  have hlength : sep.length = sep.dropLast.length + 1 := by
    have := List.length_pos_iff.2 hsep
    rw [List.length_dropLast]
    omega
  have hstarts : ∀ before, before ++ sep.dropLast <+: before ++ sep ++ after := fun before =>
    ((List.prefix_append_right_inj _).2 (List.dropLast_prefix sep)).trans (List.prefix_append _ _)
  induction cs generalizing before with
  | nil => simp [partAtFirst, hsep]
  | cons c cs ih =>
    by_cases hp : sep <+: c :: cs
    · obtain ⟨rest, hrest⟩ := hp
      rw [partAtFirst_of_isPrefix ⟨rest, hrest⟩]
      constructor
      · intro h
        cases h
        refine ⟨by simp [← hrest], fun hin => ?_⟩
        have : sep.length ≤ sep.dropLast.length := hin.length_le
        omega
      · rintro ⟨he, hno⟩
        cases before with
        | nil => simp [he]
        | cons d before =>
          -- the separator at the front lies in what stands before the cut
          refine absurd (List.IsPrefix.isInfix ?_) hno
          refine List.prefix_of_prefix_length_le ⟨rest, hrest⟩ (he ▸ hstarts (d :: before)) ?_
          simp only [List.length_append, List.length_cons]
          omega
    · rw [partAtFirst_cons_eq_some_iff hp]
      constructor
      · rintro ⟨before, rfl, h⟩
        obtain ⟨rfl, hno⟩ := ih.1 h
        refine ⟨rfl, fun hin => ?_⟩
        rcases List.infix_cons_iff.1 hin with hpre | hin
        · exact hp (hpre.trans (hstarts (c :: before)))
        · exact hno hin
      · rintro ⟨he, hno⟩
        cases before with
        | nil => exact absurd ⟨after, he.symm⟩ hp
        | cons d before =>
          obtain ⟨rfl, rfl⟩ := List.cons.inj he
          exact ⟨before, rfl, ih.2 ⟨rfl, fun hin => hno (List.infix_cons_iff.2 (Or.inr hin))⟩⟩

theorem startsWith_iff {start s : String} :
    startsWith start s = true ↔ ∃ rest, s = start ++ rest := by
  simp only [startsWith, List.isPrefixOf_iff_prefix]
  constructor
  · rintro ⟨rest, h⟩
    exact ⟨String.ofList rest, String.toList_inj.1 (by simp [← h])⟩
  · rintro ⟨rest, rfl⟩
    simp

@[simp] theorem startsWith_append (start rest : String) : startsWith start (start ++ rest) = true :=
  startsWith_iff.2 ⟨rest, rfl⟩

@[simp] theorem afterStart_append (start rest : String) :
    afterStart start (start ++ rest) = rest := by
  simp [afterStart]

theorem beforeEnd?_eq_some_iff {ending s rest : String} :
    beforeEnd? ending s = some rest ↔ s = rest ++ ending := by
  unfold beforeEnd?
  constructor
  · intro h
    split at h
    · next hs =>
      obtain ⟨t, ht⟩ := List.isSuffixOf_iff_suffix.1 hs
      simp only [Option.some.injEq] at h
      subst h
      apply String.toList_inj.1
      simp [← ht]
    · cases h
  · rintro rfl
    simp

end CursorCommit.Text

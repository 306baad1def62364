/-
  Keys, level by level.

  Below the root a key is spelled by its levels, with slashes between them
  (`resolve_eq`).  Names that may stand in a key have no slash, so the levels
  of a key can be read back, and with them the key: two checked keys that are
  spelled alike are the same, of whatever kinds they are (`resolve_inj`).
-/
import CursorCommit.Proofs.Key

namespace CursorCommit

theorem Name.notMem_of_checkIdentifier {name : String} (h : checkIdentifier name = .ok ())
    {c : Char} (hc : isIdentifierChar c = false) : c ∉ name.toList := by
  unfold checkIdentifier at h
  split_ifs at h with _ hall
  intro hm
  exact Bool.eq_false_iff.1 hc (List.all_eq_true.1 hall c hm)

theorem Name.slash_notMem_of_checkIdentifier {name : String}
    (h : checkIdentifier name = .ok ()) : '/' ∉ name.toList :=
  notMem_of_checkIdentifier h (by decide)

theorem Name.ne_empty_of_checkSegment {name : String} (h : checkSegment name = .ok ()) :
    name ≠ "" := by
  rintro rfl
  cases h

namespace Key

variable {root : String} {k k' : Key}

/-- The names of the key may stand in it. -/
def Checked : Key → Prop
  | offset s t p | assignment s t p => Name.checkIdentifier s = .ok () ∧
      Name.checkSegment t = .ok () ∧ Name.checkSegment p = .ok ()
  | topic s t => Name.checkIdentifier s = .ok () ∧ Name.checkSegment t = .ok ()
  | session s n => Name.checkIdentifier s = .ok () ∧ Name.checkIdentifier n = .ok ()

/-- The levels of the key below the subscriptions; the last one of a topic is
    empty. -/
def levels : Key → List String
  | offset s t p => [s, "topics", t, p, "offset"]
  | assignment s t p => [s, "topics", t, p]
  | topic s t => [s, "topics", t, ""]
  | session s n => [s, "sessions", n]

/-- **A key is spelled by its levels.** -/
theorem resolve_eq (root : String) (k : Key) :
    k.resolve root = root ++ "subscriptions/" ++ "/".intercalate k.levels := by
  cases k <;> simp [resolve, levels, offsetEnding, ← String.toList_inj]

theorem levels_ne_nil (k : Key) : k.levels ≠ [] := by
  cases k <;> exact List.cons_ne_nil _ _

theorem Checked.slash_notMem (h : k.Checked) : ∀ level ∈ k.levels, '/' ∉ level.toList := by
  cases k with
  | offset s t p | assignment s t p =>
    obtain ⟨hs, ht, hp⟩ := h
    simp [levels, Name.slash_notMem_of_checkIdentifier hs,
      Name.slash_notMem_of_checkSegment ht, Name.slash_notMem_of_checkSegment hp]
  | topic s t =>
    obtain ⟨hs, ht⟩ := h
    simp [levels, Name.slash_notMem_of_checkIdentifier hs,
      Name.slash_notMem_of_checkSegment ht]
  | session s n =>
    obtain ⟨hs, hn⟩ := h
    simp [levels, Name.slash_notMem_of_checkIdentifier hs,
      Name.slash_notMem_of_checkIdentifier hn]

/-- The levels can be read back, as they have no slash. -/
theorem splitOn_levels (h : ∀ level ∈ k.levels, '/' ∉ level.toList) :
    ("/".intercalate k.levels).toList.splitOn '/' = k.levels.map String.toList := by
  rw [String.toList_intercalate]
  refine List.splitOn_intercalate '/' ?_ (by simpa using k.levels_ne_nil)
  intro cs hcs
  obtain ⟨level, hlevel, rfl⟩ := List.mem_map.1 hcs
  exact h level hlevel

theorem levels_eq_of_resolve_eq (h : ∀ level ∈ k.levels, '/' ∉ level.toList)
    (h' : ∀ level ∈ k'.levels, '/' ∉ level.toList) (he : k.resolve root = k'.resolve root) :
    k.levels = k'.levels := by
  rw [resolve_eq, resolve_eq, String.append_right_inj] at he
  refine List.map_injective_iff.2 (fun _ _ => String.toList_injective) ?_
  rw [← splitOn_levels h, ← splitOn_levels h', he]

/-- The levels tell the kind of a key and its names: a partition is not
    empty. -/
theorem Checked.levels_inj (h : k.Checked) (h' : k'.Checked) (he : k.levels = k'.levels) :
    k = k' := by
  cases k <;> cases k' <;> simp only [levels, List.cons.injEq, reduceCtorEq, and_false, and_true,
    true_and, String.reduceEq] at he
  case offset.offset | assignment.assignment => obtain ⟨rfl, rfl, rfl⟩ := he; rfl
  case topic.topic | session.session => obtain ⟨rfl, rfl⟩ := he; rfl
  case assignment.topic => exact absurd he.2.2 (Name.ne_empty_of_checkSegment h.2.2)
  case topic.assignment => exact absurd he.2.2.symm (Name.ne_empty_of_checkSegment h'.2.2)

/-- **A key can be read back** from its spelling. -/
theorem resolve_inj (h : k.Checked) (h' : k'.Checked) (he : k.resolve root = k'.resolve root) :
    k = k' :=
  h.levels_inj h' (levels_eq_of_resolve_eq h.slash_notMem h'.slash_notMem he)

end Key

end CursorCommit

/-
  Keys differ: those of the offsets, and those of the assignments, of different
  partitions, if their topics may stand in a key; those of an offset and of an
  assignment, if the partitions may too; and session keys from all of these.
-/
import CursorCommit.Name
import CursorCommit.Offset.Stored
import CursorCommit.Ownership
import Mathlib.Data.List.Basic

namespace CursorCommit

theorem Text.eq_and_eq_of_append_cons {c : Char} {a b x y : List Char} (ha : c ∉ a) (hb : c ∉ b)
    (h : a ++ c :: x = b ++ c :: y) : a = b ∧ x = y := by
  induction a generalizing b with
  | nil =>
    cases b with
    | nil => exact ⟨rfl, (List.cons.inj h).2⟩
    | cons d b => rw [(List.cons.inj h).1] at hb; exact absurd List.mem_cons_self hb
  | cons d a ih =>
    cases b with
    | nil => rw [← (List.cons.inj h).1] at ha; exact absurd List.mem_cons_self ha
    | cons d' b =>
      obtain ⟨rfl, h'⟩ := List.cons.inj h
      obtain ⟨rfl, rfl⟩ := ih (List.not_mem_of_not_mem_cons ha) (List.not_mem_of_not_mem_cons hb) h'
      exact ⟨rfl, rfl⟩

theorem Name.slash_notMem_of_checkSegment {name : String} (h : checkSegment name = .ok ()) :
    '/' ∉ name.toList := by
  unfold checkSegment at h
  split_ifs at h with _ _ hb
  intro hm
  exact hb (List.any_eq_true.2 ⟨'/', hm, rfl⟩)

/-- **An assignment key** tells the topic from the partition: a topic has no
    slash. -/
theorem Key.assignment_resolve_inj {root s t p t' p' : String} (ht : '/' ∉ t.toList)
    (ht' : '/' ∉ t'.toList)
    (h : (assignment s t p).resolve root = (assignment s t' p').resolve root) : t = t' ∧ p = p' := by
  have h := congrArg String.toList h
  simp only [resolve, String.toList_append, List.append_assoc, List.append_cancel_left_eq] at h
  have slash : "/".toList = ['/'] := rfl
  rw [slash, List.singleton_append, List.singleton_append] at h
  obtain ⟨h₁, h₂⟩ := Text.eq_and_eq_of_append_cons ht ht' h
  exact ⟨String.toList_inj.1 h₁, String.toList_inj.1 h₂⟩

/-- **A session key** is not below the topics of its subscription. -/
theorem Key.session_resolve_ne_assignment (root s n t p : String) :
    (session s n).resolve root ≠ (assignment s t p).resolve root := by
  intro h
  have h := congrArg String.toList h
  simp only [resolve, String.toList_append, List.append_assoc, List.append_cancel_left_eq] at h
  cases h

namespace Coordinator

variable {c : Coordinator} {s : String} {tp tp' : TopicPartition}

/-- An offset key reads as that of the assignment of a partition whose name
    ends like an offset key. -/
theorem offsetKey_eq_assignmentKey (c : Coordinator) (s : String) (tp : TopicPartition) :
    c.offsetKey s tp = c.assignmentKey s ⟨tp.topic, tp.partition ++ Key.offsetEnding⟩ := by
  simp only [offsetKey, assignmentKey, Key.resolve, String.append_assoc]

theorem assignmentKey_inj (h : Name.checkSegment tp.topic = .ok ())
    (h' : Name.checkSegment tp'.topic = .ok ())
    (he : c.assignmentKey s tp = c.assignmentKey s tp') : tp = tp' := by
  obtain ⟨t, p⟩ := tp
  obtain ⟨t', p'⟩ := tp'
  obtain ⟨rfl, rfl⟩ := Key.assignment_resolve_inj (Name.slash_notMem_of_checkSegment h)
    (Name.slash_notMem_of_checkSegment h') he
  rfl

theorem offsetKey_inj (h : Name.checkSegment tp.topic = .ok ())
    (h' : Name.checkSegment tp'.topic = .ok ()) (he : c.offsetKey s tp = c.offsetKey s tp') :
    tp = tp' := by
  obtain ⟨t, p⟩ := tp
  obtain ⟨t', p'⟩ := tp'
  rw [offsetKey_eq_assignmentKey, offsetKey_eq_assignmentKey] at he
  have htp : (⟨t, p ++ Key.offsetEnding⟩ : TopicPartition) = ⟨t', p' ++ Key.offsetEnding⟩ :=
    assignmentKey_inj h h' he
  obtain ⟨rfl, hp⟩ := TopicPartition.mk.inj htp
  rw [String.append_left_inj] at hp
  rw [hp]

theorem assignmentKey_ne_offsetKey (c : Coordinator) (s : String) (tp : TopicPartition) :
    c.assignmentKey s tp ≠ c.offsetKey s tp := by
  intro h
  have h : c.assignmentKey s tp = c.assignmentKey s tp ++ Key.offsetEnding := h
  have := congrArg String.length h
  rw [String.length_append, show Key.offsetEnding.length = 7 from rfl] at this
  omega

/-- The assignment of one partition is not at the offset of another, as a
    partition has no slash. -/
theorem assignmentKey_ne_offsetKey_of_checked (h : Name.checkSegment tp.topic = .ok ())
    (hp : Name.checkSegment tp.partition = .ok ()) (h' : Name.checkSegment tp'.topic = .ok ()) :
    c.assignmentKey s tp ≠ c.offsetKey s tp' := by
  intro he
  rw [offsetKey_eq_assignmentKey] at he
  have htp : tp = ⟨tp'.topic, tp'.partition ++ Key.offsetEnding⟩ := assignmentKey_inj h h' he
  refine Name.slash_notMem_of_checkSegment hp ?_
  rw [htp, String.toList_append]
  exact List.mem_append_right _ (by decide)

theorem sessionKey_ne_assignmentKey (c : Coordinator) (s n : String) (tp : TopicPartition) :
    c.sessionKey s n ≠ c.assignmentKey s tp :=
  Key.session_resolve_ne_assignment _ _ _ _ _

theorem sessionKey_ne_offsetKey (c : Coordinator) (s n : String) (tp : TopicPartition) :
    c.sessionKey s n ≠ c.offsetKey s tp := by
  rw [offsetKey_eq_assignmentKey]
  exact c.sessionKey_ne_assignmentKey s n _

end Coordinator

end CursorCommit

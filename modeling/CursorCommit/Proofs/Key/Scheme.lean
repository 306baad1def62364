/-
  The scheme of the keys: which keys are alike, and which are of a topic.

  Two checked keys are spelled alike only if they are the same; a checked key
  starts like a topic iff it is an offset or an assignment of this topic
  (`startsWith_topic_iff`); and what follows the topic in a key shows a
  partition iff the key is that of its offset (`partition_shown_iff`).  So the
  fixed words in a key, which are names too, never mislead
  (`keys_unambiguous`).
-/
import CursorCommit.Proofs.Offset.Listing

namespace CursorCommit.Key

variable {root s t : String} {k : Key}

theorem levels_of_startsWith_topic (hk : ∀ level ∈ k.levels, '/' ∉ level.toList)
    (hs : '/' ∉ s.toList) (ht : '/' ∉ t.toList)
    (h : Text.startsWith ((topic s t).resolve root) (k.resolve root) = true) :
    ∃ more, k.levels.map String.toList = s.toList :: "topics".toList :: t.toList :: more := by
  obtain ⟨rest, he⟩ := Text.startsWith_iff.1 h
  have hspelled : ("/".intercalate k.levels).toList =
      s.toList ++ '/' :: ("topics".toList ++ '/' :: (t.toList ++ '/' :: rest.toList)) := by
    have he := congrArg String.toList he
    rw [resolve_eq] at he
    simp only [resolve, String.toList_append, List.append_assoc, List.append_cancel_left_eq] at he
    exact he
  have htopics : '/' ∉ "topics".toList := by decide
  refine ⟨rest.toList.splitOn '/', ?_⟩
  rw [← splitOn_levels hk, hspelled, List.splitOn_append_cons_self_of_not_mem hs,
    List.splitOn_append_cons_self_of_not_mem htopics, List.splitOn_append_cons_self_of_not_mem ht]

/-- **A key starts like a topic** iff it is of this topic. -/
theorem startsWith_topic_iff (hk : k.Checked) (hs : Name.checkIdentifier s = .ok ())
    (ht : Name.checkSegment t = .ok ()) :
    Text.startsWith ((topic s t).resolve root) (k.resolve root) = true ↔
      k = topic s t ∨ ∃ p, k = offset s t p ∨ k = assignment s t p := by
  constructor
  · intro h
    obtain ⟨more, hlevels⟩ := levels_of_startsWith_topic hk.slash_notMem
      (Name.slash_notMem_of_checkIdentifier hs) (Name.slash_notMem_of_checkSegment ht) h
    cases k <;> simp only [levels, List.map_cons, List.cons.injEq, String.toList_inj] at hlevels
    case offset p =>
      obtain ⟨rfl, -, rfl, -⟩ := hlevels
      exact Or.inr ⟨p, Or.inl rfl⟩
    case assignment p =>
      obtain ⟨rfl, -, rfl, -⟩ := hlevels
      exact Or.inr ⟨p, Or.inr rfl⟩
    case topic =>
      obtain ⟨rfl, -, rfl, -⟩ := hlevels
      exact Or.inl rfl
    case session => exact absurd hlevels.2.1 (by decide)
  · rintro (rfl | ⟨p, rfl | rfl⟩)
    · exact Text.startsWith_iff.2 ⟨"", String.append_empty.symm⟩
    · exact Text.startsWith_iff.2 ⟨p ++ offsetEnding, by simp only [resolve, String.append_assoc]⟩
    · exact Text.startsWith_iff.2 ⟨p, rfl⟩

/-- **A key shows a partition** behind its topic iff it is that of its
    offset. -/
theorem partition_shown_iff {key partition : String}
    (h : Text.startsWith ((topic s t).resolve root) key = true) :
    partitionOfOffset? (Text.afterStart ((topic s t).resolve root) key) = some partition ↔
      key = (offset s t partition).resolve root ∧ IsLevel partition := by
  obtain ⟨relative, rfl⟩ := Text.startsWith_iff.1 h
  rw [Text.afterStart_append, partitionOfOffset?_eq_some_iff]
  refine and_congr_left fun _ => ?_
  simp only [resolve, String.append_assoc, String.append_right_inj]

/-- **Keys are unambiguous**, whatever the root and the names in them: checked
    keys that are spelled alike are the same, those that start like a topic
    are its own, and what follows a topic in a key, checked or not, shows the
    partition of an offset key and of no other. -/
theorem keys_unambiguous (root : String) :
    (∀ k k' : Key, k.Checked → k'.Checked → (k.resolve root = k'.resolve root ↔ k = k')) ∧
    (∀ (s t : String) (k : Key), Name.checkIdentifier s = .ok () → Name.checkSegment t = .ok () →
      k.Checked → (Text.startsWith ((topic s t).resolve root) (k.resolve root) = true ↔
        k = topic s t ∨ ∃ p, k = offset s t p ∨ k = assignment s t p)) ∧
    ∀ s t key partition : String, Text.startsWith ((topic s t).resolve root) key = true →
      (partitionOfOffset? (Text.afterStart ((topic s t).resolve root) key) = some partition ↔
        key = (offset s t partition).resolve root ∧
          partition ≠ "" ∧ '/' ∉ partition.toList) :=
  ⟨fun _ _ hk hk' => ⟨resolve_inj hk hk', congrArg _⟩,
    fun _ _ _ hs ht hk => startsWith_topic_iff hk hs ht,
    fun _ _ _ _ h => partition_shown_iff h⟩

/-- Keys whose names are the fixed words of the scheme. -/
theorem fixed_words_told_apart :
    (offset "topics" "sessions" "offset").resolve "/" ≠
      (assignment "topics" "sessions" "offset").resolve "/" ∧
    ¬ Text.startsWith ((topic "topics" "sessions").resolve "/")
      ((session "topics" "sessions").resolve "/") = true ∧
    partitionOfOffset? (Text.afterStart ((topic "topics" "sessions").resolve "/")
      "/subscriptions/topics/topics/sessions/offset/offset") = some "offset" := by
  have hs : Name.checkIdentifier "topics" = .ok () := by decide
  have ht : Name.checkSegment "sessions" = .ok () := by decide
  have hp : Name.checkSegment "offset" = .ok () := by decide
  have hoffset : (offset "topics" "sessions" "offset").Checked := ⟨hs, ht, hp⟩
  have hassignment : (assignment "topics" "sessions" "offset").Checked := ⟨hs, ht, hp⟩
  have hsession : (session "topics" "sessions").Checked := ⟨hs, by decide⟩
  obtain ⟨hinj, hstart, hshown⟩ := keys_unambiguous "/"
  refine ⟨?_, ?_, ?_⟩
  · rw [Ne, hinj _ _ hoffset hassignment]
    exact nofun
  · rw [hstart _ _ _ hs ht hsession]
    rintro (h | ⟨p, h | h⟩) <;> cases h
  · exact (hshown "topics" "sessions" _ "offset" (by decide +kernel)).2
      ⟨by decide +kernel, by decide, by decide⟩

end CursorCommit.Key

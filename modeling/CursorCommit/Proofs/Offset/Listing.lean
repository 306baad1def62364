/-
  The offsets of a topic, as a store at rest lists them.

  Of the keys below a topic those with one more level, which is not empty, and
  the ending of an offset are its offset keys (`Key.partitionOfOffset?_eq_some_iff`);
  keys of assignments and deeper keys are not, and no offset key is that of
  anything else (`Key.eq_offset_of_resolve_eq`).  Hence a listing that succeeds
  has every offset of the topic and nothing else (`Listed`); one that fails
  has met a record that is no text, or a store out of reach.
-/
import CursorCommit.Proofs.Commit.Effect
import CursorCommit.Proofs.Key.Levels
import CursorCommit.Proofs.Store.Scan

namespace CursorCommit

/-! ## Offset keys -/

namespace Key

/-- One level of a key that is not empty. -/
def IsLevel (name : String) : Prop :=
  name ≠ "" ∧ '/' ∉ name.toList

theorem isLevel_of_checkSegment {name : String} (h : Name.checkSegment name = .ok ()) :
    IsLevel name :=
  ⟨Name.ne_empty_of_checkSegment h, Name.slash_notMem_of_checkSegment h⟩

/-- **What follows the topic in an offset key** is a level and the ending. -/
theorem partitionOfOffset?_eq_some_iff {relative partition : String} :
    partitionOfOffset? relative = some partition ↔
      relative = partition ++ offsetEnding ∧ IsLevel partition := by
  rw [partitionOfOffset?, Option.filter_eq_some_iff, Text.beforeEnd?_eq_some_iff]
  simp [IsLevel]

/-- **An offset key is no key of anything else**, though its partition may be
    too long, or have blanks, for a name that is checked. -/
theorem eq_offset_of_resolve_eq {root subscription topic partition : String} {k : Key}
    (hs : Name.checkIdentifier subscription = .ok ()) (ht : Name.checkSegment topic = .ok ())
    (hp : IsLevel partition) (hk : k.Checked)
    (he : k.resolve root = (offset subscription topic partition).resolve root) :
    k = .offset subscription topic partition := by
  have hlevels : ∀ level ∈ (offset subscription topic partition).levels, '/' ∉ level.toList := by
    simp [levels, Name.slash_notMem_of_checkIdentifier hs, Name.slash_notMem_of_checkSegment ht,
      hp.2]
  have he : k.levels = _ := levels_eq_of_resolve_eq hk.slash_notMem hlevels he
  cases k <;> simp only [levels, List.cons.injEq, reduceCtorEq, and_false, and_true,
    true_and] at he
  obtain ⟨rfl, rfl, rfl⟩ := he
  rfl

end Key

/-! ## The records behind a listing -/

/-- The entries whose keys start with a text, as an action finds them. -/
def Store.lookAll (s : Store) (start : String) : Except Error (List (String × Record)) :=
  (s.list start).mapError Error.ofStore

theorem Store.lookAll_eq (s : Store) (start : String) : s.lookAll start =
    if s.available then .ok (s.records.scan start)
    else .error (.storeUnavailable .outOfReach []) := by
  unfold lookAll list whenAvailable
  cases s.available <;> rfl

theorem Action.looks_list {d : Directory} (start : String) :
    (store (.list start)).Looks d fun s => s.lookAll start :=
  fun _ _ => ⟨rfl, rfl⟩

/-- The text of a partition's record, next to the partition. -/
def StoredOffset.named (entry : String × Record) : Except Error (String × String) := do
  return (entry.1, (← ofRecord entry.2).offset)

theorem StoredOffset.named_eq_ok_iff {entry : String × Record} {o : String × String} :
    named entry = .ok o ↔ o.1 = entry.1 ∧ entry.2.text = .ok o.2 := by
  obtain ⟨partition, record⟩ := entry
  obtain ⟨partition', offset⟩ := o
  unfold named ofRecord
  cases record.text <;> simp [bind, Except.bind, pure, Except.pure, eq_comm]

theorem StoredOffset.named_eq_error {entry : String × Record} {e : Error}
    (h : named entry = .error e) :
    ∃ fault, Utf8.decode entry.2.bytes = .error fault ∧
      e = .invalidState (.stored (.notUtf8 fault)) := by
  unfold named ofRecord Record.text at h
  cases hd : Utf8.decode entry.2.bytes with
  | ok text => rw [hd] at h; cases h
  | error fault => rw [hd] at h; cases h; exact ⟨fault, rfl, rfl⟩

namespace Coordinator

/-- The records of offsets, with their partitions, among entries whose keys
    start with `start`. -/
def offsetRecords (start : String) (entries : List (String × Record)) : List (String × Record) :=
  entries.filterMap fun e => (Key.partitionOfOffset? (Text.afterStart start e.1)).map (·, e.2)

theorem offsetsAmong_eq (start : String) (entries : List (String × Record)) :
    offsetsAmong start entries = (offsetRecords start entries).mapM StoredOffset.named := by
  induction entries with
  | nil => rfl
  | cons e rest ih =>
    obtain ⟨key, record⟩ := e
    rw [offsetsAmong, offsetRecords, List.filterMap_cons]
    cases Key.partitionOfOffset? (Text.afterStart start key) with
    | none => exact ih
    | some partition =>
      show _ = ((partition, record) :: offsetRecords start rest).mapM StoredOffset.named
      rw [List.mapM_cons, ← ih, StoredOffset.named, bind_assoc]
      rfl

section
variable {c : Coordinator} {subscription topic partition : String} {s : Store} {record : Record}

theorem offsetKey_eq (c : Coordinator) (subscription topic partition : String) :
    c.offsetKey subscription ⟨topic, partition⟩ =
      c.topicStart subscription topic ++ (partition ++ Key.offsetEnding) := by
  simp only [offsetKey, topicStart, Key.resolve, String.append_assoc]

/-- **The records of a topic's offsets** are those at its offset keys. -/
theorem mem_offsetRecords_iff :
    (partition, record) ∈ offsetRecords (c.topicStart subscription topic)
        (s.records.scan (c.topicStart subscription topic)) ↔
      Key.IsLevel partition ∧
        s.record? (c.offsetKey subscription ⟨topic, partition⟩) = some record := by
  simp only [offsetRecords, List.mem_filterMap, Option.map_eq_some_iff, Prod.mk.injEq,
    Key.partitionOfOffset?_eq_some_iff, offsetKey_eq]
  constructor
  · rintro ⟨⟨key, record⟩, he, _, ⟨hrelative, hlevel⟩, rfl, rfl⟩
    obtain ⟨hfound, hstart⟩ := Table.mem_scan_iff.1 he
    obtain ⟨rest, rfl⟩ := Text.startsWith_iff.1 hstart
    rw [Text.afterStart_append] at hrelative
    exact ⟨hlevel, hrelative ▸ hfound⟩
  · rintro ⟨hlevel, hfound⟩
    refine ⟨_, Table.mem_scan_iff.2 ⟨hfound, Text.startsWith_append _ _⟩, partition, ⟨?_, hlevel⟩,
      rfl, rfl⟩
    exact Text.afterStart_append _ _

theorem pairwise_offsetRecords : (offsetRecords (c.topicStart subscription topic)
    (s.records.scan (c.topicStart subscription topic))).Pairwise fun a b =>
      c.offsetKey subscription ⟨topic, a.1⟩ < c.offsetKey subscription ⟨topic, b.1⟩ := by
  have hkey : ∀ e ∈ s.records.scan (c.topicStart subscription topic), ∀ a,
      (Key.partitionOfOffset? (Text.afterStart (c.topicStart subscription topic) e.1)).map
        (·, e.2) = some a → c.offsetKey subscription ⟨topic, a.1⟩ = e.1 := by
    rintro ⟨key, record⟩ he a ha
    obtain ⟨partition, hpartition, rfl⟩ := Option.map_eq_some_iff.1 ha
    obtain ⟨rest, rfl⟩ := Text.startsWith_iff.1 (Table.mem_scan_iff.1 he).2
    rw [Text.afterStart_append, Key.partitionOfOffset?_eq_some_iff] at hpartition
    rw [offsetKey_eq, hpartition.1]
  refine List.pairwise_filterMap.2 ((s.records.pairwise_scan _).imp_of_mem ?_)
  intro e e' he he' hlt a ha b hb
  rwa [hkey e he a ha, hkey e' he' b hb]

end

/-! ## The listing -/

/-- The offsets of a topic, with their partitions, in a store at rest. -/
def offsetsIn (c : Coordinator) (subscription topic : String) (s : Store) :
    Except Error (List (String × String)) := do
  offsetsAmong (c.topicStart subscription topic) (← s.lookAll (c.topicStart subscription topic))

theorem looks_offsets {c : Coordinator} {d : Directory} (subscription topic : String) :
    (c.offsets subscription topic).Looks d (c.offsetsIn subscription topic) :=
  (Action.looks_list _).bind fun _ => Action.looks_of _

/-- The offsets of a topic in a store: each partition of one level that has a
    record, once and in the order of the keys, with the text of the record. -/
structure Listed (c : Coordinator) (subscription topic : String) (s : Store)
    (offsets : List (String × String)) : Prop where
  ordered : offsets.Pairwise fun a b =>
    c.offsetKey subscription ⟨topic, a.1⟩ < c.offsetKey subscription ⟨topic, b.1⟩
  complete : ∀ partition, partition ∈ offsets.map Prod.fst ↔ Key.IsLevel partition ∧
    (s.record? (c.offsetKey subscription ⟨topic, partition⟩)).isSome = true
  stored : ∀ o ∈ offsets, s.textAt? (c.offsetKey subscription ⟨topic, o.1⟩) = some o.2

section
variable {c : Coordinator} {subscription topic : String} {s : Store}
  {offsets : List (String × String)}

theorem Listed.nodup (h : c.Listed subscription topic s offsets) :
    (offsets.map Prod.fst).Nodup := by
  refine List.pairwise_map.2 (h.ordered.imp fun hlt he => ?_)
  rw [he] at hlt
  exact String.lt_irrefl _ hlt

/-- **A listing that succeeds** has the offsets of the topic. -/
theorem listed_of_offsetsIn (h : c.offsetsIn subscription topic s = .ok offsets) :
    c.Listed subscription topic s offsets := by
  obtain ⟨entries, hentries, h⟩ := except_bind_eq_ok_iff.1 h
  rw [Store.lookAll_eq] at hentries
  split at hentries <;> cases hentries
  rw [offsetsAmong_eq, mapM_eq_ok_iff] at h
  have hnamed := h.imp fun _ _ hn => StoredOffset.named_eq_ok_iff.1 hn
  have hpartitions : offsets.map Prod.fst = (offsetRecords (c.topicStart subscription topic)
      (s.records.scan (c.topicStart subscription topic))).map Prod.fst :=
    map_eq_of_forall₂ hnamed.flip fun _ _ hn => hn.1
  refine ⟨?_, fun partition => ?_, fun o ho => ?_⟩
  · rw [← List.pairwise_map (f := Prod.fst) (R := fun p q =>
      c.offsetKey subscription ⟨topic, p⟩ < c.offsetKey subscription ⟨topic, q⟩), hpartitions,
      List.pairwise_map]
    exact pairwise_offsetRecords
  · rw [hpartitions, List.mem_map, Option.isSome_iff_exists]
    constructor
    · rintro ⟨⟨_, record⟩, he, rfl⟩
      obtain ⟨hlevel, hrecord⟩ := mem_offsetRecords_iff.1 he
      exact ⟨hlevel, record, hrecord⟩
    · rintro ⟨hlevel, record, hrecord⟩
      exact ⟨(partition, record), mem_offsetRecords_iff.2 ⟨hlevel, hrecord⟩, rfl⟩
  · obtain ⟨⟨partition, record⟩, he, hpartition, htext⟩ := forall₂_mem_right hnamed ho
    rw [hpartition]
    exact Store.textAt?_eq (mem_offsetRecords_iff.1 he).2 htext

/-- **A listing that fails** has met a store out of reach, or an offset that is
    no text. -/
theorem cases_of_offsetsIn_error {e : Error} (h : c.offsetsIn subscription topic s = .error e) :
    (s.available = false ∧ e = .storeUnavailable .outOfReach []) ∨
      ∃ partition record fault, Key.IsLevel partition ∧
        s.record? (c.offsetKey subscription ⟨topic, partition⟩) = some record ∧
          Utf8.decode record.bytes = .error fault ∧
            e = .invalidState (.stored (.notUtf8 fault)) := by
  rcases except_bind_eq_error_iff.1 h with h | ⟨entries, hentries, h⟩
  · rw [Store.lookAll_eq] at h
    split at h <;> cases h
    next ha => exact Or.inl ⟨Bool.eq_false_iff.2 ha, rfl⟩
  · rw [Store.lookAll_eq] at hentries
    split at hentries <;> cases hentries
    rw [offsetsAmong_eq] at h
    obtain ⟨⟨partition, record⟩, he, hnamed⟩ := exists_of_mapM_eq_error h
    obtain ⟨hlevel, hrecord⟩ := mem_offsetRecords_iff.1 he
    obtain ⟨fault, hfault, rfl⟩ := StoredOffset.named_eq_error hnamed
    exact Or.inr ⟨partition, record, fault, hlevel, hrecord, hfault, rfl⟩

end

end Coordinator

end CursorCommit

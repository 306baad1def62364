/-
  The partitions of a batch of cursors, as the directory tells them.

  `d.partition? cursor` is where a cursor is, and `d.partitions cursors` are
  the partitions of a batch, in the order of their first appearance.

  * `positions_placed`: if the cursors of a batch have positions, each is in
    the topic that a look-up of its event type told, although each event type
    is looked up once only;
  * `positions_locate`: so the positions are where the directory says;
  * `eq_of_outcomesIn`: the outcomes in each partition make up the results;
  * `offsetsIn_perm`: the offsets in a partition come from what the cursors
    report, and in another order if they report it in another order.
-/
import CursorCommit.Cursor.Position
import CursorCommit.Proofs.Program.History

namespace CursorCommit

namespace Directory

/-- The partition that a cursor is in, if its event type is known. -/
def partition? (d : Directory) (cursor : Cursor) : Option TopicPartition :=
  match d.eventType cursor.eventType with
  | .ok found => some ⟨found.topic, cursor.partition⟩
  | .error _ => none

/-- The partitions that cursors are in, in the order of their first
    appearance. -/
def partitions (d : Directory) (cursors : List Cursor) : List TopicPartition :=
  (cursors.filterMap d.partition?).eraseDups

/-- Whether a cursor is in the partition. -/
def isIn (d : Directory) (tp : TopicPartition) (cursor : Cursor) : Bool :=
  decide (d.partition? cursor = some tp)

/-- The offsets of the cursors that are in the partition, in order. -/
def offsetsIn (d : Directory) (tp : TopicPartition) (cursors : List Cursor) : List String :=
  (cursors.filter (d.isIn tp)).map Cursor.offset

/-- What became of the cursors that are in the partition, in order. -/
def outcomesIn (d : Directory) (tp : TopicPartition) (rs : List CommitResult) : List Outcome :=
  (rs.filter fun r => d.isIn tp r.cursor).map CommitResult.outcome

/-- The position is the one of the cursor, and may stand in a key. -/
structure Locates (d : Directory) (cursor : Cursor) (p : Position) : Prop where
  tp : d.partition? cursor = some p.tp
  offset : p.offset = cursor.offset
  topic : Name.checkSegment p.topic = .ok ()
  partition : Name.checkSegment p.partition = .ok ()

/-- The event types of a trace were looked up in this directory. -/
def Told (d : Directory) (tr : List Event) : Prop :=
  ∀ name answer, .eventType name answer ∈ tr → answer = d.eventType name

variable {d : Directory}

theorem Told.mono {tr tr' : List Event} (h : d.Told tr') (hs : tr ⊆ tr') : d.Told tr :=
  fun name answer hm => h name answer (hs hm)

theorem partitions_of_locates {cursors : List Cursor} {ps : List Position}
    (h : List.Forall₂ d.Locates cursors ps) :
    d.partitions cursors = (ps.map Position.tp).eraseDups := by
  have : cursors.filterMap d.partition? = ps.map Position.tp := by
    induction h with
    | nil => rfl
    | cons hl _ ih => rw [List.filterMap_cons, hl.tp, ih, List.map_cons]
  rw [partitions, this]

theorem checked_of_locates {cursors : List Cursor} {ps : List Position}
    (h : List.Forall₂ d.Locates cursors ps) {tp : TopicPartition} (htp : tp ∈ d.partitions cursors) :
    Name.checkSegment tp.topic = .ok () ∧ Name.checkSegment tp.partition = .ok () := by
  rw [partitions_of_locates h, List.mem_eraseDups] at htp
  obtain ⟨p, hp, rfl⟩ := List.mem_map.1 htp
  obtain ⟨cursor, -, hloc⟩ := forall₂_mem_right h hp
  exact ⟨hloc.topic, hloc.partition⟩

theorem exists_isIn_of_locates {cursors : List Cursor} {ps : List Position}
    (h : List.Forall₂ d.Locates cursors ps) {cursor : Cursor} (hc : cursor ∈ cursors) :
    ∃ tp ∈ d.partitions cursors, d.isIn tp cursor = true := by
  obtain ⟨p, -, hloc⟩ := forall₂_mem_left h hc
  refine ⟨p.tp, ?_, decide_eq_true hloc.tp⟩
  exact List.mem_eraseDups.2 (List.mem_filterMap.2 ⟨cursor, hc, hloc.tp⟩)

theorem map_offset_of_locates {cursors : List Cursor} {ps : List Position}
    (h : List.Forall₂ d.Locates cursors ps) :
    ps.map Position.offset = cursors.map Cursor.offset := by
  induction h with
  | nil => rfl
  | cons hl _ ih => rw [List.map_cons, hl.offset, ih, List.map_cons]

/-! ## Batches in parts -/

section
variable {tp : TopicPartition} {cursors cursors' : List Cursor}

theorem mem_partitions_iff :
    tp ∈ d.partitions cursors ↔ ∃ cursor ∈ cursors, d.isIn tp cursor = true := by
  simp only [partitions, List.mem_eraseDups, List.mem_filterMap, isIn, decide_eq_true_eq]

theorem mem_partitions_append :
    tp ∈ d.partitions (cursors ++ cursors') ↔
      tp ∈ d.partitions cursors ∨ tp ∈ d.partitions cursors' := by
  simp only [mem_partitions_iff, List.mem_append, or_and_right, exists_or]

@[simp] theorem offsetsIn_append : d.offsetsIn tp (cursors ++ cursors') =
    d.offsetsIn tp cursors ++ d.offsetsIn tp cursors' := by
  simp only [offsetsIn, List.filter_append, List.map_append]

@[simp] theorem outcomesIn_append {rs rs' : List CommitResult} :
    d.outcomesIn tp (rs ++ rs') = d.outcomesIn tp rs ++ d.outcomesIn tp rs' := by
  simp only [outcomesIn, List.filter_append, List.map_append]

theorem offsetsIn_eq_nil_iff : d.offsetsIn tp cursors = [] ↔ tp ∉ d.partitions cursors := by
  simp only [offsetsIn, List.map_eq_nil_iff, List.filter_eq_nil_iff, mem_partitions_iff, not_exists,
    not_and]

theorem outcomesIn_eq_nil {rs : List CommitResult}
    (h : tp ∉ d.partitions (rs.map CommitResult.cursor)) : d.outcomesIn tp rs = [] := by
  rw [outcomesIn, List.map_eq_nil_iff, List.filter_eq_nil_iff]
  exact fun r hr hin => h (mem_partitions_iff.2 ⟨r.cursor, List.mem_map_of_mem hr, hin⟩)

theorem outcomesIn_cons (r : CommitResult) (rs : List CommitResult) : d.outcomesIn tp (r :: rs) =
    if d.isIn tp r.cursor then r.outcome :: d.outcomesIn tp rs else d.outcomesIn tp rs := by
  rw [outcomesIn, List.filter_cons]
  split <;> rfl

/-- **The outcomes in each partition make up the results**, as every cursor is
    in one. -/
theorem eq_of_outcomesIn {rs rs' : List CommitResult}
    (hc : rs.map CommitResult.cursor = rs'.map CommitResult.cursor)
    (hin : ∀ r ∈ rs, ∃ tp, d.isIn tp r.cursor = true)
    (h : ∀ tp, d.outcomesIn tp rs = d.outcomesIn tp rs') : rs = rs' := by
  induction rs generalizing rs' with
  | nil => exact (List.map_eq_nil_iff.1 hc.symm).symm
  | cons r rs ih =>
    cases rs' with
    | nil => cases hc
    | cons r' rs' =>
      obtain ⟨⟨tp, htp⟩, hin⟩ := List.forall_mem_cons.1 hin
      obtain ⟨hcursor, hc⟩ := List.cons.inj hc
      have hoc : ∀ tp, d.outcomesIn tp rs = d.outcomesIn tp rs' := by
        intro tp
        have h := h tp
        rw [outcomesIn_cons, outcomesIn_cons, hcursor] at h
        split at h
        · exact (List.cons.inj h).2
        · exact h
      have hr : r = r' := by
        have h := h tp
        rw [outcomesIn_cons, outcomesIn_cons, ← hcursor, if_pos htp, if_pos htp] at h
        cases r
        cases r'
        exact congrArg₂ CommitResult.mk hcursor (List.cons.inj h).1
      rw [hr, ih hc hin hoc]

end

end Directory

/-- What a cursor reports: its event type, partition and offset. -/
def Cursor.report (cursor : Cursor) : String × String × String :=
  (cursor.eventType, cursor.partition, cursor.offset)

namespace Directory

variable {d : Directory} {tp : TopicPartition} {cursors cursors' : List Cursor}

/-- The offset that a report has for the partition, if it is for this one. -/
def offsetOf? (d : Directory) (tp : TopicPartition) : String × String × String → Option String
  | (eventType, partition, offset) =>
    if d.isIn tp ⟨partition, offset, eventType, ""⟩ then some offset else none

theorem offsetsIn_eq_filterMap :
    d.offsetsIn tp cursors = (cursors.map Cursor.report).filterMap (d.offsetOf? tp) := by
  induction cursors with
  | nil => rfl
  | cons cursor rest ih =>
    have htoken : d.isIn tp ⟨cursor.partition, cursor.offset, cursor.eventType, ""⟩ =
        d.isIn tp cursor := rfl
    rw [List.map_cons, List.filterMap_cons, ← ih, offsetsIn, List.filter_cons, Cursor.report,
      offsetOf?, htoken]
    cases d.isIn tp cursor <;> rfl

/-- **The same reports in another order** have the same offsets in a partition,
    in another order. -/
theorem offsetsIn_perm (h : (cursors.map Cursor.report).Perm (cursors'.map Cursor.report)) :
    (d.offsetsIn tp cursors).Perm (d.offsetsIn tp cursors') := by
  rw [offsetsIn_eq_filterMap, offsetsIn_eq_filterMap]
  exact h.filterMap _

theorem mem_partitions_congr (h : (cursors.map Cursor.report).Perm (cursors'.map Cursor.report)) :
    tp ∈ d.partitions cursors ↔ tp ∈ d.partitions cursors' := by
  have hp : (d.offsetsIn tp cursors).Perm (d.offsetsIn tp cursors') := offsetsIn_perm h
  rw [← not_iff_not, ← offsetsIn_eq_nil_iff, ← offsetsIn_eq_nil_iff]
  exact ⟨fun hn => (hn ▸ hp).symm.eq_nil, fun hn => (hn ▸ hp).eq_nil⟩

end Directory

theorem Linked.told {d : Directory} {s s' : Store} {tr : List Event} (h : Linked d s tr s') :
    d.Told tr := by
  intro name answer hm
  obtain ⟨t₁, t₂, rfl⟩ := List.append_of_mem hm
  obtain ⟨m, -, h⟩ := h.split
  cases h with
  | cons he _ => cases he; rfl

theorem EventType.checked_eq_ok_iff {name : String} {found found' : EventType} :
    found.checked name = .ok found' ↔ found' = found ∧ Name.checkSegment found.topic = .ok () := by
  unfold checked
  split
  · next h => simp [h, eq_comm]
  · next h => simp [h]

theorem EventType.traces_resolve_ok {name : String} {tr : List Event} {found : EventType} :
    (resolve name).Traces tr (.ok found) ↔
      tr = [.eventType name (.ok found)] ∧ Name.checkSegment found.topic = .ok () := by
  unfold resolve
  rw [Action.traces_bind_ok]
  constructor
  · rintro ⟨found', t₁, t₂, h₁, h₂, rfl⟩
    obtain ⟨answer, rfl, ha⟩ := Action.traces_eventType.1 h₁
    obtain ⟨rfl, hc⟩ := Action.traces_of.1 h₂
    obtain ⟨rfl, hs⟩ := EventType.checked_eq_ok_iff.1 hc.symm
    cases answer <;> cases ha
    exact ⟨rfl, hs⟩
  · rintro ⟨rfl, hs⟩
    exact ⟨found, _, [], Action.traces_eventType.2 ⟨.ok found, rfl, rfl⟩,
      Action.traces_of.2 ⟨rfl, (EventType.checked_eq_ok_iff.2 ⟨rfl, hs⟩).symm⟩, rfl⟩

namespace Cursor

variable {d : Directory}

theorem inTopic_eq_ok_iff {topic : String} {cursor : Cursor} {p : Position} :
    cursor.inTopic topic = .ok p ↔ p = ⟨topic, cursor.partition, cursor.offset⟩ ∧
      Name.checkSegment cursor.partition = .ok () ∧ cursor.offset ≠ "" := by
  unfold inTopic
  split
  · next h => simp [h]
  · next h => by_cases ho : cursor.offset = "" <;> simp [h, ho, eq_comm]

/-- The topics that are known already were told by these events, and may stand
    in a key. -/
def Heard (past : List Event) (known : List (String × String)) : Prop :=
  ∀ name topic, known.lookup name = some topic →
    (∃ eventType, .eventType name (.ok eventType) ∈ past ∧ eventType.topic = topic) ∧
      Name.checkSegment topic = .ok ()

/-- The cursor has this position by what the events told, and the position may
    stand in a key. -/
structure Placed (found : Subscription) (tr : List Event) (cursor : Cursor) (p : Position) :
    Prop where
  included : found.includes cursor.eventType = true
  told : ∃ eventType, .eventType cursor.eventType (.ok eventType) ∈ tr ∧
    p = ⟨eventType.topic, cursor.partition, cursor.offset⟩
  topic : Name.checkSegment p.topic = .ok ()
  partition : Name.checkSegment p.partition = .ok ()

theorem Placed.locates {found : Subscription} {tr : List Event} {cursor : Cursor} {p : Position}
    (h : Placed found tr cursor p) (hd : d.Told tr) : d.Locates cursor p := by
  obtain ⟨eventType, he, hp⟩ := h.told
  refine ⟨?_, by rw [hp], h.topic, h.partition⟩
  simp [Directory.partition?, ← hd _ _ he, hp, Position.tp]

theorem traces_topicOf_ok {known known' : List (String × String)} {name topic : String}
    {past tr : List Event} (hk : Heard past known)
    (h : (topicOf known name).Traces tr (.ok (topic, known'))) :
    (∃ eventType, .eventType name (.ok eventType) ∈ past ++ tr ∧ eventType.topic = topic) ∧
      Name.checkSegment topic = .ok () ∧ Heard (past ++ tr) known' := by
  unfold topicOf at h
  split at h
  · next topic' hl =>
    obtain ⟨rfl, h⟩ := Action.traces_pure.1 h
    cases h
    obtain ⟨hf, hs⟩ := hk name topic hl
    rw [List.append_nil]
    exact ⟨hf, hs, hk⟩
  · obtain ⟨eventType, t₁, t₂, h₁, h₂, rfl⟩ := Action.traces_bind_ok.1 h
    obtain ⟨rfl, hs⟩ := EventType.traces_resolve_ok.1 h₁
    obtain ⟨rfl, h₂⟩ := Action.traces_pure.1 h₂
    cases h₂
    refine ⟨⟨eventType, by simp, rfl⟩, hs, ?_⟩
    intro n t hn
    rw [Table.lookup_cons_eq] at hn
    split at hn
    · next hn' => cases hn; subst hn'; exact ⟨⟨eventType, by simp, rfl⟩, hs⟩
    · obtain ⟨⟨eventType', he, ht⟩, hseg⟩ := hk n t hn
      exact ⟨⟨eventType', List.mem_append_left _ he, ht⟩, hseg⟩

theorem positionsFrom_placed {found : Subscription} {known : List (String × String)}
    {cursors : List Cursor} {past tr : List Event} {ps : List Position} (hk : Heard past known)
    (h : (positionsFrom found known cursors).Traces tr (.ok ps)) :
    List.Forall₂ (Placed found (past ++ tr)) cursors ps := by
  induction cursors generalizing known past tr ps with
  | nil =>
    obtain ⟨-, h⟩ := Action.traces_pure.1 h
    cases h; exact .nil
  | cons cursor rest ih =>
    rw [positionsFrom] at h
    split at h
    · next hincluded =>
      obtain ⟨⟨topic, known'⟩, t₁, t, h₁, h', rfl⟩ := Action.traces_bind_ok.1 h
      obtain ⟨p, t₂, t₃, h₂, h₃, rfl⟩ := Action.traces_bind_ok.1 h'
      obtain ⟨ps', t₄, t₅, h₄, h₅, rfl⟩ := Action.traces_bind_ok.1 h₃
      obtain ⟨rfl, hin⟩ := Action.traces_of.1 h₂
      obtain ⟨rfl, h₅⟩ := Action.traces_pure.1 h₅
      cases h₅
      obtain ⟨⟨e, he, rfl⟩, hs, hk'⟩ := traces_topicOf_ok hk h₁
      obtain ⟨rfl, hseg, -⟩ := inTopic_eq_ok_iff.1 hin.symm
      have hrest := ih hk' h₄
      rw [List.nil_append, List.append_nil, ← List.append_assoc]
      exact .cons ⟨hincluded, ⟨e, List.mem_append_left _ he, rfl⟩, hs, hseg⟩ hrest
    · cases (Action.traces_fail.1 h).2

/-- **The positions of a batch** are where the look-ups told. -/
theorem positions_placed {found : Subscription} {cursors : List Cursor} {tr : List Event}
    {ps : List Position} (h : (positions found cursors).Traces tr (.ok ps)) :
    List.Forall₂ (Placed found tr) cursors ps :=
  by
  have hk : Heard [] [] := fun _ _ h => by cases h
  exact positionsFrom_placed hk h

/-- **The positions of a batch** are where the directory says. -/
theorem positions_locate {found : Subscription} {cursors : List Cursor} {tr : List Event}
    {ps : List Position} (hd : d.Told tr) (h : (positions found cursors).Traces tr (.ok ps)) :
    List.Forall₂ d.Locates cursors ps :=
  (positions_placed h).imp fun _ _ hp => hp.locates hd

end Cursor

end CursorCommit

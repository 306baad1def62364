/-
  What a commit never does, whoever else acts on the store meanwhile.

  * `write_raises_offset`: a write of a commit replaces an offset by a
    greater one, as long as nobody removes the offset;
  * `write_while_owned`: at a write the partition is assigned to the stream.

  Both rest on the condition that a write carries: the version of the offset
  that was folded, and the revision of the assignment that was seen.
-/
import CursorCommit.Program.Script
import CursorCommit.Proofs.Commit.Course
import CursorCommit.Proofs.Offset.Order
import CursorCommit.Text.Utf8.RoundTrip

namespace CursorCommit

theorem Record.text_eq_ok_iff {record : Record} {text : String} :
    record.text = .ok text ↔ record.bytes = Utf8.encode text := by
  rw [Record.text, except_mapError_eq_ok_iff, Utf8.decode_eq_ok_iff]

/-- The text stored at a key, if there is a record and it is text. -/
def Store.textAt? (s : Store) (key : String) : Option String :=
  (s.record? key).bind fun record => record.text.toOption

theorem Store.textAt?_eq_some_iff {s : Store} {key text : String} :
    s.textAt? key = some text ↔
      ∃ record, s.record? key = some record ∧ record.text = .ok text := by
  rw [textAt?, Option.bind_eq_some_iff]
  refine exists_congr fun record => and_congr_right fun _ => ?_
  cases record.text <;> simp [Except.toOption]

theorem Store.textAt?_eq {s : Store} {key text : String} {record : Record}
    (h : s.record? key = some record) (ht : record.text = .ok text) :
    s.textAt? key = some text :=
  textAt?_eq_some_iff.2 ⟨record, h, ht⟩

theorem Store.textAt?_write_encode (s : Store) (key text : String) :
    (s.write key (Utf8.encode text)).textAt? key = some text := by
  exact textAt?_eq (by rw [record?_write, if_pos rfl]) (Record.text_eq_ok_iff.2 rfl)

namespace Coordinator

variable {c : Coordinator} {stream subscription : String} {positions : List Position}

/-! ## What a write meets -/

section
variable {d : Directory} {s s' : Store} {p : Plan} {past rest : List Event} {frame : Frame}

theorem versions_at_write
    (h : Linked d s (past ++ .store (c.writeCall subscription p) (.ok true) frame :: rest) s') :
    (frame.before.versionAt (c.offsetKey subscription p.batch.tp) = p.current.version ∧
      frame.before.revisionAt (c.assignmentKey subscription p.batch.tp) = p.seen.revision) ∧
        frame.after = frame.before.write (c.offsetKey subscription p.batch.tp)
          (Utf8.encode p.fold.highWater) := by
  obtain ⟨ha, hw, -⟩ := h.fits.of_compareAndSet
  rw [if_pos rfl] at hw
  simp only [Store.admits, List.all_cons, List.all_nil, Bool.and_true, Store.holds, guard,
    Eq.comm (a := true), Bool.and_eq_true, beq_iff_eq, Int.natCast_inj] at ha
  exact ⟨ha, hw⟩

/-- **A write meets the offset that its plan folded.** -/
theorem offset_at_write (hp : p.Ready c stream subscription positions past)
    (h : Linked d s (past ++ .store (c.writeCall subscription p) (.ok true) frame :: rest) s')
    (hs : ∀ e ∈ past ++ [.store (c.writeCall subscription p) (.ok true) frame],
      e.Spares (c.offsetKey subscription p.batch.tp)) :
    frame.before.textAt? (c.offsetKey subscription p.batch.tp) = some p.current.offset := by
  obtain ⟨record, f, hr, hrec⟩ := hp.read
  obtain ⟨ht, hv⟩ := StoredOffset.ofRecord_eq_ok hrec
  obtain ⟨⟨hver, -⟩, -⟩ := versions_at_write h
  exact Store.textAt?_eq (h.record_of_version hs hr (hver.trans hv.symm)) ht

/-- **A write meets the assignment that its plan saw.** -/
theorem assignment_at_write (hreach : s.Reachable)
    (hp : p.Ready c stream subscription positions past)
    (h : Linked d s (past ++ .store (c.writeCall subscription p) (.ok true) frame :: rest) s') :
    ∃ text, frame.before.textAt? (c.assignmentKey subscription p.batch.tp) = some text ∧
      Assignment.parse text = .ok ⟨stream, .assigned⟩ := by
  obtain ⟨o, f, hr, ho⟩ := hp.seen
  have howned := hp.owned
  rw [← ho] at howned
  obtain ⟨record, text, rfl, ht, hparse, hrev⟩ := Sighting.of_isOwnedBy howned
  obtain ⟨⟨-, hv⟩, -⟩ := versions_at_write h
  rw [← ho, hrev] at hv
  exact ⟨text, Store.textAt?_eq (h.record_of_revision hreach hr hv) ht, hparse⟩

end

/-! ## A sample -/

namespace Sample

/-- A directory with one event type. -/
def directory : Directory where
  eventType name :=
    if name = "orders" then .ok ⟨"orders", "t"⟩ else .error (.eventTypeNotFound name)
  subscription id := .ok ⟨id, .ofList ["orders"]⟩

/-- The offsets of the topic are numbers, and those of all others texts. -/
def coordinator : Coordinator :=
  ⟨"/", (OffsetOrder.always .lexical).withTopic "t" .numeric, defaultAttempts, 18⟩

def offsetAt (partition : String) : String := coordinator.offsetKey "s" ⟨"t", partition⟩

def assignmentAt (partition : String) : String := coordinator.assignmentKey "s" ⟨"t", partition⟩

def assigned : List UInt8 := Utf8.encode (Assignment.encode ⟨"n", .assigned⟩)

/-- A store with two partitions at the offset `5`, both assigned to `n`. -/
def store : Store :=
  Store.empty.afterAll [.put (coordinator.sessionKey "s" "n") [],
    .put (assignmentAt "0") assigned, .put (offsetAt "0") (Utf8.encode "5"),
    .put (assignmentAt "1") assigned, .put (offsetAt "1") (Utf8.encode "5")]

/-- Acts once at a write of the partition, after `skip` others. -/
def atWrite (partition : String) (skip : Nat) (action : Disturbance) : Rule :=
  ⟨.compareAndSet, some (offsetAt partition), skip, some 1, action⟩

def cursor (partition offset : String) : Cursor := ⟨partition, offset, "orders", ""⟩

/-- The commit of cursors by `n` while the rules act. -/
def run (rules : List Rule) (cursors : List Cursor) :
    Run (List Rule) (Except Error (List CommitResult)) :=
  (coordinator.commit "n" "s" cursors).runIn (.scripted directory toString) ⟨store, 0, rules⟩

/-- The offset is raised by another before the first write, and the assignment
    is written again before the second. -/
def lostRace : List Rule :=
  [atWrite "0" 0 (.put (offsetAt "0") (Utf8.encode "6")),
    atWrite "0" 1 (.put (assignmentAt "0") assigned)]

end Sample

/-! ## The writes of a commit -/

/-- In this store the partition is assigned to the stream. -/
def AssignedIn (c : Coordinator) (stream subscription : String) (tp : TopicPartition) (s : Store) :
    Prop :=
  ∃ text, s.textAt? (c.assignmentKey subscription tp) = some text ∧
    Assignment.parse text = .ok ⟨stream, .assigned⟩

section
variable {σ : Type} (env : Surroundings σ) (w : World σ) (c : Coordinator)
  (stream subscription : String) (cursors : List Cursor) {wr : Write}

theorem plan_of_write
    (hw : wr ∈ Event.writes ((c.commit stream subscription cursors).runIn env w).trace) :
    ∃ (positions : List Position) (p : Plan) (past rest : List Event) (frame : Frame),
      p.batch.tp ∈ env.directory.partitions cursors ∧
        p.Ready c stream subscription positions past ∧ p.fold.advanced = true ∧
          ((c.commit stream subscription cursors).runIn env w).trace =
            past ++ .store (c.writeCall subscription p) (.ok true) frame :: rest ∧
              wr = ⟨c.offsetKey subscription p.batch.tp, Utf8.encode p.fold.highWater, frame.before,
                frame.after⟩ := by
  rcases commit_run_cases env w c stream subscription cursors with
    h | ⟨positions, plans, parts, h⟩
  · rw [h.writes_eq_nil] at hw; cases hw
  · exact ⟨positions, h.of_mem_writes hw⟩

/-- **A commit only ever raises an offset**: the text that one of its writes
    replaces is strictly less than the text that it leaves, in the order of
    the topic, unless somebody removes the offset during the commit. -/
theorem write_raises_offset
    (hw : wr ∈ Event.writes ((c.commit stream subscription cursors).runIn env w).trace)
    (hs : ∀ e ∈ ((c.commit stream subscription cursors).runIn env w).trace, e.Spares wr.key) :
    ∃ tp ∈ env.directory.partitions cursors, wr.key = c.offsetKey subscription tp ∧
      ∃ old new, wr.before.textAt? wr.key = some old ∧ wr.after.textAt? wr.key = some new ∧
        (c.order.comparator tp.topic).compare old new = .ok .lt := by
  have hl := Action.linked_run env (c.commit stream subscription cursors) w
  obtain ⟨positions, p, past, rest, frame, htp, hp, ha, htr, rfl⟩ :=
    plan_of_write env w c stream subscription cursors hw
  rw [htr] at hl hs
  -- the write itself is among the events that spare the offset
  have hold := offset_at_write hp hl fun e he => hs e (by
    rcases List.mem_append.1 he with he | he
    · exact List.mem_append_left _ he
    · rw [List.mem_singleton.1 he]; simp)
  refine ⟨p.batch.tp, htp, rfl, p.current.offset, p.fold.highWater, hold, ?_, ?_⟩
  · show frame.after.textAt? _ = _
    rw [(versions_at_write hl).2, Store.textAt?_write_encode]
  · exact Comparator.compare_swap (Fold.highWater_gt (foldPartition_eq_ok hp.folded) ha)

/-- The third attempt raises the offset that the other left, by the numbers
    that its topic goes by; as a text it would be lowered. -/
theorem lost_race_raises_offset :
    ∃ wr ∈ Event.writes (Sample.run Sample.lostRace [Sample.cursor "0" "10"]).trace,
      (∀ e ∈ (Sample.run Sample.lostRace [Sample.cursor "0" "10"]).trace, e.Spares wr.key) ∧
        wr.before.textAt? wr.key = some "6" ∧
          ∃ tp ∈ Sample.directory.partitions [Sample.cursor "0" "10"],
            wr.key = Sample.coordinator.offsetKey "s" tp ∧
              ∃ old new, wr.before.textAt? wr.key = some old ∧ wr.after.textAt? wr.key = some new ∧
                (Sample.coordinator.order.comparator tp.topic).compare old new = .ok .lt := by
  obtain ⟨wr, hw, hs, hold⟩ :
      ∃ wr ∈ Event.writes (Sample.run Sample.lostRace [Sample.cursor "0" "10"]).trace,
        (∀ e ∈ (Sample.run Sample.lostRace [Sample.cursor "0" "10"]).trace, e.Spares wr.key) ∧
          wr.before.textAt? wr.key = some "6" := by decide +kernel
  exact ⟨wr, hw, hs, hold, write_raises_offset _ _ _ _ _ _ hw hs⟩

/-- **A commit writes only while the stream owns the partition**: at each of
    its writes the partition's assignment is there and names the stream, as
    assigned. -/
theorem write_while_owned (hreach : w.store.Reachable)
    (hw : wr ∈ Event.writes ((c.commit stream subscription cursors).runIn env w).trace) :
    ∃ tp ∈ env.directory.partitions cursors, wr.key = c.offsetKey subscription tp ∧
      c.AssignedIn stream subscription tp wr.before ∧
        c.AssignedIn stream subscription tp wr.after := by
  have hl := Action.linked_run env (c.commit stream subscription cursors) w
  obtain ⟨positions, p, past, rest, frame, htp, hp, ha, htr, rfl⟩ :=
    plan_of_write env w c stream subscription cursors hw
  rw [htr] at hl
  obtain ⟨text, ht, hparse⟩ := assignment_at_write hreach hp hl
  refine ⟨p.batch.tp, htp, rfl, ⟨text, ht, hparse⟩, text, ?_, hparse⟩
  rw [← ht]
  show frame.after.textAt? _ = _
  rw [(versions_at_write hl).2, Store.textAt?, Store.textAt?, Store.record?_write,
    if_neg (assignmentKey_ne_offsetKey c subscription p.batch.tp)]

/-- The write that follows two refused ones meets the assignment. -/
theorem lost_race_while_owned :
    ∃ wr ∈ Event.writes (Sample.run Sample.lostRace [Sample.cursor "0" "10"]).trace,
      ∃ tp ∈ Sample.directory.partitions [Sample.cursor "0" "10"],
        wr.key = Sample.coordinator.offsetKey "s" tp ∧
          Sample.coordinator.AssignedIn "n" "s" tp wr.before ∧
            Sample.coordinator.AssignedIn "n" "s" tp wr.after := by
  obtain ⟨wr, hw, -⟩ :
      ∃ wr ∈ Event.writes (Sample.run Sample.lostRace [Sample.cursor "0" "10"]).trace, True := by
    decide +kernel
  exact ⟨wr, hw, write_while_owned _ _ _ _ _ _ ⟨_, rfl⟩ hw⟩

end

end Coordinator

end CursorCommit

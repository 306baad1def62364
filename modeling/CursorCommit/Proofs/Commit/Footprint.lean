/-
  What a commit may touch, whoever else acts on the store meanwhile.

  `commit_footprint`: a compare-and-set of a commit, applied or not, is on the
  offset of a partition of its batch and asks for a version of at least one.
  No other name that may stand in a key leads to this offset, and there must
  be a record to write over; so a commit creates and removes nothing, not even
  an offset that is deleted before its write.

  That the version is at least one comes from the read behind the plan
  (`one_le_version`): the record that was read is one of a reachable store.
-/
import CursorCommit.Proofs.Commit.Gate
import CursorCommit.Proofs.Key.Levels

namespace CursorCommit

theorem Requested.checkCommit_eq_ok_iff {stream subscription : String} :
    checkCommit stream subscription = .ok () ↔
      Name.checkIdentifier subscription = .ok () ∧ Name.checkIdentifier stream = .ok () := by
  unfold checkCommit checkSubscription checkStream
  cases Name.checkIdentifier subscription <;> cases Name.checkIdentifier stream <;>
    simp [bind, Except.bind]

theorem Store.exists_of_versionAt_pos {s : Store} {key : String} (h : 0 < s.versionAt key) :
    ∃ record, s.record? key = some record := by
  cases hr : s.record? key with
  | none => simp [versionAt, hr] at h
  | some record => exact ⟨record, rfl⟩

namespace Coordinator

variable {c : Coordinator} {stream subscription : String} {positions : List Position}

/-- **A plan has seen a version of at least one.** -/
theorem one_le_version {d : Directory} {s s' : Store} {p : Plan} {past rest : List Event}
    {call : StoreCall} {answer : Except StoreError call.Answer} {frame : Frame}
    (hreach : s.Reachable) (hp : p.Ready c stream subscription positions past)
    (h : Linked d s (past ++ .store call answer frame :: rest) s') : 1 ≤ p.current.version := by
  obtain ⟨record, f, hread, hrec⟩ := hp.read
  obtain ⟨before, -, hrecord, -⟩ := h.between hread
  rw [← (StoredOffset.ofRecord_eq_ok hrec).2]
  exact (hreach.afterAll before).sound.version_pos _ record hrecord

section
variable {σ : Type} (env : Surroundings σ) (w : World σ) (c : Coordinator)
  (stream subscription : String) (cursors : List Cursor)

theorem plan_of_attempt {e : Event}
    (he : e ∈ ((c.commit stream subscription cursors).runIn env w).trace)
    (ha : e.isAttempt = true) :
    ∃ (positions : List Position) (p : Plan) (past rest : List Event)
        (answer : Except StoreError Bool) (frame : Frame),
      p.batch.tp ∈ env.directory.partitions cursors ∧
        (Key.offset subscription p.batch.tp.topic p.batch.tp.partition).Checked ∧
          p.Ready c stream subscription positions past ∧
            ((c.commit stream subscription cursors).runIn env w).trace = past ++ e :: rest ∧
              e = .store (c.writeCall subscription p) answer frame := by
  rcases commit_run_cases env w c stream subscription cursors with
    h | ⟨positions, plans, parts, h⟩
  · rw [h.quiet e he] at ha; cases ha
  · obtain ⟨p, past, rest, answer, frame, htp, hp, -, htr, hcall⟩ := h.of_attempt he ha
    have htold := (Action.linked_run env (c.commit stream subscription cursors) w).told
    have htraces := Action.traces_run env (c.commit stream subscription cursors) w
    rw [htr] at htold htraces
    have hrequested := (validated_of_attempt htold htraces ha).requested
    have hnames := Directory.checked_of_locates h.located htp
    exact ⟨positions, p, past, rest, answer, frame, htp,
      ⟨(Requested.checkCommit_eq_ok_iff.1 hrequested).1, hnames⟩, hp, htr, hcall⟩

/-- **A write of a commit overwrites a record.** -/
theorem write_overwrites (hreach : w.store.Reachable) {wr : Write}
    (hw : wr ∈ Event.writes ((c.commit stream subscription cursors).runIn env w).trace) :
    (∃ tp ∈ env.directory.partitions cursors, wr.key = c.offsetKey subscription tp) ∧
      ∃ old, wr.before.record? wr.key = some old ∧
        wr.after = wr.before.write wr.key wr.bytes := by
  have hl := Action.linked_run env (c.commit stream subscription cursors) w
  obtain ⟨positions, p, past, rest, frame, htp, hp, -, htr, rfl⟩ :=
    plan_of_write env w c stream subscription cursors hw
  rw [htr] at hl
  obtain ⟨⟨hversion, -⟩, hafter⟩ := versions_at_write hl
  have hpos := one_le_version hreach hp hl
  rw [← hversion] at hpos
  obtain ⟨old, hold⟩ := Store.exists_of_versionAt_pos hpos
  exact ⟨⟨p.batch.tp, htp, rfl⟩, old, hold, hafter⟩

/-- **A commit touches the offsets of its batch only**, whatever others do to
    the store.  Each compare-and-set asks for a version of at least one at the
    offset of a partition of the batch, which is no key of anything else; each
    that is applied overwrites a record; and no call creates or removes a
    record, or changes one at another key. -/
theorem commit_footprint (hreach : w.store.Reachable) :
    let run := (c.commit stream subscription cursors).runIn env w
    (∀ key version bytes guards answer frame,
      .store (.compareAndSet key version bytes guards) answer frame ∈ run.trace →
        1 ≤ version ∧ ∃ tp ∈ env.directory.partitions cursors,
          key = (Key.offset subscription tp.topic tp.partition).resolve c.root ∧
            ∀ k : Key, k.Checked → k.resolve c.root = key →
              k = .offset subscription tp.topic tp.partition) ∧
    (∀ wr ∈ Event.writes run.trace, ∃ old, wr.before.record? wr.key = some old ∧
      wr.after = wr.before.write wr.key wr.bytes) ∧
    ∀ call answer frame, .store call answer frame ∈ run.trace → ∀ key,
      (frame.after.record? key).isSome = (frame.before.record? key).isSome ∧
        ((∀ tp ∈ env.directory.partitions cursors, key ≠ c.offsetKey subscription tp) →
          frame.after.record? key = frame.before.record? key) := by
  intro run
  have hl := Action.linked_run env (c.commit stream subscription cursors) w
  refine ⟨?_, fun wr hw => (write_overwrites env w c stream subscription cursors hreach hw).2, ?_⟩
  · intro key version bytes guards answer frame he
    obtain ⟨positions, p, past, rest, _, _, htp, hchecked, hp, htr, hcall⟩ :=
      plan_of_attempt env w c stream subscription cursors he rfl
    rw [htr] at hl
    have hversion := one_le_version hreach hp hl
    cases hcall
    refine ⟨by exact_mod_cast hversion, p.batch.tp, htp, rfl, fun k hk hresolve => ?_⟩
    exact Key.resolve_inj hk hchecked hresolve
  · intro call answer frame he key
    obtain ⟨past, rest, htr⟩ := List.append_of_mem he
    rw [htr] at hl
    rcases hl.fits.after_cases with ⟨-, hafter⟩ | ⟨k, bytes, hwrite, hafter⟩
    · rw [hafter]
      exact ⟨rfl, fun _ => rfl⟩
    · obtain ⟨⟨tp, htp, hk⟩, old, hold, -⟩ :=
        write_overwrites env w c stream subscription cursors hreach
          (List.mem_filterMap.2 ⟨_, he, hwrite⟩)
      rw [hafter, Store.record?_write]
      refine ⟨?_, fun hother => if_neg fun hkey => hother tp htp (hkey.trans hk)⟩
      split
      · next hkey => rw [hkey, hold]; rfl
      · rfl

/-- The offset is deleted right before its write. -/
def Sample.deleted : List Rule :=
  [Sample.atWrite "0" 0 (.delete (Sample.offsetAt "0"))]

/-- An offset that was deleted stays away: the attempt to write it asks for a
    version, and finds none. -/
theorem deleted_offset_stays_away :
    let run := Sample.run Sample.deleted [Sample.cursor "0" "7"]
    run.world.store.record? (Sample.offsetAt "0") = none ∧
      ∃ key version bytes guards answer frame,
        .store (.compareAndSet key version bytes guards) answer frame ∈ run.trace ∧ 1 ≤ version ∧
          (frame.after.record? key).isSome = (frame.before.record? key).isSome := by
  intro run
  have hgone : run.world.store.record? (Sample.offsetAt "0") = none := by decide +kernel
  obtain ⟨e, he, ha⟩ : ∃ e ∈ run.trace, e.isAttempt = true := by decide +kernel
  obtain ⟨hattempts, -, hcalls⟩ := commit_footprint (.scripted Sample.directory toString)
    ⟨Sample.store, 0, Sample.deleted⟩ Sample.coordinator "n" "s" [Sample.cursor "0" "7"] ⟨_, rfl⟩
  rcases e with ⟨_ | _ | ⟨key, version, bytes, guards⟩, answer, frame⟩ | _ | _ | _ | _ <;> cases ha
  exact ⟨hgone, key, version, bytes, guards, answer, frame, he,
    (hattempts key version bytes guards answer frame he).1, (hcalls _ answer frame he key).1⟩

end

end Coordinator

end CursorCommit

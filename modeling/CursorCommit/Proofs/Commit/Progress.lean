/-
  What is reported is never lost.

  `commit_keeps_progress`: after a commit that succeeds the stored offset of
  each partition has reached all offsets that were reported for it, committed
  or outdated, if the others only advance the offsets meanwhile.

  The offset of a partition had reached them where the fold that explains the
  outcomes ends: at the write of this fold, or already at the read that it
  started from (`exists_stored_of_ready`).  The same holds of what a failed
  commit names as written, hence of all partitions that were dealt with
  (`hasReached_of_dealtWith`).
-/
import CursorCommit.Proofs.Commit.Accounts
import CursorCommit.Proofs.Store.Advance

namespace CursorCommit.Coordinator

/-- The stored offset of the partition compares as at least each offset that
    the cursors report for it. -/
def HasReached (c : Coordinator) (subscription : String) (d : Directory) (cursors : List Cursor)
    (s : Store) (tp : TopicPartition) : Prop :=
  ∃ text, s.textAt? (c.offsetKey subscription tp) = some text ∧
    ∀ cursor ∈ cursors, d.isIn tp cursor = true →
      (c.order.comparator tp.topic).reaches text cursor.offset = true

/-- The others only advance the offset of the partition in the events. -/
def Advanced (c : Coordinator) (subscription : String) (tr : List Event) (tp : TopicPartition) :
    Prop :=
  ∀ e ∈ tr, e.Advances (c.order.comparator tp.topic) (c.offsetKey subscription tp)

instance (c : Coordinator) (subscription : String) (tr : List Event) :
    DecidablePred (c.Advanced subscription tr) :=
  fun _ => inferInstanceAs (Decidable (∀ e ∈ tr, _))

variable {c : Coordinator} {stream subscription : String} {d : Directory} {cursors : List Cursor}
  {tr : List Event} {r : Except Error (List CommitResult)} {positions : List Position}
  {plans : List Plan} {parts : List Part}

/-- **Where the fold of a plan ends** is stored after the write of the plan, or
    after the read that it started from, and is not written any more. -/
theorem exists_stored_of_ready {s s' : Store} {p : Plan} (hl : Linked d s tr s')
    (hp : p.Ready c stream subscription positions tr)
    (hentries : (Event.entries tr).filter
      (fun e => e.1 = c.offsetKey subscription p.batch.tp) =
        if p.fold.advanced then
          [(c.offsetKey subscription p.batch.tp, Utf8.encode p.fold.highWater)] else []) :
    ∃ (past rest : List Event) (call : StoreCall) (answer : Except StoreError call.Answer)
      (frame : Frame), tr = past ++ .store call answer frame :: rest ∧
        (Event.entries rest).filter (fun e => e.1 = c.offsetKey subscription p.batch.tp) = [] ∧
        frame.after.textAt? (c.offsetKey subscription p.batch.tp) = some p.fold.highWater := by
  cases hadv : p.fold.advanced with
  | true =>
    -- the only write of the offset leaves it where the fold ends
    rw [hadv, if_pos rfl] at hentries
    obtain ⟨past, rest, version, guards, frame, rfl, hno⟩ :=
      Event.exists_write_of_entries_eq hentries
    refine ⟨past, rest, _, _, frame, rfl, hno, ?_⟩
    rw [hl.fits.of_compareAndSet.2.1, if_pos rfl, Store.textAt?_write_encode]
  | false =>
    -- the fold ends where it started, at the offset that was read
    rw [hadv, if_neg Bool.false_ne_true] at hentries
    obtain ⟨record, frame, hread, hrec⟩ := hp.read
    obtain ⟨past, rest, rfl⟩ := List.append_of_mem hread
    obtain ⟨hsame, hrecord⟩ := hl.fits.of_get
    have hend := Fold.highWater_spec (foldPartition_eq_ok hp.folded)
    rw [hadv, if_neg Bool.false_ne_true] at hend
    rw [Event.entries_append, Event.entries_cons, List.filter_append, List.filter_append,
      List.append_eq_nil_iff, List.append_eq_nil_iff] at hentries
    refine ⟨past, rest, _, _, frame, rfl, hentries.2.2, ?_⟩
    rw [hsame, hend]
    exact Store.textAt?_eq hrecord (StoredOffset.ofRecord_eq_ok hrec).1

/-- **A partition whose fold was carried out** has reached what was
    reported. -/
theorem hasReached_of_ready {s s' : Store} {p : Plan} (hl : Linked d s tr s')
    (hp : p.Ready c stream subscription positions tr)
    (hoffsets : p.batch.offsets positions = d.offsetsIn p.batch.tp cursors)
    (hentries : (Event.entries tr).filter
      (fun e => e.1 = c.offsetKey subscription p.batch.tp) =
        if p.fold.advanced then
          [(c.offsetKey subscription p.batch.tp, Utf8.encode p.fold.highWater)] else [])
    (ha : c.Advanced subscription tr p.batch.tp) :
    c.HasReached subscription d cursors s' p.batch.tp := by
  have hfold := foldPartition_eq_ok hp.folded
  rw [hoffsets] at hfold
  obtain ⟨past, rest, call, answer, frame, rfl, hno, hafter⟩ :=
    exists_stored_of_ready hl hp hentries
  obtain ⟨text, htext, hup⟩ :=
    hl.exists_textAt?_of_later hno (fun e he => ha e (by simp [he])) hafter
  refine ⟨text, htext, fun cursor hc hin => hup _ (Fold.highWater_reaches hfold ?_)⟩
  exact List.mem_map_of_mem (List.mem_filter.2 ⟨hc, hin⟩)

/-! ## The partitions that a commit deals with -/

/-- The partitions that are dealt with once a commit has this result. -/
def dealtWith (d : Directory) (cursors : List Cursor) :
    Except Error (List CommitResult) → List TopicPartition
  | .ok _ => d.partitions cursors
  | .error e => e.committed

/-- **A partition that was dealt with** has reached what was reported. -/
theorem Course.hasReached {tr : List Event} {r : Except Error (List CommitResult)}
    {parts : List Part} {s s' : Store}
    (h : c.Course stream subscription d cursors tr r positions plans parts)
    (hl : Linked d s tr s') {tp : TopicPartition} (htp : tp ∈ dealtWith d cursors r)
    (ha : c.Advanced subscription tr tp) :
    tp ∈ d.partitions cursors ∧ c.HasReached subscription d cursors s' tp := by
  cases r with
  | ok rs =>
    obtain ⟨p, hp, rfl, hoffsets, -, hentries⟩ := h.explained_at rfl htp
    exact ⟨htp, hasReached_of_ready hl hp hoffsets hentries ha⟩
  | error e =>
    have htp : tp ∈ e.committed := htp
    rw [eq_failure_of_results h.result.symm, committed_failure, committed_eq] at htp
    obtain ⟨bw, hbw, rfl⟩ := List.mem_map.1 htp
    obtain ⟨hbw, htells⟩ := List.mem_filter.1 hbw
    obtain ⟨t, ht, rfl⟩ := List.mem_map.1 hbw
    refine ⟨h.tp_mem_partitions ht, ?_⟩
    have hsettled := h.settled t ht
    cases hw : t.written with
    | error failure => simp [hw, Written.tells] at htells
    | ok outcomes =>
      rw [hw] at hsettled
      obtain ⟨p, hp, hb, -, hentries⟩ := hsettled
      have hgroup : t.batch ∈ Batch.group positions :=
        h.sublist_parts.subset (List.mem_map_of_mem ht)
      rw [← hb] at ha hgroup ⊢
      refine hasReached_of_ready hl hp (offsets_of_locates h.located hgroup) ?_ ha
      rw [hb, h.entries_at ht, hentries]

theorem Unwritten.dealtWith_eq_nil (h : Unwritten cursors tr r) :
    dealtWith d cursors r = [] := by
  rcases h.result with ⟨e, rfl, he⟩ | ⟨rfl, rfl⟩
  · exact he
  · rfl

section
variable {σ : Type} (env : Surroundings σ) (w : World σ) (c : Coordinator)
  (stream subscription : String) (cursors : List Cursor)

variable {env w c stream subscription cursors} in
/-- **What a commit has dealt with** has reached what was reported, if the
    others only advance the offset. -/
theorem hasReached_of_dealtWith {tp : TopicPartition}
    (htp : tp ∈ dealtWith env.directory cursors
      ((c.commit stream subscription cursors).runIn env w).value)
    (ha : c.Advanced subscription ((c.commit stream subscription cursors).runIn env w).trace tp) :
    tp ∈ env.directory.partitions cursors ∧
      c.HasReached subscription env.directory cursors
        ((c.commit stream subscription cursors).runIn env w).world.store tp := by
  have hl := Action.linked_run env (c.commit stream subscription cursors) w
  rcases commit_run_cases env w c stream subscription cursors with h | ⟨_, _, _, h⟩
  · rw [h.dealtWith_eq_nil] at htp
    cases htp
  · exact h.hasReached hl htp ha

/-- **No progress is lost**: when a commit has succeeded, the stored offset of
    each partition has reached all offsets that were reported for it, if the
    others only advance the offsets of the batch meanwhile. -/
theorem commit_keeps_progress {rs : List CommitResult}
    (hrs : ((c.commit stream subscription cursors).runIn env w).value = .ok rs)
    (ha : ∀ tp ∈ env.directory.partitions cursors, c.Advanced subscription
      ((c.commit stream subscription cursors).runIn env w).trace tp) :
    (∀ cursor ∈ cursors,
      ∃ tp ∈ env.directory.partitions cursors, env.directory.isIn tp cursor = true) ∧
    ∀ tp ∈ env.directory.partitions cursors,
      c.HasReached subscription env.directory cursors
        ((c.commit stream subscription cursors).runIn env w).world.store tp := by
  constructor
  · rcases commit_run_cases env w c stream subscription cursors with h | ⟨_, _, _, h⟩
    · rcases h.result with ⟨e, hr, -⟩ | ⟨-, rfl⟩
      · rw [hrs] at hr; cases hr
      · simp
    · exact fun cursor hc => Directory.exists_isIn_of_locates h.located hc
  · intro tp htp
    have hdealt : tp ∈ dealtWith env.directory cursors
        ((c.commit stream subscription cursors).runIn env w).value := by
      rw [hrs]
      exact htp
    exact (hasReached_of_dealtWith hdealt (ha tp htp)).2

/-- After two lost races both partitions have reached what was reported, the
    one by the commit and the other by somebody else. -/
theorem two_races_keep_progress :
    (∀ tp ∈ Sample.directory.partitions Sample.interleaved, Sample.coordinator.Advanced "s"
      (Sample.run Sample.twoRaces Sample.interleaved).trace tp) ∧
    (Sample.run Sample.twoRaces Sample.interleaved).value.isOk = true ∧
      ∀ tp ∈ Sample.directory.partitions Sample.interleaved,
        Sample.coordinator.HasReached "s" Sample.directory Sample.interleaved
          (Sample.run Sample.twoRaces Sample.interleaved).world.store tp := by
  have hadvanced : ∀ tp ∈ Sample.directory.partitions Sample.interleaved,
      Sample.coordinator.Advanced "s"
        (Sample.run Sample.twoRaces Sample.interleaved).trace tp := by decide +kernel
  have hok : (Sample.run Sample.twoRaces Sample.interleaved).value.isOk = true := by decide +kernel
  refine ⟨hadvanced, hok, ?_⟩
  cases h : (Sample.run Sample.twoRaces Sample.interleaved).value with
  | error e => rw [h] at hok; cases hok
  | ok rs => exact (commit_keeps_progress _ _ _ _ _ _ h hadvanced).2

end

end CursorCommit.Coordinator

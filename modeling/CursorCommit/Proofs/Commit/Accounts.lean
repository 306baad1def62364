/-
  What a commit tells about its writes.

  * `commit_accounts_for_writes`: a failure names exactly the partitions that
    were written, and a success has a committed cursor exactly in these;
  * `commit_explained_by_reads`: the outcomes of a success are, partition by
    partition, those of one fold against an offset that the commit read, and
    what it wrote there is where this fold ends.
-/
import CursorCommit.Proofs.Commit.Results
import CursorCommit.Proofs.Commit.Safety

namespace CursorCommit

/-- The stream does not own the partitions, or lost them. -/
def Error.isOwnership : Error → Bool
  | .ownership .. => true
  | _ => false

/-- The partition was lost, not just its race. -/
def WriteFailure.isLoss : WriteFailure → Bool
  | .conflict => false
  | .failed e => e.isOwnership

/-- The write failed because others acted: its attempts are used up, or its
    partition is lost. -/
def WriteFailure.isContention (f : WriteFailure) : Bool :=
  f = .conflict || f.isLoss

namespace Coordinator

/-! ## Several failures in one error -/

section
variable {failed : List (TopicPartition × WriteFailure)} {tp : TopicPartition}

theorem mem_failures_iff {written : List (Batch × Written)} {f : WriteFailure} :
    (tp, f) ∈ failures written ↔ ∃ b, (b, .error f) ∈ written ∧ b.tp = tp := by
  constructor
  · intro h
    obtain ⟨⟨b, w⟩, hm, hw⟩ := List.mem_filterMap.1 h
    cases w <;> cases hw
    exact ⟨b, hm, rfl⟩
  · rintro ⟨b, hm, rfl⟩
    exact List.mem_filterMap.2 ⟨_, hm, rfl⟩

theorem failures_ne_nil {written : List (Batch × Written)} {b : Batch} {f : WriteFailure}
    (h : (b, .error f) ∈ written) : failures written ≠ [] :=
  List.ne_nil_of_mem (mem_failures_iff.2 ⟨b, h, rfl⟩)

theorem mem_conflicted_iff : tp ∈ conflicted failed ↔ (tp, .conflict) ∈ failed := by
  constructor
  · intro h
    obtain ⟨⟨tp', f⟩, hf, htp⟩ := List.mem_filterMap.1 h
    cases f <;> cases htp
    exact hf
  · intro h
    exact List.mem_filterMap.2 ⟨_, h, rfl⟩

theorem mem_lost_iff :
    tp ∈ lost failed ↔ ∃ f : WriteFailure, (tp, f) ∈ failed ∧ f.isLoss = true := by
  constructor
  · intro h
    obtain ⟨⟨tp', _ | e⟩, hf, htp⟩ := List.mem_filterMap.1 h
    · cases htp
    · cases e <;> cases htp
      exact ⟨_, hf, rfl⟩
  · rintro ⟨_ | e, hf, hloss⟩
    · cases hloss
    · cases e <;> cases hloss
      exact List.mem_filterMap.2 ⟨_, hf, rfl⟩

theorem lost_eq_nil_iff : lost failed = [] ↔ ∀ f ∈ failed, f.2.isLoss = false := by
  simp only [List.eq_nil_iff_forall_not_mem, mem_lost_iff, not_exists, not_and,
    Bool.not_eq_true, Prod.forall]

theorem firstError?_eq_none_iff :
    firstError? failed = none ↔ ∀ f ∈ failed, f.2.isContention = true := by
  rw [firstError?, List.findSome?_eq_none_iff]
  refine forall₂_congr fun f _ => ?_
  obtain ⟨tp, _ | e⟩ := f
  · simp [WriteFailure.isContention]
  · cases e <;> simp [WriteFailure.isContention, WriteFailure.isLoss, Error.isOwnership]

end

/-! ## The partitions that are written -/

/-- The partitions of a list whose offset is written in the trace. -/
def writtenIn (c : Coordinator) (subscription : String) (tr : List Event)
    (tps : List TopicPartition) : List TopicPartition :=
  tps.filter fun tp => (Event.writes tr).any fun wr => wr.key == c.offsetKey subscription tp

theorem any_key_iff {tr : List Event} {key : String} :
    ((Event.writes tr).any fun wr => wr.key == key) = true ↔
      (Event.entries tr).filter (fun e => e.1 = key) ≠ [] := by
  simp [Event.entries, List.filter_eq_nil_iff]

theorem map_bytes_filter (tr : List Event) (key : String) :
    ((Event.writes tr).filter fun wr => wr.key = key).map Write.bytes =
      ((Event.entries tr).filter fun e => e.1 = key).map Prod.snd := by
  rw [Event.entries, List.filter_map, List.map_map]; rfl

@[simp] theorem committed_failure (stream : String) (tps : List TopicPartition)
    (failed : List (TopicPartition × WriteFailure)) :
    (failure stream tps failed).committed = tps := by
  unfold failure
  split
  · rfl
  · rfl
  · split <;> rfl

theorem eq_failure_of_results {stream : String} {cursors : List Cursor} {plans : List Plan}
    {written : List (Batch × Written)} {e : Error}
    (h : results stream cursors plans written = .error e) :
    e = failure stream (committed written) (failures written) := by
  unfold results at h
  split at h <;> cases h
  rfl

theorem contains_outcomesIn (d : Directory) (tp : TopicPartition) (rs : List CommitResult) :
    (d.outcomesIn tp rs).contains .committed =
      rs.any fun result => d.isIn tp result.cursor && result.isCommitted := by
  rw [Bool.eq_iff_iff]
  simp [Directory.outcomesIn, CommitResult.isCommitted, and_assoc]

namespace Course

variable {c : Coordinator} {stream subscription : String} {d : Directory} {cursors : List Cursor}
  {tr : List Event} {r : Except Error (List CommitResult)} {positions : List Position}
  {plans : List Plan} {parts : List Part}
  (h : c.Course stream subscription d cursors tr r positions plans parts)
include h

theorem any_key_iff_tells {tp : TopicPartition} (htp : tp ∈ d.partitions cursors) :
    ((Event.writes tr).any fun wr => wr.key == c.offsetKey subscription tp) = true ↔
      ∃ t ∈ parts, t.batch.tp = tp ∧ t.written.tells = true := by
  rw [any_key_iff]
  constructor
  · intro hne
    have hm : tp ∈ parts.map fun t => t.batch.tp := by
      by_contra hno
      exact hne (h.entries_elsewhere htp hno)
    obtain ⟨t, ht, rfl⟩ := List.mem_map.1 hm
    rw [h.entries_at ht, (h.settled t ht).entries_ne_nil_iff] at hne
    exact ⟨t, ht, rfl, hne⟩
  · rintro ⟨t, ht, rfl, htells⟩
    rw [h.entries_at ht]
    exact (h.settled t ht).entries_ne_nil_iff.2 htells

/-- **The partitions that are named as written** are those that are written. -/
theorem committed_eq_writtenIn : committed (parts.map fun t => (t.batch, t.written)) =
    c.writtenIn subscription tr (d.partitions cursors) := by
  have hnd : (d.partitions cursors).Nodup := nodup_eraseDups _
  rw [committed_eq, List.filter_map, List.map_map]
  refine eq_filter_of_sublist ?_ hnd fun tp htp => ?_
  · have hparts : (parts.map fun t => t.batch.tp).Sublist (d.partitions cursors) := by
      have := h.sublist_parts.map Batch.tp
      rwa [List.map_map, ← h.partitions_eq] at this
    exact (List.filter_sublist.map _).trans hparts
  · rw [h.any_key_iff_tells htp, List.mem_map]
    constructor
    · rintro ⟨t, ht, rfl, htells⟩
      exact ⟨t, List.mem_filter.2 ⟨ht, htells⟩, rfl⟩
    · rintro ⟨t, ht, rfl⟩
      obtain ⟨ht, htells⟩ := List.mem_filter.1 ht
      exact ⟨t, ht, rfl, htells⟩

end Course

/-! ## The accounts of a commit -/

/-- A fold against an offset that was read explains what became of the cursors
    in the partition, and what was written there. -/
def Explained (c : Coordinator) (subscription : String) (d : Directory) (cursors : List Cursor)
    (tr : List Event) (rs : List CommitResult) (tp : TopicPartition) : Prop :=
  ∃ (record : Record) (frame : Frame) (offset : String) (fold : Fold),
    .store (.get (c.offsetKey subscription tp)) (.ok (some record)) frame ∈ tr ∧
      record.text = .ok offset ∧
      Fold.ofOffsets (c.order.comparator tp.topic) offset (d.offsetsIn tp cursors) = .ok fold ∧
      d.outcomesIn tp rs = fold.outcomes ∧
      ((Event.writes tr).filter fun wr => wr.key = c.offsetKey subscription tp).map Write.bytes =
        if fold.advanced then [Utf8.encode fold.highWater] else []

/-- Cursors of two partitions in turn. -/
def Sample.interleaved : List Cursor :=
  [cursor "0" "7", cursor "1" "8", cursor "0" "6", cursor "1" "9"]

/-- The write of the second partition fails. -/
def Sample.lostConnection : List Rule :=
  [atWrite "1" 0 (.fail (.connection "lost"))]

/-- Another raises the offsets of both partitions before the first writes, and
    that of one by more than is reported. -/
def Sample.twoRaces : List Rule :=
  [atWrite "0" 0 (.put (offsetAt "0") (Utf8.encode "6")),
    atWrite "1" 0 (.put (offsetAt "1") (Utf8.encode "20"))]

section
variable {σ : Type} (env : Surroundings σ) (w : World σ) (c : Coordinator)
  (stream subscription : String) (cursors : List Cursor)

/-- **A commit accounts for its writes.**  It writes offsets of its partitions
    only; if it fails, then it names exactly the partitions that it wrote, in
    the order of their first appearance, and if it succeeds, then these are
    exactly the ones with a committed cursor. -/
theorem commit_accounts_for_writes :
    (∀ wr ∈ Event.writes ((c.commit stream subscription cursors).runIn env w).trace,
      ∃ tp ∈ env.directory.partitions cursors, wr.key = c.offsetKey subscription tp) ∧
    (∀ e, ((c.commit stream subscription cursors).runIn env w).value = .error e →
      e.committed = c.writtenIn subscription
        ((c.commit stream subscription cursors).runIn env w).trace
          (env.directory.partitions cursors)) ∧
    ∀ rs, ((c.commit stream subscription cursors).runIn env w).value = .ok rs →
      c.writtenIn subscription ((c.commit stream subscription cursors).runIn env w).trace
          (env.directory.partitions cursors) =
        (env.directory.partitions cursors).filter fun tp =>
          rs.any fun result => env.directory.isIn tp result.cursor && result.isCommitted := by
  rcases commit_run_cases env w c stream subscription cursors with
    h | ⟨positions, plans, parts, h⟩
  · have hnone := h.writes_eq_nil
    refine ⟨?_, ?_, ?_⟩
    · intro wr hw
      rw [hnone] at hw; cases hw
    · intro e he
      rcases h.result with ⟨e', hr, hnil⟩ | ⟨hr, -⟩ <;> rw [he] at hr <;> cases hr
      simp [writtenIn, hnone, hnil]
    · intro rs hrs
      rcases h.result with ⟨e', hr, -⟩ | ⟨hr, -⟩ <;> rw [hrs] at hr <;> cases hr
      simp [writtenIn, hnone]
  · refine ⟨?_, ?_, ?_⟩
    · intro wr hw
      obtain ⟨p, past, rest, frame, htp, -, -, -, rfl⟩ := h.of_mem_writes hw
      exact ⟨_, htp, rfl⟩
    · intro e he
      have hresult := h.result
      rw [he, results] at hresult
      split at hresult
      · cases hresult
        rw [committed_failure, h.committed_eq_writtenIn]
      · cases hresult
    · intro rs hrs
      refine List.filter_congr ?_
      intro tp htp
      obtain ⟨p, -, -, -, ho, hentries⟩ := h.explained_at hrs htp
      rw [← contains_outcomesIn, ho, ← Fold.advanced, Bool.eq_iff_iff, any_key_iff, hentries]
      cases p.fold.advanced <;> simp

/-- A write of one partition that fails does not hide that of another. -/
theorem partial_failure_accounts :
    ∃ e, (Sample.run Sample.lostConnection Sample.interleaved).value = .error e ∧
      e.committed = Sample.coordinator.writtenIn "s"
        (Sample.run Sample.lostConnection Sample.interleaved).trace
          (Sample.directory.partitions Sample.interleaved) ∧
      e.committed = [⟨"t", "0"⟩] := by
  have hwritten : Sample.coordinator.writtenIn "s"
      (Sample.run Sample.lostConnection Sample.interleaved).trace
        (Sample.directory.partitions Sample.interleaved) = [⟨"t", "0"⟩] := by decide +kernel
  have hfails : (Sample.run Sample.lostConnection Sample.interleaved).value.isOk = false := by
    decide +kernel
  cases h : (Sample.run Sample.lostConnection Sample.interleaved).value with
  | ok rs => rw [h] at hfails; cases hfails
  | error e =>
    have hcommitted := (commit_accounts_for_writes _ _ _ _ _ _).2.1 e h
    exact ⟨e, rfl, hcommitted, hcommitted.trans hwritten⟩

/-- **The store explains a success.**  The results are those of the cursors, in
    order, and each cursor is in a partition of the batch; in each partition
    the outcomes are those of the fold of its offsets against one that the
    commit read there, and what it wrote is where this fold ends, once, if a
    cursor is committed. -/
theorem commit_explained_by_reads {rs : List CommitResult}
    (hrs : ((c.commit stream subscription cursors).runIn env w).value = .ok rs) :
    rs.map CommitResult.cursor = cursors ∧
    (∀ cursor ∈ cursors,
      ∃ tp ∈ env.directory.partitions cursors, env.directory.isIn tp cursor = true) ∧
    ∀ tp ∈ env.directory.partitions cursors,
      c.Explained subscription env.directory cursors
        ((c.commit stream subscription cursors).runIn env w).trace rs tp := by
  rcases commit_run_cases env w c stream subscription cursors with
    h | ⟨positions, plans, parts, h⟩
  · rcases h.result with ⟨e, hr, -⟩ | ⟨hr, rfl⟩ <;> rw [hrs] at hr <;> cases hr
    exact ⟨rfl, by simp, by simp [Directory.partitions]⟩
  · refine ⟨(h.explained hrs).1, ?_, ?_⟩
    · intro cursor hcursor
      obtain ⟨p, hp, hloc⟩ := forall₂_mem_left h.located hcursor
      refine ⟨p.tp, ?_, decide_eq_true hloc.tp⟩
      exact List.mem_eraseDups.2 (List.mem_filterMap.2 ⟨cursor, hcursor, hloc.tp⟩)
    · intro tp htp
      obtain ⟨p, hp, rfl, hoffsets, ho, hentries⟩ := h.explained_at hrs htp
      obtain ⟨record, frame, hread, hrec⟩ := hp.read
      have hfold := foldPartition_eq_ok hp.folded
      rw [hoffsets] at hfold
      refine ⟨record, frame, p.current.offset, p.fold, hread, (StoredOffset.ofRecord_eq_ok hrec).1,
        hfold, ho, ?_⟩
      rw [map_bytes_filter, hentries]
      cases p.fold.advanced <;> rfl

/-- After two lost races one partition is committed and the other outdated. -/
theorem two_races_explained :
    ∃ rs, (Sample.run Sample.twoRaces Sample.interleaved).value = .ok rs ∧
      rs.map CommitResult.outcome = [.committed, .outdated, .outdated, .outdated] ∧
        rs.map CommitResult.cursor = Sample.interleaved ∧
          ∀ tp ∈ Sample.directory.partitions Sample.interleaved,
            Sample.coordinator.Explained "s" Sample.directory Sample.interleaved
              (Sample.run Sample.twoRaces Sample.interleaved).trace rs tp := by
  have houtcomes : (Sample.run Sample.twoRaces Sample.interleaved).value.toOption.map
      (List.map CommitResult.outcome) = some [.committed, .outdated, .outdated, .outdated] := by
    decide +kernel
  cases h : (Sample.run Sample.twoRaces Sample.interleaved).value with
  | error e => rw [h] at houtcomes; cases houtcomes
  | ok rs =>
    obtain ⟨hcursors, -, hexplained⟩ := commit_explained_by_reads _ _ _ _ _ _ h
    rw [h] at houtcomes
    exact ⟨rs, rfl, Option.some.inj houtcomes, hcursors, hexplained⟩

end

end Coordinator

end CursorCommit

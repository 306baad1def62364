/-
  All checks of a commit come before its writes.

  `commit_validates_first`: what precedes a compare-and-set of a commit has
  all look-ups and reads that its batch calls for, each with an answer that
  lets it go on (`Validated`).  So a commit that refuses its request or a
  cursor has made none; and if it refuses partitions without having made any,
  these are the ones whose assignment it read and found to be another's
  (`Disowned`), or all of them if the stream has no session.
-/
import CursorCommit.Proofs.Commit.Accounts

namespace CursorCommit

/-- The record is there, and assigns its partition firmly to the stream. -/
def Assigns (stream : String) (o : Option Record) : Prop :=
  ∃ record text, o = some record ∧ record.text = .ok text ∧
    Assignment.parse text = .ok ⟨stream, .assigned⟩

theorem Sighting.isOwnedBy_ofRecord?_iff {stream : String} {o : Option Record} :
    (ofRecord? o).isOwnedBy stream = true ↔ Assigns stream o := by
  constructor
  · intro h
    obtain ⟨record, text, ho, ht, ha, -⟩ := of_isOwnedBy h
    exact ⟨record, text, ho, ht, ha⟩
  · rintro ⟨record, text, rfl, ht, ha⟩
    simp [ofRecord?, isOwnedBy, ht, ha, Except.toOption, Assignment.isOwnedBy]

/-- The request, a name, a cursor or the stored state was refused. -/
def Error.isRejection : Error → Bool
  | .invalidRequest _ | .resolution _ | .invalidCursor _ | .invalidState _ => true
  | .ownership .. | .conflict .. | .storeUnavailable .. | .writeFailed .. => false

namespace Coordinator

/-- All that a commit has to check was looked up or read in the past, with an
    answer that lets the commit go on. -/
structure Validated (c : Coordinator) (stream subscription : String) (d : Directory)
    (cursors : List Cursor) (past : List Event) : Prop where
  requested : Requested.checkCommit stream subscription = .ok ()
  included : ∃ found, .subscription subscription (.ok found) ∈ past ∧
    ∀ cursor ∈ cursors, found.includes cursor.eventType = true
  resolved : ∀ cursor ∈ cursors, ∃ eventType,
    .eventType cursor.eventType (.ok eventType) ∈ past ∧
      Name.checkSegment eventType.topic = .ok () ∧
        ⟨eventType.topic, cursor.partition⟩ ∈ d.partitions cursors
  session : ∃ record frame,
    .store (.get (c.sessionKey subscription stream)) (.ok (some record)) frame ∈ past
  assigned : ∀ tp ∈ d.partitions cursors, ∃ o frame,
    .store (.get (c.assignmentKey subscription tp)) (.ok o) frame ∈ past ∧ Assigns stream o
  folded : ∀ tp ∈ d.partitions cursors, ∃ (record : Record) (frame : Frame) (offset : String)
      (fold : Fold), .store (.get (c.offsetKey subscription tp)) (.ok (some record)) frame ∈ past ∧
    record.text = .ok offset ∧
      Fold.ofOffsets (c.order.comparator tp.topic) offset (d.offsetsIn tp cursors) = .ok fold

/-- The partitions `tps` are those of the batch whose assignment was read and
    is not to the stream, in order. -/
structure Disowned (c : Coordinator) (stream subscription : String) (d : Directory)
    (cursors : List Cursor) (tr : List Event) (tps : List TopicPartition) : Prop where
  session : ∃ record frame,
    .store (.get (c.sessionKey subscription stream)) (.ok (some record)) frame ∈ tr
  order : tps.Sublist (d.partitions cursors)
  read : ∀ tp ∈ d.partitions cursors, ∃ o frame,
    .store (.get (c.assignmentKey subscription tp)) (.ok o) frame ∈ tr
  named : ∀ tp ∈ d.partitions cursors, ∀ o frame,
    .store (.get (c.assignmentKey subscription tp)) (.ok o) frame ∈ tr →
      (tp ∈ tps ↔ ¬ Assigns stream o)

variable {c : Coordinator} {stream subscription : String} {d : Directory} {cursors : List Cursor}
  {tr : List Event}

/-! ## Before the writes -/

theorem Validated.mono {past past' : List Event}
    (h : c.Validated stream subscription d cursors past) (hs : past ⊆ past') :
    c.Validated stream subscription d cursors past' where
  requested := h.requested
  included := by
    obtain ⟨found, hfound, hall⟩ := h.included
    exact ⟨found, hs hfound, hall⟩
  resolved cursor hc := by
    obtain ⟨eventType, he, hrest⟩ := h.resolved cursor hc
    exact ⟨eventType, hs he, hrest⟩
  session := by
    obtain ⟨record, frame, hr⟩ := h.session
    exact ⟨record, frame, hs hr⟩
  assigned tp htp := by
    obtain ⟨o, frame, hr, ho⟩ := h.assigned tp htp
    exact ⟨o, frame, hs hr, ho⟩
  folded tp htp := by
    obtain ⟨record, frame, offset, fold, hr, hrest⟩ := h.folded tp htp
    exact ⟨record, frame, offset, fold, hs hr, hrest⟩

/-- **A commit that goes on to its writes** has checked everything. -/
theorem validated_of_prepare {positions : List Position} {plans : List Plan} (hd : d.Told tr)
    (h : (c.prepare stream subscription cursors).Traces tr (.ok (positions, plans))) :
    c.Validated stream subscription d cursors tr := by
  obtain ⟨hloc, hbs, hready⟩ := traces_prepare_ok hd h
  obtain ⟨hcheck, found, t₁, t₂, t₃, seen, hps, hseen, -, rfl⟩ := traces_prepare_ok_parts h
  have hplaced := Cursor.positions_placed hps
  have hpartitions : d.partitions cursors = (positions.map Position.tp).eraseDups :=
    Directory.partitions_of_locates hloc
  have hplan : ∀ tp ∈ d.partitions cursors, ∃ p ∈ plans, p.batch.tp = tp ∧
      p.batch ∈ Batch.group positions := by
    intro tp htp
    rw [hpartitions, ← Batch.map_tp_group, ← hbs, List.map_map] at htp
    obtain ⟨p, hp, rfl⟩ := List.mem_map.1 htp
    exact ⟨p, hp, rfl, hbs ▸ List.mem_map_of_mem hp⟩
  refine ⟨hcheck, ⟨found, List.mem_cons_self, ?_⟩, ?_, ?_, ?_, ?_⟩
  · intro cursor hc
    obtain ⟨p, -, hp⟩ := forall₂_mem_left hplaced hc
    exact hp.included
  · intro cursor hc
    obtain ⟨p, hmem, hp⟩ := forall₂_mem_left hplaced hc
    obtain ⟨eventType, he, rfl⟩ := hp.told
    refine ⟨eventType, by simp [he], hp.topic, ?_⟩
    rw [hpartitions, List.mem_eraseDups]
    exact List.mem_map_of_mem (f := Position.tp) hmem
  · cases validation_of_traces_owned hseen with
    | owned record frame => exact ⟨record, frame, by simp⟩
  · intro tp htp
    obtain ⟨p, hp, rfl, -⟩ := hplan tp htp
    obtain ⟨o, frame, hr, ho⟩ := (hready p hp).seen
    refine ⟨o, frame, hr, Sighting.isOwnedBy_ofRecord?_iff.1 ?_⟩
    rw [ho]
    exact (hready p hp).owned
  · intro tp htp
    obtain ⟨p, hp, rfl, hb⟩ := hplan tp htp
    obtain ⟨record, frame, hr, hrec⟩ := (hready p hp).read
    refine ⟨record, frame, p.current.offset, p.fold, hr, (StoredOffset.ofRecord_eq_ok hrec).1, ?_⟩
    rw [← offsets_of_locates hloc hb]
    exact foldPartition_eq_ok (hready p hp).folded

/-! ## Partitions that the stream does not own -/

section
variable {batches : List Batch} {seen : List Sighting}

theorem map_tp_zip (hl : batches.length = seen.length) :
    (batches.zip seen).map (fun q => q.1.tp) = batches.map Batch.tp := by
  show (batches.zip seen).map (Batch.tp ∘ Prod.fst) = _
  rw [← List.map_map, List.map_fst_zip hl.le]

theorem unowned_sublist (hl : batches.length = seen.length) :
    (unowned stream batches seen).Sublist (batches.map Batch.tp) := by
  rw [← map_tp_zip hl]
  exact List.filter_sublist.map _

theorem mem_unowned_iff (hl : batches.length = seen.length) (hnd : (batches.map Batch.tp).Nodup)
    {b : Batch} {s : Sighting} (hq : (b, s) ∈ batches.zip seen) :
    b.tp ∈ unowned stream batches seen ↔ ¬ s.isOwnedBy stream = true := by
  rw [← map_tp_zip hl] at hnd
  constructor
  · intro h
    obtain ⟨q, hq', he⟩ := List.mem_map.1 h
    obtain ⟨hmem, hno⟩ := List.mem_filter.1 hq'
    cases List.inj_on_of_nodup_map hnd hmem hq he
    simpa using hno
  · intro h
    exact List.mem_map.2 ⟨(b, s), List.mem_filter.2 ⟨hq, by simpa using h⟩, rfl⟩

/-- **A partition is refused iff what was read of it** is not its assignment
    to the stream. -/
theorem mem_unowned_iff_of_read {t : List Event}
    (h : (batches.mapM fun b => c.sight subscription b.tp).Traces t (.ok seen))
    (hnd : (batches.map Batch.tp).Nodup)
    (hchecked : ∀ tp ∈ batches.map Batch.tp, Name.checkSegment tp.topic = .ok ())
    {tp : TopicPartition} (htp : tp ∈ batches.map Batch.tp) {o : Option Record} {frame : Frame}
    (hr : .store (.get (c.assignmentKey subscription tp)) (.ok o) frame ∈ t) :
    tp ∈ unowned stream batches seen ↔ ¬ Assigns stream o := by
  obtain ⟨⟨b, s⟩, hq, t', ht', hsight⟩ := Action.exists_of_traces_mapM_ok h hr
  obtain ⟨o', frame', rfl, hs⟩ := traces_sight_ok hsight
  have he := List.mem_singleton.1 ht'
  have hkey : c.assignmentKey subscription tp = c.assignmentKey subscription b.tp := by
    injection he with hcall
    exact StoreCall.get.inj hcall
  have hb : b.tp ∈ batches.map Batch.tp := List.mem_map_of_mem (List.of_mem_zip hq).1
  obtain rfl := assignmentKey_inj (hchecked tp htp) (hchecked _ hb) hkey
  cases he
  rw [mem_unowned_iff (traces_sights_ok h).length_eq hnd hq, ← Sighting.isOwnedBy_ofRecord?_iff]
  rw [show s = Sighting.ofRecord? o from hs.symm]

end

/-- A preparation that fails over ownership does so in its validation. -/
theorem traces_prepare_error_parts {e : Error} (he : ¬ e.IsEarly)
    (h : (c.prepare stream subscription cursors).Traces tr (.error e)) :
    ∃ found positions t₁ t₂, (Cursor.positions found cursors).Traces t₁ (.ok positions) ∧
      (c.owned stream subscription (Batch.group positions)).Traces t₂ (.error e) ∧
      tr = .subscription subscription (.ok found) :: (t₁ ++ t₂) := by
  have hcheck : (Action.of (Requested.checkCommit stream subscription)).Confined
      (fun _ => True) Error.IsEarly := Action.confined_of fun _ => isEarly_of_checkCommit
  obtain ⟨u, t₀, x₀, h₀, hx₀, rfl⟩ := hcheck.traces_bind_of_not he h
  obtain ⟨found, t, x₁, h₁, hx₁, rfl⟩ :=
    (Action.confined_subscription subscription).traces_bind_of_not he hx₀
  obtain ⟨positions, t₁, t₂, hps, hx₂, rfl⟩ :=
    (Cursor.confined_positions found cursors).traces_bind_of_not he hx₁
  obtain ⟨rfl, -⟩ := Action.traces_of.1 h₀
  obtain ⟨answer, rfl, hanswer⟩ := Action.traces_subscription.1 h₁
  cases answer <;> cases hanswer
  refine ⟨found, positions, t₁, t₂, hps, ?_, rfl⟩
  rcases Action.traces_bind.1 hx₂ with ⟨e', howned, he'⟩ | ⟨seen, y₁, y₂, -, hx₃, -⟩
  · cases he'; exact howned
  · obtain ⟨plans, z₁, z₂, -, hpure, -⟩ :=
      (c.confined_planAll subscription positions _ seen).traces_bind_of_not he hx₃
    cases (Action.traces_pure.1 hpure).2

/-- **What a refusal names**: all partitions if the stream has no session, and
    else those that it does not own. -/
theorem refusal_of_prepare {e : Error} {ms : List Metric} (hd : d.Told tr) (he : ¬ e.IsEarly)
    (h : (c.prepare stream subscription cursors).Traces tr (.error e)) :
    ∃ tps, e = .ownership stream tps [] ∧
      ((∃ frame, .store (.get (c.sessionKey subscription stream)) (.ok none) frame ∈ tr) ∧
          tps = d.partitions cursors ∨
        c.Disowned stream subscription d cursors (tr ++ ms.map Event.tick) tps) := by
  obtain ⟨found, positions, t₁, t₂, hps, howned, rfl⟩ := traces_prepare_error_parts he h
  have hloc : List.Forall₂ d.Locates cursors positions :=
    Cursor.positions_locate (hd.mono (by simp)) hps
  have hpartitions : d.partitions cursors = (Batch.group positions).map Batch.tp := by
    rw [Batch.map_tp_group, Directory.partitions_of_locates hloc]
  have hchecked : ∀ tp ∈ (Batch.group positions).map Batch.tp,
      Name.checkSegment tp.topic = .ok () := by
    rw [← hpartitions]
    exact fun tp htp => (Directory.checked_of_locates hloc htp).1
  cases validation_of_traces_owned howned with
  | failed hearly => exact absurd hearly he
  | absent frame => exact ⟨_, rfl, Or.inl ⟨⟨frame, by simp⟩, hpartitions.symm⟩⟩
  | @disowned record frame t seen hsights =>
    refine ⟨_, rfl, Or.inr ⟨⟨record, frame, by simp⟩, ?_, ?_, ?_⟩⟩ <;> rw [hpartitions]
    · exact unowned_sublist (traces_sights_ok hsights).length_eq
    · intro tp htp
      obtain ⟨b, hb, rfl⟩ := List.mem_map.1 htp
      obtain ⟨s, -, o, f, hr, -⟩ := forall₂_mem_left (traces_sights_ok hsights) hb
      exact ⟨o, f, by simp [hr]⟩
    · -- no other event is a read of the assignment
      intro tp htp o f hr
      have hlookup : .store (.get (c.assignmentKey subscription tp)) (.ok o) f ∉ t₁ := by
        intro hm
        obtain ⟨name, answer, hno⟩ := (Cursor.confined_positions found cursors _ _ hps).1 _ hm
        cases hno
      have hsession := c.sessionKey_ne_assignmentKey subscription stream tp
      have hmem : .store (.get (c.assignmentKey subscription tp)) (.ok o) f ∈ t := by
        simpa [hlookup, hsession.symm] using hr
      exact mem_unowned_iff_of_read hsights Batch.nodup_group hchecked htp hmem

/-! ## A commit without attempts -/

theorem Attempt.exists_isAttempt {positions : List Position} {n : Nat} {p : Plan} {w : Written}
    (h : c.Attempt stream subscription positions n p tr w) : ∃ e ∈ tr, e.isAttempt = true := by
  cases h with
  | failed e frame => exact ⟨_, List.mem_singleton_self _, rfl⟩
  | applied frame => exact ⟨_, List.mem_singleton_self _, rfl⟩
  | lost frame => exact ⟨_, List.mem_cons_self, rfl⟩
  | outdated frame => exact ⟨_, List.mem_cons_self, rfl⟩
  | again frame => exact ⟨_, List.mem_cons_self, rfl⟩

/-- Writes without any attempt are conflicts, as no attempts were allowed. -/
theorem conflict_of_quiet {positions : List Position} {ps : List Plan}
    {written : List (Batch × Written)} (hquiet : ∀ e ∈ tr, e.isAttempt = false)
    (h : (ps.mapM fun p => do
      return (p.batch, ← c.write stream subscription positions c.attempts p)).Traces tr written) :
    ∀ bw ∈ written, bw.2 = .error .conflict := by
  induction ps generalizing tr written with
  | nil =>
    rw [List.mapM_nil] at h
    obtain ⟨-, rfl⟩ := Program.traces_done.1 h
    simp
  | cons p ps ih =>
    rw [List.mapM_cons] at h
    obtain ⟨bw, t₁, t, h₁, h', rfl⟩ := Program.traces_bind.1 h
    obtain ⟨rest, t₂, t₃, h₂, h₃, rfl⟩ := Program.traces_bind.1 h'
    obtain ⟨rfl, rfl⟩ := Program.traces_done.1 h₃
    obtain ⟨w, t₄, t₅, h₄, h₅, rfl⟩ := Program.traces_bind.1 h₁
    obtain ⟨rfl, rfl⟩ := Program.traces_done.1 h₅
    simp only [List.append_nil, List.mem_append] at hquiet
    refine List.forall_mem_cons.2 ⟨?_, ih (fun e he => hquiet e (Or.inr he)) h₂⟩
    cases hn : c.attempts with
    | zero =>
      rw [hn] at h₄
      exact (Program.traces_done.1 h₄).2
    | succ n =>
      rw [hn] at h₄
      obtain ⟨e, he, hattempt⟩ := (attempt_of_traces_write h₄).exists_isAttempt
      rw [hquiet e (Or.inl he)] at hattempt
      cases hattempt

theorem failure_of_conflicts {written : List (Batch × Written)} (tps : List TopicPartition)
    (hw : ∀ bw ∈ written, bw.2 = .error .conflict) :
    failure stream tps (failures written) = .conflict (conflicted (failures written)) tps := by
  have hfailed : ∀ f ∈ failures written, f.2 = .conflict := by
    rintro ⟨tp, f⟩ hf
    obtain ⟨b, hbw, -⟩ := mem_failures_iff.1 hf
    cases hw _ hbw
    rfl
  have hfirst : firstError? (failures written) = none :=
    firstError?_eq_none_iff.2 fun f hf => by rw [hfailed f hf]; rfl
  have hlost : lost (failures written) = [] :=
    lost_eq_nil_iff.2 fun f hf => by rw [hfailed f hf]; rfl
  simp only [failure, hfirst, hlost, ne_eq, not_true, if_false]

theorem isRejection_failure (stream : String) (tps : List TopicPartition)
    (failed : List (TopicPartition × WriteFailure)) :
    (failure stream tps failed).isRejection = false := by
  unfold failure
  split
  · rfl
  · rfl
  · split <;> rfl

/-! ## The checks of a commit -/

/-- **What precedes an attempt** has all that was checked. -/
theorem validated_of_attempt {r : Except Error (List CommitResult)} {past rest : List Event}
    {e : Event} (hd : d.Told (past ++ e :: rest))
    (h : (c.commit stream subscription cursors).Traces (past ++ e :: rest) r)
    (he : e.isAttempt = true) : c.Validated stream subscription d cursors past := by
  rcases stopped_or_written h with hstopped | ⟨_, _, before, during, _, hprepare, -, htr, -⟩
  · rw [hstopped.quiet e (by simp)] at he
    cases he
  · rw [htr] at hd
    obtain ⟨past', rfl, -⟩ := split_of_left (readsOnly_prepare _ _ hprepare).1 he htr.symm
    exact (validated_of_prepare (hd.mono (List.subset_append_left _ _)) hprepare).mono
      (List.subset_append_left _ _)

/-- **What a refusal without attempts names.** -/
theorem refusal_of_quiet {s : String} {tps committed : List TopicPartition} (hd : d.Told tr)
    (h : (c.commit stream subscription cursors).Traces tr (.error (.ownership s tps committed)))
    (hquiet : ∀ e ∈ tr, e.isAttempt = false) :
    (s = stream ∧ committed = []) ∧
      ((∃ frame, .store (.get (c.sessionKey subscription stream)) (.ok none) frame ∈ tr) ∧
          tps = d.partitions cursors ∨
        c.Disowned stream subscription d cursors tr tps) := by
  by_cases hc : cursors = []
  · subst hc
    obtain ⟨t, ht, rfl⟩ := traces_commit.1 h
    rcases (traces_commitUncounted_nil ht).2 with ⟨e, he, hearly⟩ | he <;> cases he
    exact hearly.elim
  · generalize hr : (Except.error (Error.ownership s tps committed) :
      Except Error (List CommitResult)) = r at h
    cases phases_of_traces_commit hc h with
    | refused hprepare =>
      cases hr
      obtain ⟨tps', he, hnames⟩ := refusal_of_prepare
        (hd.mono (List.subset_append_left _ _)) id hprepare
      cases he
      refine ⟨⟨rfl, rfl⟩, hnames.imp_left ?_⟩
      rintro ⟨⟨frame, hread⟩, hall⟩
      exact ⟨⟨frame, List.mem_append_left _ hread⟩, hall⟩
    | @written positions plans before during written hprepare hwrite =>
      have hconflict := conflict_of_quiet (fun e he => hquiet e (by simp [he])) hwrite
      have hfailure := eq_failure_of_results hr.symm
      rw [failure_of_conflicts _ hconflict] at hfailure
      cases hfailure

section
variable {σ : Type} (env : Surroundings σ) (w : World σ) (c : Coordinator)
  (stream subscription : String) (cursors : List Cursor)

/-- **A commit checks everything before it writes anything.**  What precedes a
    compare-and-set has all look-ups and reads that the batch calls for, with
    answers that let the commit go on.  A commit that rejects its request, a
    name, a cursor or the stored state has made no compare-and-set; and one
    that refuses partitions without having made any names those that it read
    not to be the stream's, or all if the stream has no session. -/
theorem commit_validates_first :
    let run := (c.commit stream subscription cursors).runIn env w
    (∀ past e rest, run.trace = past ++ e :: rest → e.isAttempt = true →
      c.Validated stream subscription env.directory cursors past) ∧
    (∀ e, run.value = .error e → e.isRejection = true →
      ∀ event ∈ run.trace, event.isAttempt = false) ∧
    ∀ s tps committed, run.value = .error (.ownership s tps committed) →
      (∀ event ∈ run.trace, event.isAttempt = false) →
        (s = stream ∧ committed = []) ∧
          ((∃ frame,
              .store (.get (c.sessionKey subscription stream)) (.ok none) frame ∈ run.trace) ∧
              tps = env.directory.partitions cursors ∨
            c.Disowned stream subscription env.directory cursors run.trace tps) := by
  intro run
  have htold : env.directory.Told run.trace := (Action.linked_run env _ w).told
  have htraces : (c.commit stream subscription cursors).Traces run.trace run.value :=
    Action.traces_run env _ w
  refine ⟨?_, ?_, ?_⟩
  · intro past e rest htr he
    rw [htr] at htold htraces
    exact validated_of_attempt htold htraces he
  · intro e he hrejected
    rcases commit_run_cases env w c stream subscription cursors with h | ⟨_, _, _, h⟩
    · exact h.quiet
    · rw [eq_failure_of_results (h.result.symm.trans he), isRejection_failure] at hrejected
      cases hrejected
  · intro s tps committed he hquiet
    rw [he] at htraces
    exact refusal_of_quiet htold htraces hquiet

/-- Another takes a partition before the assignments are read. -/
def Sample.taken : List Rule :=
  [⟨.get, some (assignmentAt "0"), 0, some 1,
    .put (assignmentAt "1") (Utf8.encode (Assignment.encode ⟨"m", .assigned⟩))⟩]

/-- A commit that writes has checked everything; one that is refused names the
    partition that was taken. -/
theorem taken_partition_refused :
    (∃ past e rest, (Sample.run Sample.twoRaces Sample.interleaved).trace = past ++ e :: rest ∧
      e.isAttempt = true ∧
        Sample.coordinator.Validated "n" "s" Sample.directory Sample.interleaved past) ∧
    (Sample.run Sample.taken Sample.interleaved).value =
        .error (.ownership "n" [⟨"t", "1"⟩] []) ∧
      (∀ e ∈ (Sample.run Sample.taken Sample.interleaved).trace, e.isAttempt = false) ∧
        Sample.coordinator.Disowned "n" "s" Sample.directory Sample.interleaved
          (Sample.run Sample.taken Sample.interleaved).trace [⟨"t", "1"⟩] := by
  constructor
  · have hany : ∃ e ∈ (Sample.run Sample.twoRaces Sample.interleaved).trace,
        e.isAttempt = true := by decide +kernel
    obtain ⟨e, he, hattempt⟩ := hany
    obtain ⟨past, rest, htr⟩ := List.append_of_mem he
    exact ⟨past, e, rest, htr, hattempt,
      (commit_validates_first _ _ _ _ _ _).1 past e rest htr hattempt⟩
  · have hvalue : (Sample.run Sample.taken Sample.interleaved).value =
        .error (.ownership "n" [⟨"t", "1"⟩] []) := by decide +kernel
    have hquiet : ∀ e ∈ (Sample.run Sample.taken Sample.interleaved).trace,
        e.isAttempt = false := by decide +kernel
    have hsome : [⟨"t", "1"⟩] ≠ Sample.directory.partitions Sample.interleaved := by decide +kernel
    refine ⟨hvalue, hquiet, ?_⟩
    rcases ((commit_validates_first _ _ _ _ _ _).2.2 _ _ _ hvalue hquiet).2 with ⟨-, hall⟩ | h
    · exact absurd hall hsome
    · exact h

end

end Coordinator

end CursorCommit

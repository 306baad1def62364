/-
  The attempts of a whole commit.

  The trace of a commit has a part for each plan that it writes, and nothing
  else in it has to do with the keys of this part's partition from then on
  (`Within`); so what holds of the rounds of one write holds of the trace.

  `commit_spends_attempts`: the attempts on an offset stay within the budget;
  each one after the first rests on what was read of its partition since the
  one before, which was refused; and a partition ends as a conflict iff its
  attempts are used up (`Reckoned`).
-/
import CursorCommit.Proofs.Commit.Accounts
import CursorCommit.Proofs.Commit.Rounds

namespace CursorCommit.Coordinator

variable (c : Coordinator) (stream subscription : String) (positions : List Position)

/-- The event makes no attempt on the partition's offset, and reads neither its
    offset nor its assignment. -/
structure Bypasses (tp : TopicPartition) (e : Event) : Prop where
  attempts : e.isAttemptAt (c.offsetKey subscription tp) = false
  reads : ∀ key answer frame, key = c.offsetKey subscription tp ∨
    key = c.assignmentKey subscription tp → e ≠ .store (.get key) answer frame

/-- The part of the trace writes a plan that was ready.  What comes before it
    makes no attempt on its offset, and what comes after it bypasses its
    partition. -/
structure Within (tr : List Event) (t : Part) : Prop where
  writes : ∃ p since, p.batch = t.batch ∧ p.Ready c stream subscription positions since ∧
    (c.write stream subscription positions c.attempts p).Traces t.events t.written
  apart : ∃ past rest, tr = past ++ (t.events ++ rest) ∧
    (∀ e ∈ past, e.isAttemptAt (c.offsetKey subscription t.batch.tp) = false) ∧
      ∀ e ∈ rest, c.Bypasses subscription t.batch.tp e

variable {c stream subscription positions} {tr : List Event}

/-! ## From a part to the trace -/

theorem countP_isAttemptAt_eq_zero {key : String} (h : ∀ e ∈ tr, e.isAttemptAt key = false) :
    tr.countP (Event.isAttemptAt key) = 0 :=
  List.countP_eq_zero.2 fun e he => by simp [h e he]

/-- Attempts are used up regardless of what has to do with others. -/
theorem exhausted_append_iff {n : Nat} {b : Batch} {past rest : List Event}
    (hpast : ∀ e ∈ past, e.isAttemptAt (c.offsetKey subscription b.tp) = false)
    (hrest : ∀ e ∈ rest, c.Bypasses subscription b.tp e) :
    c.Exhausted stream subscription positions n b (past ++ (tr ++ rest)) ↔
      c.Exhausted stream subscription positions n b tr := by
  have hcount : (past ++ (tr ++ rest)).countP (Event.isAttemptAt (c.offsetKey subscription b.tp)) =
      tr.countP (Event.isAttemptAt (c.offsetKey subscription b.tp)) := by
    rw [List.countP_append, List.countP_append, countP_isAttemptAt_eq_zero hpast,
      countP_isAttemptAt_eq_zero fun e he => (hrest e he).attempts]
    omega
  constructor
  · intro h
    refine ⟨hcount ▸ h.count, fun e he => h.refused e (by simp [he]), ?_⟩
    intro before e after htr he hlast
    obtain ⟨p, rfl, hp, ha⟩ := h.ahead (past ++ before) e (after ++ rest) (by simp [htr]) he
      fun e' he' => (List.mem_append.1 he').elim (hlast e') fun hm => (hrest e' hm).attempts
    refine ⟨p, rfl, hp.of_gets fun key answer frame hkey hm => ?_, ha⟩
    exact (List.mem_append.1 hm).resolve_right fun hm =>
      (hrest _ hm).reads key answer frame hkey rfl
  · intro h
    refine ⟨hcount.trans h.count, fun e he hattempt => ?_, ?_⟩
    · rcases List.mem_append.1 he with hm | hm
      · rw [hpast e hm] at hattempt; cases hattempt
      · rcases List.mem_append.1 hm with hm | hm
        · exact h.refused e hm hattempt
        · rw [(hrest e hm).attempts] at hattempt; cases hattempt
    · intro before e after htr he hlast
      obtain ⟨before', rfl, hmiddle⟩ := split_of_left hpast he htr
      obtain ⟨after', htr', rfl⟩ :=
        split_of_right (fun e he => (hrest e he).attempts) he hmiddle
      obtain ⟨p, hb, hp, ha⟩ :=
        h.ahead before' e after' htr' he fun e' he' => hlast e' (List.mem_append_left _ he')
      exact ⟨p, hb, hp.mono (List.subset_append_left _ _), ha⟩

namespace Within

variable {t : Part} (h : c.Within stream subscription positions tr t)
include h

theorem countP_le :
    tr.countP (Event.isAttemptAt (c.offsetKey subscription t.batch.tp)) ≤ c.attempts := by
  obtain ⟨p, since, -, -, hw⟩ := h.writes
  obtain ⟨past, rest, rfl, hpast, hrest⟩ := h.apart
  rw [List.countP_append, List.countP_append, countP_isAttemptAt_eq_zero hpast,
    countP_isAttemptAt_eq_zero fun e he => (hrest e he).attempts]
  have := countP_of_traces_write hw (c.offsetKey subscription t.batch.tp)
  omega

/-- Of two attempts on an offset the first was refused, and the second writes a
    plan that is ready from what was read in between. -/
theorem fresh {before between after : List Event} {e e' : Event}
    (htr : tr = before ++ e :: (between ++ e' :: after))
    (he : e.isAttemptAt (c.offsetKey subscription t.batch.tp) = true)
    (he' : e'.isAttemptAt (c.offsetKey subscription t.batch.tp) = true) :
    e.isRefused = true ∧ ∃ (p : Plan) (answer : Except StoreError Bool) (frame : Frame),
      p.batch = t.batch ∧ p.Ready c stream subscription positions between ∧
        e' = .store (c.writeCall subscription p) answer frame := by
  obtain ⟨p, since, hb, hp, hw⟩ := h.writes
  obtain ⟨past, rest, rfl, hpast, hrest⟩ := h.apart
  obtain ⟨before', -, hmiddle⟩ := split_of_left hpast he htr
  have hsplit : t.events ++ rest = (before' ++ e :: between) ++ e' :: after := by
    rw [hmiddle]; simp
  obtain ⟨after', hevents, -⟩ := split_of_right (fun e he => (hrest e he).attempts) he' hsplit
  obtain ⟨p', answer, frame, hcall, hb', -, hearlier⟩ :=
    fresh_of_traces_write hp hw hevents (Event.isAttempt_of_isAttemptAt he')
  obtain ⟨hrefused, hready⟩ :=
    hearlier before' e between rfl (Event.isAttempt_of_isAttemptAt he)
  exact ⟨hrefused, p', answer, frame, hb'.trans hb, hready, hcall⟩

theorem conflict_iff : t.written = .error .conflict ↔
    c.Exhausted stream subscription positions c.attempts t.batch tr := by
  obtain ⟨p, since, hb, -, hw⟩ := h.writes
  obtain ⟨past, rest, rfl, hpast, hrest⟩ := h.apart
  rw [exhausted_append_iff hpast hrest, ← hb]
  exact conflict_iff_exhausted hw

end Within

/-! ## The parts of a trace -/

theorem Concerns.bypasses {tp tp' : TopicPartition} {e : Event}
    (h : c.Concerns subscription tp e) (hne : tp ≠ tp')
    (hc : Name.checkSegment tp.topic = .ok () ∧ Name.checkSegment tp.partition = .ok ())
    (hc' : Name.checkSegment tp'.topic = .ok () ∧ Name.checkSegment tp'.partition = .ok ()) :
    c.Bypasses subscription tp' e where
  attempts := Bool.eq_false_iff.2 fun ha =>
    hne (offsetKey_inj hc.1 hc'.1 (h.attempts _ ha).symm)
  reads := by
    rintro key answer frame hkey rfl
    rcases h.reads key answer frame rfl with rfl | rfl <;> rcases hkey with hkey | hkey
    · exact hne (offsetKey_inj hc.1 hc'.1 hkey)
    · exact assignmentKey_ne_offsetKey_of_checked hc'.1 hc'.2 hc.1 hkey.symm
    · exact assignmentKey_ne_offsetKey_of_checked hc.1 hc.2 hc'.1 hkey
    · exact hne (assignmentKey_inj hc.1 hc'.1 hkey)

theorem bypasses_tick (tp : TopicPartition) (metric : Metric) :
    c.Bypasses subscription tp (.tick metric) where
  attempts := rfl
  reads _ _ _ _ he := by cases he

/-- A part lies apart from the others, as its partition is another. -/
theorem exists_apart {parts : List Part}
    (hconcerns : ∀ t ∈ parts, ∀ e ∈ t.events, c.Concerns subscription t.batch.tp e)
    (hchecked : ∀ t ∈ parts, Name.checkSegment t.batch.tp.topic = .ok () ∧
      Name.checkSegment t.batch.tp.partition = .ok ())
    (hnd : (parts.map fun t => t.batch.tp).Nodup) {t : Part} (ht : t ∈ parts) :
    ∃ past rest, parts.flatMap Part.events = past ++ (t.events ++ rest) ∧
      ∀ e ∈ past ++ rest, c.Bypasses subscription t.batch.tp e := by
  obtain ⟨us, vs, rfl⟩ := List.append_of_mem ht
  refine ⟨us.flatMap Part.events, vs.flatMap Part.events, by simp, fun e he => ?_⟩
  rw [← List.flatMap_append] at he
  obtain ⟨u, hu, he⟩ := List.mem_flatMap.1 he
  have hmem : u ∈ us ++ t :: vs := by
    rcases List.mem_append.1 hu with hu | hu <;> simp [hu]
  have hne : u.batch.tp ≠ t.batch.tp := by
    rw [List.map_append, List.map_cons, List.nodup_middle, List.nodup_cons] at hnd
    intro heq
    refine hnd.1 ?_
    rw [← heq, ← List.map_append]
    exact List.mem_map_of_mem hu
  exact (hconcerns u hmem e he).bypasses hne (hchecked u hmem) (hchecked t ht)

/-- **The trace of the writes**: each attempt is in a part, and each part lies
    in the trace apart from all that has to do with its partition. -/
theorem exists_parts {d : Directory} {cursors : List Cursor} {plans : List Plan}
    {before during : List Event} {written : List (Batch × Written)} (ms : List Metric)
    (hd : d.Told before)
    (hprepare : (c.prepare stream subscription cursors).Traces before (.ok (positions, plans)))
    (hw : (c.writeAll stream subscription positions plans).Traces during written) :
    ∃ parts : List Part, parts.map Part.batch = (plans.filter (·.fold.advanced)).map Plan.batch ∧
      written = parts.map (fun t => (t.batch, t.written)) ∧
        (∀ e ∈ before ++ (during ++ ms.map Event.tick), e.isAttempt = true →
          ∃ t ∈ parts, e ∈ t.events) ∧
          ∀ t ∈ parts, t.batch.tp ∈ d.partitions cursors ∧ c.Within stream subscription positions
            (before ++ (during ++ ms.map Event.tick)) t := by
  obtain ⟨hquiet, -⟩ := readsOnly_prepare _ _ hprepare
  obtain ⟨hlocated, hplanned, hready⟩ := traces_prepare_ok hd hprepare
  obtain ⟨parts, hparts, rfl, rfl⟩ := parts_of_traces_writes hw
  have hbatches : parts.map Part.batch = (plans.filter (·.fold.advanced)).map Plan.batch :=
    (map_eq_of_forall₂ hparts fun _ _ h => h.1).symm
  have hsub := Course.sublist_group hplanned hbatches
  have hpartitions : ∀ t ∈ parts, t.batch.tp ∈ d.partitions cursors := by
    intro t ht
    rw [Directory.partitions_eq_map_tp hlocated]
    exact List.mem_map_of_mem (hsub.subset (List.mem_map_of_mem ht))
  refine ⟨parts, hbatches, rfl, fun e he ha => ?_, fun t ht => ⟨hpartitions t ht, ?_, ?_⟩⟩
  · rcases List.mem_append.1 he with hm | hm
    · rw [hquiet e hm] at ha; cases ha
    · rcases List.mem_append.1 hm with hm | hm
      · exact List.mem_flatMap.1 hm
      · rw [quiet_ticks ms e hm] at ha; cases ha
  · obtain ⟨p, hp, hb, hwrite⟩ := forall₂_mem_right hparts ht
    exact ⟨p, before, hb, hready p (List.mem_filter.1 hp).1, hwrite⟩
  · have hconcerns : ∀ t ∈ parts, ∀ e ∈ t.events, c.Concerns subscription t.batch.tp e := by
      intro t ht
      obtain ⟨p, -, hb, hwrite⟩ := forall₂_mem_right hparts ht
      rw [← hb]
      exact concerns_of_traces_write hwrite
    obtain ⟨past, rest, hduring, hbypass⟩ := exists_apart hconcerns
      (fun t ht => Directory.checked_of_locates hlocated (hpartitions t ht))
      (Course.nodup_tp_parts hsub) ht
    refine ⟨before ++ past, rest ++ ms.map Event.tick, by simp [hduring], ?_, ?_⟩
    · intro e he
      rcases List.mem_append.1 he with hm | hm
      · exact Event.isAttemptAt_eq_false (hquiet e hm) _
      · exact (hbypass e (List.mem_append_left _ hm)).attempts
    · intro e he
      rcases List.mem_append.1 he with hm | hm
      · exact hbypass e (List.mem_append_right _ hm)
      · obtain ⟨metric, -, rfl⟩ := List.mem_map.1 hm
        exact bypasses_tick _ metric

/-! ## Conflicts of a commit -/

theorem conflict_of_failure {s : String} {done tps committed : List TopicPartition}
    {failed : List (TopicPartition × WriteFailure)}
    (h : Error.conflict tps committed = failure s done failed) : tps = conflicted failed := by
  unfold failure at h
  split at h
  · cases h
  · cases h
  · split at h
    · cases h
    · cases h; rfl

variable (c stream subscription) in
/-- What a commit that goes on to its writes makes of the partitions whose plan
    advances: each of them ends as a conflict iff its attempts are used up, and
    this is told as a failure. -/
structure Reckoned (d : Directory) (cursors : List Cursor) (tr : List Event)
    (r : Except Error (List CommitResult)) (positions : List Position) (plans : List Plan)
    (written : List (Batch × Written)) : Prop where
  located : List.Forall₂ d.Locates cursors positions
  phases : ∃ before during, ∃ ms : List Metric, tr = before ++ (during ++ ms.map Event.tick) ∧
    (c.prepare stream subscription cursors).Traces before (.ok (positions, plans)) ∧
      (c.writeAll stream subscription positions plans).Traces during written
  result : r = results stream cursors plans written
  batches : written.map Prod.fst = (plans.filter (·.fold.advanced)).map Plan.batch
  conflict_iff : ∀ b w, (b, w) ∈ written →
    (w = .error .conflict ↔ c.Exhausted stream subscription positions c.attempts b tr)
  failed : ∀ p ∈ plans, p.fold.advanced = true →
    c.Exhausted stream subscription positions c.attempts p.batch tr → ∃ e, r = .error e
  named : ∀ tps committed, r = .error (.conflict tps committed) → ∀ tp, tp ∈ tps ↔
    ∃ p ∈ plans, p.batch.tp = tp ∧ p.fold.advanced = true ∧
      c.Exhausted stream subscription positions c.attempts p.batch tr

/-- **What becomes of the partitions that are written**, by the parts of the
    trace. -/
theorem reckoned_of_parts {d : Directory} {cursors : List Cursor} {plans : List Plan}
    {before during : List Event} {parts : List Part} (ms : List Metric) (hd : d.Told before)
    (hprepare : (c.prepare stream subscription cursors).Traces before (.ok (positions, plans)))
    (hw : (c.writeAll stream subscription positions plans).Traces during
      (parts.map fun t => (t.batch, t.written)))
    (hbatches : parts.map Part.batch = (plans.filter (·.fold.advanced)).map Plan.batch)
    (hparts : ∀ t ∈ parts,
      c.Within stream subscription positions (before ++ (during ++ ms.map Event.tick)) t) :
    c.Reckoned stream subscription d cursors (before ++ (during ++ ms.map Event.tick))
      (results stream cursors plans (parts.map fun t => (t.batch, t.written))) positions plans
      (parts.map fun t => (t.batch, t.written)) := by
  have hconflict : ∀ b w, (b, w) ∈ parts.map (fun t => (t.batch, t.written)) →
      (w = .error .conflict ↔ c.Exhausted stream subscription positions c.attempts b
        (before ++ (during ++ ms.map Event.tick))) := by
    intro b w hm
    obtain ⟨t, ht, he⟩ := List.mem_map.1 hm
    cases he
    exact (hparts t ht).conflict_iff
  -- a plan that advances is written
  have hwritten : ∀ p ∈ plans, p.fold.advanced = true →
      ∃ w, (p.batch, w) ∈ parts.map fun t => (t.batch, t.written) := by
    intro p hp ha
    have hb : p.batch ∈ parts.map Part.batch := by
      rw [hbatches]
      exact List.mem_map_of_mem (List.mem_filter.2 ⟨hp, ha⟩)
    obtain ⟨t, ht, htb⟩ := List.mem_map.1 hb
    exact ⟨t.written, List.mem_map.2 ⟨t, ht, by rw [htb]⟩⟩
  refine ⟨(traces_prepare_ok hd hprepare).1, ⟨before, during, ms, rfl, hprepare, hw⟩, rfl, ?_,
    hconflict, ?_, ?_⟩
  · rw [List.map_map, ← hbatches]
    rfl
  · intro p hp ha hex
    obtain ⟨w, hm⟩ := hwritten p hp ha
    obtain rfl := (hconflict _ _ hm).2 hex
    exact ⟨_, if_pos (failures_ne_nil hm)⟩
  · intro tps committed hr tp
    rw [conflict_of_failure (eq_failure_of_results hr), mem_conflicted_iff, mem_failures_iff]
    constructor
    · rintro ⟨b, hm, rfl⟩
      obtain ⟨t, ht, he⟩ := List.mem_map.1 hm
      have hb : b ∈ parts.map Part.batch := (Prod.mk.inj he).1 ▸ List.mem_map_of_mem ht
      rw [hbatches] at hb
      obtain ⟨p, hp, rfl⟩ := List.mem_map.1 hb
      obtain ⟨hp, ha⟩ := List.mem_filter.1 hp
      exact ⟨p, hp, rfl, ha, (hconflict _ _ hm).1 rfl⟩
    · rintro ⟨p, hp, rfl, ha, hex⟩
      obtain ⟨w, hm⟩ := hwritten p hp ha
      obtain rfl := (hconflict _ _ hm).2 hex
      exact ⟨p.batch, hm, rfl⟩

/-! ## The attempts of a commit -/

theorem stopped_or_reckoned {d : Directory} {cursors : List Cursor}
    {r : Except Error (List CommitResult)} (hd : d.Told tr)
    (h : (c.commit stream subscription cursors).Traces tr r) :
    Stopped stream cursors tr r ∨ ∃ positions plans written,
      c.Reckoned stream subscription d cursors tr r positions plans written ∧
        ∃ parts : List Part, (∀ e ∈ tr, e.isAttempt = true → ∃ t ∈ parts, e ∈ t.events) ∧
          ∀ t ∈ parts, t.batch.tp ∈ d.partitions cursors ∧
            c.Within stream subscription positions tr t := by
  refine (stopped_or_written h).imp_right ?_
  rintro ⟨positions, plans, before, during, written, hprepare, hwrite, rfl, hr⟩
  have htold : d.Told before := hd.mono (List.subset_append_left _ _)
  obtain ⟨parts, hbatches, rfl, hattempts, hparts⟩ :=
    exists_parts (counted r) htold hprepare hwrite
  have hreckoned := reckoned_of_parts (counted r) htold hprepare hwrite hbatches fun t ht =>
    (hparts t ht).2
  rw [← hr] at hreckoned
  exact ⟨positions, plans, _, hreckoned, parts, hattempts, hparts⟩

section
variable {σ : Type} (env : Surroundings σ) (w : World σ) (c : Coordinator)
  (stream subscription : String) (cursors : List Cursor)

/-- **A commit keeps to its budget of attempts**, whatever the budget and
    whatever others do.  It makes at most so many compare-and-sets at a key;
    each one after the first at its key writes a plan that is ready from what
    was read since the one before, which was refused; and of the partitions
    whose plan advances those end as conflicts, and are told so, whose attempts
    are used up. -/
theorem commit_spends_attempts :
    let run := (c.commit stream subscription cursors).runIn env w
    (∀ key, run.trace.countP (Event.isAttemptAt key) ≤ c.attempts) ∧
    (∀ key before e between e' after, run.trace = before ++ e :: (between ++ e' :: after) →
      e.isAttemptAt key = true → e'.isAttemptAt key = true →
        e.isRefused = true ∧ ∃ (positions : List Position) (p : Plan)
            (answer : Except StoreError Bool) (frame : Frame),
          List.Forall₂ env.directory.Locates cursors positions ∧
            p.batch.tp ∈ env.directory.partitions cursors ∧
              p.Ready c stream subscription positions between ∧
                e' = .store (c.writeCall subscription p) answer frame) ∧
    (Unwritten cursors run.trace run.value ∧
        (∀ tps committed, run.value ≠ .error (.conflict tps committed)) ∨
      ∃ positions plans written, c.Reckoned stream subscription env.directory cursors run.trace
        run.value positions plans written) := by
  intro run
  have htold : env.directory.Told run.trace := (Action.linked_run env _ w).told
  rcases stopped_or_reckoned htold (Action.traces_run env _ w) with
    hstopped | ⟨positions, plans, written, hreckoned, parts, hattempts, hparts⟩
  · have hquiet : ∀ key, ∀ e ∈ run.trace, e.isAttemptAt key = false :=
      fun key e he => Event.isAttemptAt_eq_false (hstopped.quiet e he) key
    refine ⟨fun key => ?_, ?_, Or.inl ⟨hstopped.unwritten, hstopped.ne_conflict⟩⟩
    · rw [countP_isAttemptAt_eq_zero (hquiet key)]
      exact Nat.zero_le _
    · intro key before e between e' after htr he
      rw [hquiet key e (by rw [htr]; simp)] at he
      cases he
  · -- an attempt is in a part, whose key it has
    have hpart : ∀ key, ∀ e ∈ run.trace, e.isAttemptAt key = true →
        ∃ t ∈ parts, key = c.offsetKey subscription t.batch.tp := by
      intro key e he ha
      obtain ⟨t, ht, hm⟩ := hattempts e he (Event.isAttempt_of_isAttemptAt ha)
      obtain ⟨p, since, hb, -, hwrite⟩ := (hparts t ht).2.writes
      exact ⟨t, ht, hb ▸ (concerns_of_traces_write hwrite e hm).attempts key ha⟩
    refine ⟨fun key => ?_, ?_, Or.inr ⟨positions, plans, written, hreckoned⟩⟩
    · by_cases hany : ∃ e ∈ run.trace, e.isAttemptAt key = true
      · obtain ⟨e, he, ha⟩ := hany
        obtain ⟨t, ht, rfl⟩ := hpart key e he ha
        exact (hparts t ht).2.countP_le
      · have hnone : ∀ e ∈ run.trace, e.isAttemptAt key = false :=
          fun e he => Bool.eq_false_iff.2 fun ha => hany ⟨e, he, ha⟩
        rw [countP_isAttemptAt_eq_zero hnone]
        exact Nat.zero_le _
    · intro key before e between e' after htr he he'
      obtain ⟨t, ht, rfl⟩ := hpart key e (by rw [htr]; simp) he
      obtain ⟨hrefused, p, answer, frame, hb, hready, hcall⟩ := (hparts t ht).2.fresh htr he he'
      exact ⟨hrefused, positions, p, answer, frame, hreckoned.located, hb ▸ (hparts t ht).1,
        hready, hcall⟩

/-- Another writes the partition's assignment again before each write. -/
def Sample.contended : List Rule :=
  [⟨.compareAndSet, some (offsetAt "0"), 0, none, .put (assignmentAt "0") assigned⟩]

/-- The three attempts are used up on a partition that is contended. -/
theorem contended_uses_up_attempts :
    let run := Sample.run Sample.contended [Sample.cursor "0" "7"]
    run.trace.countP (Event.isAttemptAt (Sample.offsetAt "0")) = 3 ∧
      run.value = .error (.conflict [⟨"t", "0"⟩] []) ∧
        ∃ positions, ∃ p : Plan, p.batch.tp = ⟨"t", "0"⟩ ∧ p.fold.advanced = true ∧
          Sample.coordinator.Exhausted "n" "s" positions 3 p.batch run.trace := by
  intro run
  have hvalue : run.value = .error (.conflict [⟨"t", "0"⟩] []) := by decide +kernel
  obtain ⟨-, -, ⟨-, hno⟩ | ⟨positions, plans, written, h⟩⟩ :=
    commit_spends_attempts (.scripted Sample.directory toString)
      ⟨Sample.store, 0, Sample.contended⟩ Sample.coordinator "n" "s" [Sample.cursor "0" "7"]
  · exact absurd hvalue (hno _ _)
  · obtain ⟨p, -, htp, ha, hex⟩ := (h.named _ _ hvalue ⟨"t", "0"⟩).1 (by simp)
    exact ⟨by decide +kernel, hvalue, positions, p, htp, ha, hex⟩

end

end CursorCommit.Coordinator

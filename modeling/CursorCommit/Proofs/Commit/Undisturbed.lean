/-
  Commits in which nobody else acts.

  A commit that can go on to its writes carries them all out, as the write of
  one partition leaves alone what the plans of the others rest on
  (`run_writeEach`): the keys of different partitions, and of an offset and an
  assignment, differ (`Prepared.apart`).

  What can come of it (`undisturbed_cases`): a failure, which leaves the store
  as it was (`world_of_error`), or `Completed`, where the plans that advanced
  are written and the outcomes are those of the plans (`completed_of_ok`).
-/
import CursorCommit.Proofs.Commit.Preparing
import CursorCommit.Proofs.Commit.Results
import CursorCommit.Proofs.Commit.Safety
import CursorCommit.Proofs.Store.Writes

namespace CursorCommit

variable {c : Coordinator} {stream subscription : String} {positions : List Position}

/-! ## What the store admits -/

namespace Plan.RestsOn

variable {s : Store} {p : Plan} (h : p.RestsOn c stream subscription positions s)
include h

theorem write {key : String} (hk : c.offsetKey subscription p.batch.tp ≠ key)
    (hk' : c.assignmentKey subscription p.batch.tp ≠ key) (bytes : List UInt8) :
    p.RestsOn c stream subscription positions (s.write key bytes) where
  stored := by rw [Store.record?_write_of_ne hk]; exact h.stored
  folded := h.folded
  seen := by rw [Store.record?_write_of_ne hk']; exact h.seen
  owned := h.owned

theorem versionAt_eq :
    s.versionAt (c.offsetKey subscription p.batch.tp) = p.current.version := by
  obtain ⟨record, hr, hrec⟩ := h.stored
  rw [Store.versionAt_eq hr]
  exact (StoredOffset.ofRecord_eq_ok hrec).2

theorem revisionAt_eq :
    s.revisionAt (c.assignmentKey subscription p.batch.tp) = p.seen.revision := by
  rw [← h.seen, Store.revisionAt]
  cases s.record? (c.assignmentKey subscription p.batch.tp) <;> rfl

theorem answer_writeCall (ha : s.available = true) :
    s.answer (c.writeCall subscription p) =
      (.ok true, s.write (c.offsetKey subscription p.batch.tp) (Utf8.encode p.fold.highWater)) := by
  have hadmits : s.admits (c.offsetKey subscription p.batch.tp) p.current.version
      [c.guard subscription p.batch.tp p.seen] = true := by
    simp [Store.admits, Store.holds, Coordinator.guard, h.versionAt_eq, h.revisionAt_eq]
  simp only [Coordinator.writeCall, Store.answer, Store.compareAndSet, Store.whenAvailable, ha,
    if_true, hadmits]

end Plan.RestsOn

namespace Coordinator

/-- The keys of the plans do not meet. -/
structure Apart (c : Coordinator) (subscription : String) (plans : List Plan) : Prop where
  offsets : (plans.map fun p => c.offsetKey subscription p.batch.tp).Nodup
  assignments : ∀ p ∈ plans, ∀ q ∈ plans,
    c.assignmentKey subscription p.batch.tp ≠ c.offsetKey subscription q.batch.tp

theorem Apart.sublist {ps plans : List Plan} (h : c.Apart subscription plans)
    (hs : ps.Sublist plans) : c.Apart subscription ps where
  offsets := h.offsets.sublist (hs.map _)
  assignments p hp q hq := h.assignments p (hs.subset hp) q (hs.subset hq)

/-! ## Plans that rest on a store -/

namespace Prepared

variable {d : Directory} {cursors : List Cursor} {s : Store} {plans : List Plan} {p : Plan}
  (h : c.Prepared stream subscription d cursors s positions plans)
include h

theorem located : List.Forall₂ d.Locates cursors positions := by
  obtain ⟨found, -, hplaced⟩ := h.placed
  exact Directory.locates_of_mapM_place hplaced

theorem partitions_eq : d.partitions cursors = plans.map fun p => p.batch.tp := by
  rw [Directory.partitions_eq_map_tp h.located, ← h.planned, List.map_map]
  rfl

theorem tp_mem_partitions (hp : p ∈ plans) : p.batch.tp ∈ d.partitions cursors := by
  rw [h.partitions_eq]
  exact List.mem_map_of_mem hp

theorem exists_plan {tp : TopicPartition} (htp : tp ∈ d.partitions cursors) :
    ∃ p ∈ plans, p.batch.tp = tp := by
  rw [h.partitions_eq] at htp
  exact List.mem_map.1 htp

/-- **The keys of the plans differ**, as their partitions do. -/
theorem apart : c.Apart subscription plans := by
  have hchecked : ∀ p ∈ plans, Name.checkSegment p.batch.tp.topic = .ok () ∧
      Name.checkSegment p.batch.tp.partition = .ok () :=
    fun p hp => Directory.checked_of_locates h.located (h.tp_mem_partitions hp)
  have hnd : (plans.map fun p => p.batch.tp).Nodup := by
    rw [← h.partitions_eq]
    exact nodup_eraseDups _
  constructor
  · refine (List.nodup_map_iff_inj_on hnd.of_map).2 ?_
    intro p hp q hq he
    exact List.inj_on_of_nodup_map hnd hp hq (offsetKey_inj (hchecked p hp).1 (hchecked q hq).1 he)
  · intro p hp q hq
    exact assignmentKey_ne_offsetKey_of_checked (hchecked p hp).1 (hchecked p hp).2 (hchecked q hq).1

/-- **A plan folds** the offsets of its partition against the stored one. -/
theorem folds (hp : p ∈ plans) :
    s.textAt? (c.offsetKey subscription p.batch.tp) = some p.current.offset ∧
      Fold.ofOffsets (c.order.comparator p.batch.tp.topic) p.current.offset
        (d.offsetsIn p.batch.tp cursors) = .ok p.fold := by
  have hr := h.rests p hp
  obtain ⟨record, hrecord, hcurrent⟩ := hr.stored
  have hb : p.batch ∈ Batch.group positions := by
    rw [← h.planned]
    exact List.mem_map_of_mem hp
  refine ⟨Store.textAt?_eq hrecord (StoredOffset.ofRecord_eq_ok hcurrent).1, ?_⟩
  rw [← offsets_of_locates h.located hb]
  exact foldPartition_eq_ok hr.folded

theorem length_outcomes (hp : p ∈ plans) : p.fold.outcomes.length = p.batch.indexes.length := by
  have hb : p.batch ∈ Batch.group positions := by
    rw [← h.planned]
    exact List.mem_map_of_mem hp
  rw [Fold.length_outcomes (foldPartition_eq_ok (h.rests p hp).folded), Batch.length_offsets hb]

end Prepared

/-! ## The writes -/

/-- What the write of a plan puts where. -/
def entry (c : Coordinator) (subscription : String) (p : Plan) : String × List UInt8 :=
  (c.offsetKey subscription p.batch.tp, Utf8.encode p.fold.highWater)

/-- What the writes of the plans that advanced put where. -/
def entriesOf (c : Coordinator) (subscription : String) (plans : List Plan) :
    List (String × List UInt8) :=
  (plans.filter (·.fold.advanced)).map (c.entry subscription)

section
variable (d : Directory) (token : Nat → String)

/-- **A plan that rests on the store is written** at the first attempt. -/
theorem run_write {p : Plan} {w : World Unit} (ha : w.store.available = true)
    (h : p.RestsOn c stream subscription positions w.store) (n : Nat) :
    ((c.write stream subscription positions (n + 1) p).run (.undisturbed d token) w).value =
        .ok p.fold.outcomes ∧
      ((c.write stream subscription positions (n + 1) p).run (.undisturbed d token) w).world =
        { w with store := w.store.writeAll [c.entry subscription p] } := by
  have htry : ((c.tryWrite subscription p).run.run (.undisturbed d token) w).value = .ok true ∧
      ((c.tryWrite subscription p).run.run (.undisturbed d token) w).world =
        { w with store := w.store.writeAll [c.entry subscription p] } := by
    have hanswer := h.answer_writeCall ha
    constructor
    · show (w.store.answer (c.writeCall subscription p)).1.mapError Error.ofStore = _
      rw [hanswer]; rfl
    · show { w with store := (w.store.answer (c.writeCall subscription p)).2 } = _
      rw [hanswer]; rfl
  rw [write, Program.run_bind, htry.1, htry.2]
  exact ⟨rfl, rfl⟩

variable (c stream subscription positions) in
/-- Writes plans, one after the other. -/
def writeEach (ps : List Plan) : Program (List (Batch × Written)) :=
  ps.mapM fun p => do return (p.batch, ← c.write stream subscription positions c.attempts p)

theorem writeEach_cons (p : Plan) (ps : List Plan) :
    c.writeEach stream subscription positions (p :: ps) =
      c.write stream subscription positions c.attempts p >>= fun written =>
        c.writeEach stream subscription positions ps >>= fun rest =>
          .done ((p.batch, written) :: rest) := by
  rw [writeEach, List.mapM_cons, bind_assoc]; rfl

/-- **Plans that rest on the store are all written**: the write of one leaves
    what the others rest on. -/
theorem run_writeEach {ps : List Plan} {w : World Unit} (ha : w.store.available = true)
    (hrests : ∀ p ∈ ps, p.RestsOn c stream subscription positions w.store)
    (hk : c.Apart subscription ps) {n : Nat} (hn : c.attempts = n + 1) :
    ((c.writeEach stream subscription positions ps).run (.undisturbed d token) w).value =
        ps.map (fun p => (p.batch, .ok p.fold.outcomes)) ∧
      ((c.writeEach stream subscription positions ps).run (.undisturbed d token) w).world =
        { w with store := w.store.writeAll (ps.map (c.entry subscription)) } := by
  induction ps generalizing w with
  | nil => exact ⟨rfl, rfl⟩
  | cons p ps ih =>
    obtain ⟨hp, hps⟩ := List.forall_mem_cons.1 hrests
    obtain ⟨hno, -⟩ := List.nodup_cons.1 hk.offsets
    have hwrite := run_write d token ha hp n
    have hps' : ∀ q ∈ ps, q.RestsOn c stream subscription positions
        (w.store.writeAll [c.entry subscription p]) := by
      intro q hq
      refine (hps q hq).write (fun he => hno (List.mem_map.2 ⟨q, hq, he⟩)) ?_ _
      exact hk.assignments q (List.mem_cons_of_mem _ hq) p List.mem_cons_self
    have hrest := ih (w := { w with store := w.store.writeAll [c.entry subscription p] })
      ha hps' (hk.sublist (List.sublist_cons_self p ps))
    rw [← hn] at hwrite
    simp only [writeEach_cons, Program.run_bind, hwrite.1, hwrite.2, Program.run_done, hrest.1,
      hrest.2]
    exact ⟨rfl, rfl⟩

variable (stream subscription positions) in
theorem run_writeEach_zero (ps : List Plan) (w : World Unit) (hn : c.attempts = 0) :
    ((c.writeEach stream subscription positions ps).run (.undisturbed d token) w).value =
        ps.map (fun p => (p.batch, .error .conflict)) ∧
      ((c.writeEach stream subscription positions ps).run (.undisturbed d token) w).world = w := by
  have hwrite : ∀ p : Plan, c.write stream subscription positions c.attempts p =
      .done (.error .conflict) := by
    intro p; rw [hn]; rfl
  induction ps with
  | nil => exact ⟨rfl, rfl⟩
  | cons p ps ih =>
    simp only [writeEach_cons, hwrite, Program.done_bind, Program.run_bind, Program.run_done, ih.1,
      ih.2]
    exact ⟨rfl, trivial⟩

end

/-! ## The results -/

theorem results_of_failures (stream : String) (cursors : List Cursor) (plans : List Plan)
    {written : List (Batch × Written)} (h : failures written ≠ []) :
    ∃ e, results stream cursors plans written = .error e :=
  ⟨_, if_pos h⟩

/-- The outcomes of plans that are all settled are those of the plans in some
    order, the idle ones first. -/
theorem exists_perm_of_settled (count : Nat) (plans : List Plan) : ∃ all : List Plan,
    all.Perm plans ∧
      settled ((plans.filter (·.fold.advanced)).map fun p => (p.batch, .ok p.fold.outcomes))
          (planned count plans) =
        Batch.recordAll (all.map fun p => (p.batch, p.fold.outcomes))
          (List.replicate count .outdated) := by
  refine ⟨plans.filter (fun p => !p.fold.advanced) ++ plans.filter (·.fold.advanced), ?_, ?_⟩
  · exact List.perm_append_comm.trans (List.filter_append_perm _ _)
  · rw [settled, planned, Batch.recordAll, List.foldl_map, List.foldl_map, List.foldl_append]

/-- **A batch whose plans are all settled** succeeds, with the outcomes of the
    plans. -/
theorem results_of_settled (stream : String) {d : Directory} {cursors : List Cursor}
    {plans : List Plan}
    (hloc : List.Forall₂ d.Locates cursors positions)
    (hplans : plans.map Plan.batch = Batch.group positions)
    (hlen : ∀ p ∈ plans, p.fold.outcomes.length = p.batch.indexes.length) :
    ∃ rs, results stream cursors plans ((plans.filter (·.fold.advanced)).map fun p =>
        (p.batch, .ok p.fold.outcomes)) = .ok rs ∧
      rs.map CommitResult.cursor = cursors ∧
        ∀ p ∈ plans, d.outcomesIn p.batch.tp rs = p.fold.outcomes := by
  obtain ⟨all, hperm, hdone⟩ := exists_perm_of_settled cursors.length plans
  have hok : failures ((plans.filter (·.fold.advanced)).map fun p =>
      (p.batch, .ok p.fold.outcomes)) = [] := by
    simp [failures, List.filterMap_map]
  have hbatch : ∀ p ∈ plans, p.batch ∈ Batch.group positions := by
    intro p hp
    rw [← hplans]; exact List.mem_map_of_mem hp
  have hentries : ∀ e ∈ all.map (fun p => (p.batch, p.fold.outcomes)),
      e.1 ∈ Batch.group positions ∧ e.2.length = e.1.indexes.length := by
    intro e he
    obtain ⟨p, hp, rfl⟩ := List.mem_map.1 he
    exact ⟨hbatch p (hperm.subset hp), hlen p (hperm.subset hp)⟩
  have hnd : ((all.map fun p => (p.batch, p.fold.outcomes)).map fun e => e.1.tp).Nodup := by
    rw [List.map_map]
    refine (hperm.map _).nodup_iff.2 ?_
    have hgroup : ((Batch.group positions).map Batch.tp).Nodup := Batch.nodup_group
    rwa [← hplans, List.map_map] at hgroup
  have hl : (Batch.recordAll (all.map fun p => (p.batch, p.fold.outcomes))
      (List.replicate cursors.length .outdated)).length = cursors.length := by simp
  obtain ⟨hcursors, houtcomes⟩ := CommitResult.map_zipWith_mk hl
  refine ⟨_, by rw [results, hok, if_neg (by simp), hdone], hcursors, ?_⟩
  intro p hp
  rw [outcomes_of_locates hloc hcursors (hbatch p hp), houtcomes]
  have hlength : (List.replicate cursors.length Outcome.outdated).length = positions.length := by
    rw [List.length_replicate, hloc.length_eq]
  exact Batch.pick_recordAll hlength hnd hentries (List.mem_map.2 ⟨p, hperm.symm.subset hp, rfl⟩)

/-! ## The commit -/

section
variable (d : Directory) (token : Nat → String) {w : World Unit} {cursors : List Cursor}

theorem runIn_commit_of_error (hc : cursors ≠ []) {e : Error}
    (h : c.preparedIn stream subscription d cursors w.store = .error e) :
    ((c.commit stream subscription cursors).runIn (.undisturbed d token) w).value = .error e ∧
      ((c.commit stream subscription cursors).runIn (.undisturbed d token) w).world = w := by
  have hlook : (c.prepare stream subscription cursors).Looks d
      (c.preparedIn stream subscription d cursors) := looks_prepare cursors
  obtain ⟨hv, hw⟩ := hlook token w
  rw [runIn_commit, commitUncounted_eq hc,
    Action.runIn_bind_error _ (hv.trans h)]
  exact ⟨rfl, hw⟩

theorem runIn_commit_of_prepared (hc : cursors ≠ []) {plans : List Plan}
    (h : c.Prepared stream subscription d cursors w.store positions plans) :
    ((c.commit stream subscription cursors).runIn (.undisturbed d token) w).value =
        results stream cursors plans
          ((c.writeAll stream subscription positions plans).run (.undisturbed d token) w).value ∧
      ((c.commit stream subscription cursors).runIn (.undisturbed d token) w).world =
        ((c.writeAll stream subscription positions plans).run (.undisturbed d token) w).world := by
  have hlook : (c.prepare stream subscription cursors).Looks d
      (c.preparedIn stream subscription d cursors) := looks_prepare cursors
  obtain ⟨hv, hw⟩ := hlook token w
  rw [runIn_commit, commitUncounted_eq hc,
    Action.runIn_bind_ok _ (hv.trans (preparedIn_eq_ok_iff.2 h)), hw,
    Action.runIn_bind_ok _ (by rw [Action.runIn_ofProgram])]
  exact ⟨rfl, by rw [Action.runIn_ofProgram]; rfl⟩

/-- What the commit of no cursors answers, whatever the store holds. -/
def emptyIn (d : Directory) (stream subscription : String) : Except Error (List CommitResult) := do
  Requested.checkCommit stream subscription
  let _ ← (d.subscription subscription).mapError Error.resolution
  return []

theorem eq_nil_of_emptyIn {d : Directory} {rs : List CommitResult}
    (h : emptyIn d stream subscription = .ok rs) : rs = [] := by
  obtain ⟨_, -, h⟩ := except_bind_eq_ok_iff.1 h
  obtain ⟨_, -, h⟩ := except_bind_eq_ok_iff.1 h
  cases h
  rfl

theorem emptyIn_eq_ok {d : Directory} {found : Subscription}
    (hr : Requested.checkCommit stream subscription = .ok ())
    (hs : d.subscription subscription = .ok found) : emptyIn d stream subscription = .ok [] := by
  rw [emptyIn, hr, hs]
  rfl

theorem runIn_commit_nil :
    ((c.commit stream subscription []).runIn (.undisturbed d token) w).value =
        emptyIn d stream subscription ∧
      ((c.commit stream subscription []).runIn (.undisturbed d token) w).world = w := by
  have hlook : (c.commitUncounted stream subscription []).Looks d fun _ =>
      emptyIn d stream subscription :=
    (Action.looks_of _).bind fun _ =>
      (Action.looks_subscription _).bind fun _ => Action.looks_pure []
  rw [runIn_commit]
  exact hlook token w

/-- **The writes of a commit** that can go on to them succeed, if it may attempt
    them or has none to make. -/
theorem run_writeAll {plans : List Plan}
    (h : c.Prepared stream subscription d cursors w.store positions plans)
    (hn : c.attempts ≠ 0 ∨ plans.filter (·.fold.advanced) = []) :
    ((c.writeAll stream subscription positions plans).run (.undisturbed d token) w).value =
        (plans.filter (·.fold.advanced)).map (fun p => (p.batch, .ok p.fold.outcomes)) ∧
      ((c.writeAll stream subscription positions plans).run (.undisturbed d token) w).world =
        { w with store := w.store.writeAll (c.entriesOf subscription plans) } := by
  show ((c.writeEach stream subscription positions (plans.filter (·.fold.advanced))).run _
    w).value = _ ∧ ((c.writeEach stream subscription positions _).run _ w).world = _
  cases hattempts : c.attempts with
  | zero =>
    rw [entriesOf, hn.resolve_left (not_not.2 hattempts)]
    exact ⟨rfl, rfl⟩
  | succ n =>
    have hsub : (plans.filter (·.fold.advanced)).Sublist plans := List.filter_sublist
    exact run_writeEach d token h.available (fun p hp => h.rests p (hsub.subset hp))
      (h.apart.sublist hsub) hattempts

variable (c stream subscription) in
/-- A commit that succeeds while nobody else acts: it writes the plans that
    advanced, and its outcomes are those of the plans. -/
structure Completed (d : Directory) (cursors : List Cursor) (s s' : Store)
    (positions : List Position) (plans : List Plan) (rs : List CommitResult) : Prop where
  prepared : c.Prepared stream subscription d cursors s positions plans
  store : s' = s.writeAll (c.entriesOf subscription plans)
  ordered : rs.map CommitResult.cursor = cursors
  outcomes : ∀ p ∈ plans, d.outcomesIn p.batch.tp rs = p.fold.outcomes

/-- **A commit that can go on to its writes completes**, if it may attempt
    them or has none to make. -/
theorem completed_of_prepared (hc : cursors ≠ []) {plans : List Plan}
    (h : c.Prepared stream subscription d cursors w.store positions plans)
    (hn : c.attempts ≠ 0 ∨ plans.filter (·.fold.advanced) = []) :
    ∃ rs, ((c.commit stream subscription cursors).runIn (.undisturbed d token) w).value = .ok rs ∧
      c.Completed stream subscription d cursors w.store
        ((c.commit stream subscription cursors).runIn (.undisturbed d token) w).world.store
        positions plans rs := by
  obtain ⟨hvalue, hworld⟩ := runIn_commit_of_prepared d token hc h
  have hwrites := run_writeAll d token h hn
  obtain ⟨rs, hrs, hcursors, houtcomes⟩ := results_of_settled stream h.located h.planned
    fun p hp => h.length_outcomes hp
  rw [hwrites.1, hrs] at hvalue
  exact ⟨rs, hvalue, h, by rw [hworld, hwrites.2], hcursors, houtcomes⟩

/-- **What can come of a commit** while nobody else acts. -/
theorem undisturbed_cases (hc : cursors ≠ []) :
    (∃ e, ((c.commit stream subscription cursors).runIn (.undisturbed d token) w).value =
        .error e ∧
      ((c.commit stream subscription cursors).runIn (.undisturbed d token) w).world = w) ∨
    ∃ positions plans rs,
      ((c.commit stream subscription cursors).runIn (.undisturbed d token) w).value = .ok rs ∧
        c.Completed stream subscription d cursors w.store
          ((c.commit stream subscription cursors).runIn (.undisturbed d token) w).world.store
          positions plans rs := by
  cases hp : c.preparedIn stream subscription d cursors w.store with
  | error e => exact Or.inl ⟨e, runIn_commit_of_error d token hc hp⟩
  | ok q =>
    obtain ⟨positions, plans⟩ := q
    have h := preparedIn_eq_ok_iff.1 hp
    by_cases hn : c.attempts ≠ 0 ∨ plans.filter (·.fold.advanced) = []
    · obtain ⟨rs, hrs⟩ := completed_of_prepared d token hc h hn
      exact Or.inr ⟨positions, plans, rs, hrs⟩
    · -- without attempts each plan that advanced is a conflict
      obtain ⟨hn, hadv⟩ := not_or.1 hn
      obtain ⟨hvalue, hworld⟩ := runIn_commit_of_prepared d token hc h
      have hwrites := run_writeEach_zero stream subscription positions d token
        (plans.filter (·.fold.advanced)) w (not_not.1 hn)
      have hfailed : failures ((plans.filter (·.fold.advanced)).map fun p =>
          (p.batch, .error .conflict)) ≠ [] := by
        simpa [failures, List.filterMap_map, List.filterMap_eq_nil_iff] using hadv
      obtain ⟨e, he⟩ := results_of_failures stream cursors plans hfailed
      rw [show ((c.writeAll stream subscription positions plans).run _ w).value = _ from hwrites.1,
        he] at hvalue
      exact Or.inl ⟨e, hvalue, hworld.trans hwrites.2⟩

variable {d token}

/-- **A failure leaves all as it was.** -/
theorem world_of_error {e : Error}
    (he : ((c.commit stream subscription cursors).runIn (.undisturbed d token) w).value =
      .error e) :
    ((c.commit stream subscription cursors).runIn (.undisturbed d token) w).world = w := by
  by_cases hc : cursors = []
  · subst hc
    exact (runIn_commit_nil d token).2
  · rcases undisturbed_cases d token hc with ⟨_, _, hworld⟩ | ⟨_, _, rs, hrs, _⟩
    · exact hworld
    · rw [hrs] at he; cases he

/-- **A success completes its plans**, or has no cursors. -/
theorem completed_of_ok {rs : List CommitResult}
    (hrs : ((c.commit stream subscription cursors).runIn (.undisturbed d token) w).value =
      .ok rs) :
    (cursors = [] ∧ rs = [] ∧
      ((c.commit stream subscription cursors).runIn (.undisturbed d token) w).world = w) ∨
    (cursors ≠ [] ∧ ∃ positions plans, c.Completed stream subscription d cursors w.store
      ((c.commit stream subscription cursors).runIn (.undisturbed d token) w).world.store
      positions plans rs) := by
  by_cases hc : cursors = []
  · subst hc
    obtain ⟨hvalue, hworld⟩ := runIn_commit_nil (c := c) (w := w) d token
    rw [hvalue] at hrs
    exact Or.inl ⟨rfl, eq_nil_of_emptyIn hrs, hworld⟩
  · rcases undisturbed_cases d token hc with ⟨e, he, -⟩ | ⟨positions, plans, _, hrs', h⟩
    · rw [hrs] at he; cases he
    · rw [hrs] at hrs'; cases hrs'
      exact Or.inr ⟨hc, positions, plans, h⟩

end

end Coordinator

end CursorCommit

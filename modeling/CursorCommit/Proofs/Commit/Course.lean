/-
  The course of a commit.

  The commit of a batch ends before its writes or with them (`Phases`).  If it
  ends before, it makes no compare-and-set and names no written partition
  (`Stopped`); if it gets as far as writing, `Course` says what its positions,
  its plans and the parts of its trace are, and how its result is put together
  from them (`traces_commit_cases`).
-/
import CursorCommit.Proofs.Batch
import CursorCommit.Proofs.Commit.Writing
import CursorCommit.Proofs.Key

namespace CursorCommit

theorem Program.traces_forM_tick {ms : List Metric} {tr : List Event} {u : Unit} :
    (ms.forM Program.tick).Traces tr u ↔ tr = ms.map Event.tick := by
  induction ms generalizing tr with
  | nil => exact Program.traces_done.trans (and_iff_left rfl)
  | cons m ms ih =>
    show Program.Traces (Program.tick m >>= fun _ => ms.forM Program.tick) tr u ↔ _
    rw [Program.traces_bind]
    constructor
    · rintro ⟨v, t₁, t₂, h₁, h₂, rfl⟩
      rw [Program.traces_tick.1 h₁, ih.1 h₂]; rfl
    · rintro rfl
      exact ⟨(), [.tick m], _, Program.traces_tick.2 rfl, ih.2 rfl, rfl⟩

theorem Program.run_forM_tick {σ : Type} (env : Surroundings σ) (ms : List Metric) (w : World σ) :
    (ms.forM Program.tick).run env w = ⟨(), ms.map Event.tick, w⟩ := by
  induction ms with
  | nil => rfl
  | cons m ms ih =>
    have htick : (Program.tick m).run env w = ⟨(), [.tick m], w⟩ := rfl
    show (Program.tick m >>= fun _ => ms.forM Program.tick).run env w = _
    simp only [Program.run_bind, htick, ih]
    rfl

theorem Directory.partitions_eq_map_tp {d : Directory} {cursors : List Cursor}
    {positions : List Position} (h : List.Forall₂ d.Locates cursors positions) :
    d.partitions cursors = (Batch.group positions).map Batch.tp := by
  rw [Batch.map_tp_group, partitions_of_locates h]

namespace Coordinator

variable (c : Coordinator) (stream subscription : String)

/-- A commit that gets as far as writing: its positions, its plans, and the
    parts of its trace that write them. -/
structure Course (d : Directory) (cursors : List Cursor) (tr : List Event)
    (r : Except Error (List CommitResult)) (positions : List Position) (plans : List Plan)
    (parts : List Part) : Prop where
  located : List.Forall₂ d.Locates cursors positions
  planned : plans.map Plan.batch = Batch.group positions
  ready : ∀ p ∈ plans, p.Ready c stream subscription positions tr
  backed : Along (c.Backed stream subscription positions (Batch.group positions)) [] tr
  written : parts.map Part.batch = (plans.filter (·.fold.advanced)).map Plan.batch
  settled : ∀ t ∈ parts, c.Settles stream subscription positions tr t.events t.batch t.written
  entries : Event.entries tr = parts.flatMap fun t => Event.entries t.events
  result : r = results stream cursors plans (parts.map fun t => (t.batch, t.written))

/-- A commit that ends before it writes. -/
structure Unwritten (cursors : List Cursor) (tr : List Event)
    (r : Except Error (List CommitResult)) : Prop where
  quiet : ∀ e ∈ tr, e.isAttempt = false
  result : (∃ e, r = .error e ∧ e.committed = []) ∨ r = .ok [] ∧ cursors = []

variable {c stream subscription} {cursors : List Cursor} {tr : List Event}
  {r : Except Error (List CommitResult)}

/-- **A commit counts in the end**, which changes neither its result nor the
    store. -/
theorem runIn_commit {σ : Type} (env : Surroundings σ) (w : World σ) :
    (c.commit stream subscription cursors).runIn env w =
      let run := (c.commitUncounted stream subscription cursors).runIn env w
      ⟨run.value, run.trace ++ (counted run.value).map Event.tick, run.world⟩ := by
  unfold Action.runIn commit
  simp only [ExceptT.run_mk, Program.run_bind, Program.run_forM_tick, Program.pure_eq_done,
    Program.run_done, List.append_nil]

theorem traces_commit : (c.commit stream subscription cursors).Traces tr r ↔
    ∃ t, (c.commitUncounted stream subscription cursors).Traces t r ∧
      tr = t ++ (counted r).map Event.tick := by
  show Program.Traces (_ >>= fun result => (counted result).forM Program.tick >>= fun _ =>
    .done result) tr r ↔ _
  rw [Program.traces_bind]
  constructor
  · rintro ⟨r', t₁, t, h₁, h, rfl⟩
    obtain ⟨u, t₂, t₃, h₂, h₃, rfl⟩ := Program.traces_bind.1 h
    obtain ⟨rfl, rfl⟩ := Program.traces_done.1 h₃
    exact ⟨t₁, h₁, by rw [Program.traces_forM_tick.1 h₂, List.append_nil]⟩
  · rintro ⟨t, h, rfl⟩
    exact ⟨r, t, _, h, Program.traces_bind.2 ⟨(), _, [], Program.traces_forM_tick.2 rfl,
      .done _, (List.append_nil _).symm⟩, rfl⟩

/-! ## Up to the writes -/

variable (c stream subscription cursors) in
/-- What a commit does before it writes: it validates and plans. -/
def prepare : Action (List Position × List Plan) := do
  Action.of (Requested.checkCommit stream subscription)
  let found ← Action.subscription subscription
  let positions ← Cursor.positions found cursors
  let seen ← c.owned stream subscription (Batch.group positions)
  let plans ← c.planAll subscription positions (Batch.group positions) seen
  return (positions, plans)

theorem commitUncounted_eq (h : cursors ≠ []) : c.commitUncounted stream subscription cursors =
    c.prepare stream subscription cursors >>= fun q =>
      Action.ofProgram (c.writeAll stream subscription q.1 q.2) >>= fun written =>
        Action.of (results stream cursors q.2 written) := by
  simp only [commitUncounted, prepare, commitBatch, if_neg h, bind_assoc, pure_bind]

theorem isEarly_of_checkCommit {e : Error}
    (h : Requested.checkCommit stream subscription = .error e) : e.IsEarly := by
  unfold Requested.checkCommit Requested.checkSubscription Requested.checkStream at h
  cases h₁ : Name.checkIdentifier subscription <;> cases h₂ : Name.checkIdentifier stream <;>
    simp only [h₁, h₂, except_mapError_ok, except_mapError_error, bind, Except.bind] at h <;>
      cases h <;> trivial

/-- The preparation only reads, and fails early or over ownership. -/
theorem confined_prepare : (c.prepare stream subscription cursors).Confined
    Event.IsRead (Error.IsRefusal stream) := by
  refine (Action.confined_of fun _ h => .inl (isEarly_of_checkCommit h)).bind fun _ => ?_
  refine ((Action.confined_subscription _).mono (fun _ => id) fun _ => .inl).bind fun found => ?_
  refine ((Cursor.confined_positions found cursors).mono (fun _ => Event.IsLookup.isRead)
    fun _ => .inl).bind fun positions => ?_
  refine ((c.confined_owned stream subscription _).mono (fun _ => Event.IsGet.isRead)
    fun _ => id).bind fun seen => ?_
  exact ((c.confined_planAll subscription positions _ seen).mono (fun _ => Event.IsGet.isRead)
    fun _ => .inl).bind fun plans => Action.confined_pure _

theorem readsOnly_prepare : (c.prepare stream subscription cursors).ReadsOnly :=
  confined_prepare.mono (fun _ => Event.IsRead.quiet) fun _ => Error.IsRefusal.committed

theorem traces_prepare_ok_parts {positions : List Position} {plans : List Plan}
    (h : (c.prepare stream subscription cursors).Traces tr (.ok (positions, plans))) :
    Requested.checkCommit stream subscription = .ok () ∧
      ∃ found t₁ t₂ t₃ seen, (Cursor.positions found cursors).Traces t₁ (.ok positions) ∧
        (c.owned stream subscription (Batch.group positions)).Traces t₂ (.ok seen) ∧
        (c.planAll subscription positions (Batch.group positions) seen).Traces t₃ (.ok plans) ∧
        tr = .subscription subscription (.ok found) :: (t₁ ++ (t₂ ++ t₃)) := by
  obtain ⟨u, t₁, x₁, h₀, h₁, rfl⟩ := Action.traces_bind_ok.1 h
  obtain ⟨found, t₂, x₂, hfound, h₂, rfl⟩ := Action.traces_bind_ok.1 h₁
  obtain ⟨ps, t₃, x₃, hps, h₃, rfl⟩ := Action.traces_bind_ok.1 h₂
  obtain ⟨seen, t₄, x₄, hseen, h₄, rfl⟩ := Action.traces_bind_ok.1 h₃
  obtain ⟨plans', t₅, t₆, hplans, h₅, rfl⟩ := Action.traces_bind_ok.1 h₄
  obtain ⟨rfl, h₆⟩ := Action.traces_pure.1 h₅
  cases h₆
  obtain ⟨rfl, hcheck⟩ := Action.traces_of.1 h₀
  obtain ⟨answer, rfl, hanswer⟩ := Action.traces_subscription.1 hfound
  cases answer <;> cases hanswer
  refine ⟨hcheck.symm, found, t₃, t₄, t₅, seen, hps, hseen, hplans, ?_⟩
  rw [List.append_nil]; rfl

/-- **Before the writes** all plans are ready, one for each batch of the
    positions. -/
theorem traces_prepare_ok {d : Directory} {positions : List Position} {plans : List Plan}
    (hd : d.Told tr)
    (h : (c.prepare stream subscription cursors).Traces tr (.ok (positions, plans))) :
    List.Forall₂ d.Locates cursors positions ∧ plans.map Plan.batch = Batch.group positions ∧
      ∀ p ∈ plans, p.Ready c stream subscription positions tr := by
  obtain ⟨-, found, t₁, t₂, t₃, seen, hps, hseen, hplans, rfl⟩ := traces_prepare_ok_parts h
  obtain ⟨hbs, hready⟩ := ready_planAll hseen hplans
  refine ⟨Cursor.positions_locate (hd.mono ?_) hps, hbs, fun p hp => (hready p hp).mono ?_⟩
  · intro e he; simp [he]
  · intro e he; simp at he ⊢; tauto

/-! ## The whole commit -/

theorem entries_flatMap (parts : List Part) :
    Event.entries (parts.flatMap Part.events) = parts.flatMap fun t => Event.entries t.events := by
  induction parts with
  | nil => rfl
  | cons t parts ih => rw [List.flatMap_cons, Event.entries_append, ih, List.flatMap_cons]

theorem quiet_ticks (ms : List Metric) : ∀ e ∈ ms.map Event.tick, e.isAttempt = false := by
  intro e he
  obtain ⟨m, -, rfl⟩ := List.mem_map.1 he
  rfl

theorem traces_commitUncounted_nil
    (h : (c.commitUncounted stream subscription []).Traces tr r) :
    (∀ e ∈ tr, e.IsRead) ∧ ((∃ e, r = .error e ∧ e.IsEarly) ∨ r = .ok []) := by
  have hconfined : (c.commitUncounted stream subscription []).Confined
      Event.IsRead Error.IsEarly :=
    (Action.confined_of fun _ => isEarly_of_checkCommit).bind fun _ =>
      (Action.confined_subscription _).bind fun _ => Action.confined_pure _
  obtain ⟨hreads, hfail⟩ := hconfined _ _ h
  refine ⟨hreads, ?_⟩
  rcases r with e | rs
  · exact Or.inl ⟨e, rfl, hfail e rfl⟩
  · obtain ⟨u, t₁, x₁, -, h₁, rfl⟩ := Action.traces_bind_ok.1 h
    obtain ⟨found, t₂, x₂, -, h₂, rfl⟩ := Action.traces_bind_ok.1 h₁
    exact Or.inr (Action.traces_pure.1 h₂).2

variable (c stream subscription) in
/-- What the commit of a batch comes to: it ends before its writes or with
    them, and in the end it counts. -/
inductive Phases (cursors : List Cursor) : List Event → Except Error (List CommitResult) → Prop
  | refused {before : List Event} {e : Error} :
      (c.prepare stream subscription cursors).Traces before (.error e) →
        Phases cursors (before ++ (counted (.error e)).map Event.tick) (.error e)
  | written {positions : List Position} {plans : List Plan} {before during : List Event}
      {written : List (Batch × Written)} :
      (c.prepare stream subscription cursors).Traces before (.ok (positions, plans)) →
        (c.writeAll stream subscription positions plans).Traces during written →
          Phases cursors
            (before ++ (during ++ (counted (results stream cursors plans written)).map Event.tick))
            (results stream cursors plans written)

/-- **The phases of a commit.** -/
theorem phases_of_traces_commit (hc : cursors ≠ [])
    (h : (c.commit stream subscription cursors).Traces tr r) :
    c.Phases stream subscription cursors tr r := by
  obtain ⟨t, ht, rfl⟩ := traces_commit.1 h
  rw [commitUncounted_eq hc] at ht
  rcases Action.traces_bind.1 ht with ⟨e, h₁, rfl⟩ | ⟨⟨positions, plans⟩, before, t', h₁, h₂, rfl⟩
  · exact .refused h₁
  · rcases Action.traces_bind.1 h₂ with ⟨e, h₃, -⟩ | ⟨written, during, t₂, h₃, h₄, rfl⟩
    · obtain ⟨written, -, he⟩ := Action.traces_ofProgram.1 h₃
      cases he
    · obtain ⟨written', hw, he⟩ := Action.traces_ofProgram.1 h₃
      cases he
      obtain ⟨rfl, rfl⟩ := Action.traces_of.1 h₄
      rw [List.append_nil, List.append_assoc]
      exact .written h₁ hw

variable (stream cursors tr r) in
/-- A commit that stops before its writes makes no attempt; it fails, early or
    over ownership, or has no cursors and no results. -/
structure Stopped : Prop where
  quiet : ∀ e ∈ tr, e.isAttempt = false
  result : (∃ e, r = .error e ∧ e.IsRefusal stream) ∨ r = .ok [] ∧ cursors = []

theorem Stopped.unwritten (h : Stopped stream cursors tr r) : Unwritten cursors tr r where
  quiet := h.quiet
  result := h.result.imp_left fun ⟨e, he, hrefusal⟩ => ⟨e, he, hrefusal.committed⟩

theorem Stopped.ne_conflict (h : Stopped stream cursors tr r)
    (tps committed : List TopicPartition) : r ≠ .error (.conflict tps committed) := by
  rintro rfl
  rcases h.result with ⟨e, he, hrefusal⟩ | ⟨he, -⟩
  · cases he
    exact hrefusal.ne_conflict tps committed rfl
  · cases he

/-- **A commit stops before its writes, or goes on to them.** -/
theorem stopped_or_written (h : (c.commit stream subscription cursors).Traces tr r) :
    Stopped stream cursors tr r ∨ ∃ positions plans before during written,
      (c.prepare stream subscription cursors).Traces before (.ok (positions, plans)) ∧
        (c.writeAll stream subscription positions plans).Traces during written ∧
          tr = before ++ (during ++ (counted r).map Event.tick) ∧
            r = results stream cursors plans written := by
  by_cases hc : cursors = []
  · subst hc
    obtain ⟨t, ht, rfl⟩ := traces_commit.1 h
    obtain ⟨hreads, hr⟩ := traces_commitUncounted_nil ht
    refine Or.inl ⟨List.forall_mem_append.2 ⟨fun e he => (hreads e he).quiet, quiet_ticks _⟩, ?_⟩
    exact hr.imp (fun ⟨e, he, hearly⟩ => ⟨e, he, Or.inl hearly⟩) fun hr => ⟨hr, rfl⟩
  · cases phases_of_traces_commit hc h with
    | refused hprepare =>
      obtain ⟨hreads, hfail⟩ := confined_prepare _ _ hprepare
      exact Or.inl ⟨List.forall_mem_append.2 ⟨fun e he => (hreads e he).quiet, quiet_ticks _⟩,
        Or.inl ⟨_, rfl, hfail _ rfl⟩⟩
    | written hprepare hwrite => exact Or.inr ⟨_, _, _, _, _, hprepare, hwrite, rfl, rfl⟩

theorem course_of_prepare {d : Directory} {positions : List Position} {plans : List Plan}
    {before during : List Event} {written : List (Batch × Written)} (hd : d.Told before)
    (hprepare : (c.prepare stream subscription cursors).Traces before (.ok (positions, plans)))
    (hw : (c.writeAll stream subscription positions plans).Traces during written) :
    ∃ parts, c.Course stream subscription d cursors (before ++ during)
      (results stream cursors plans written) positions plans parts := by
  obtain ⟨hquiet, -⟩ := readsOnly_prepare _ _ hprepare
  obtain ⟨hloc, hbs, hready⟩ := traces_prepare_ok hd hprepare
  obtain ⟨hback, parts, hparts, rfl, rfl, hsettled⟩ := writeAll_backed_settles hready hw
  refine ⟨parts, hloc, hbs, fun p hp => (hready p hp).mono (List.subset_append_left _ _), ?_,
    hparts, hsettled, ?_, rfl⟩
  · rw [hbs] at hback
    exact Along.append_iff.2 ⟨backed_of_not_attempt hquiet, hback⟩
  · rw [Event.entries_append, Event.entries_eq_nil hquiet, List.nil_append, entries_flatMap]

theorem Course.append_quiet {d : Directory} {positions : List Position} {plans : List Plan}
    {parts : List Part} {t : List Event}
    (h : c.Course stream subscription d cursors tr r positions plans parts)
    (ht : ∀ e ∈ t, e.isAttempt = false) :
    c.Course stream subscription d cursors (tr ++ t) r positions plans parts where
  located := h.located
  planned := h.planned
  ready p hp := (h.ready p hp).mono (List.subset_append_left _ _)
  backed := Along.append_iff.2 ⟨h.backed, backed_of_not_attempt ht⟩
  written := h.written
  settled t' ht' := (h.settled t' ht').mono (List.subset_append_left _ _) rfl
  entries := by rw [Event.entries_append, Event.entries_eq_nil ht, List.append_nil, h.entries]
  result := h.result

/-- **What a commit can do**, whatever it is answered. -/
theorem traces_commit_cases {d : Directory} (hd : d.Told tr)
    (h : (c.commit stream subscription cursors).Traces tr r) :
    Unwritten cursors tr r ∨ ∃ positions plans parts,
      c.Course stream subscription d cursors tr r positions plans parts := by
  rcases stopped_or_written h with
    hstopped | ⟨positions, plans, before, during, written, hprepare, hwrite, rfl, hr⟩
  · exact Or.inl hstopped.unwritten
  · obtain ⟨parts, hcourse⟩ :=
      course_of_prepare (hd.mono (List.subset_append_left _ _)) hprepare hwrite
    rw [← hr] at hcourse
    rw [← List.append_assoc]
    exact Or.inr ⟨positions, plans, parts, hcourse.append_quiet (quiet_ticks _)⟩

/-- **What a run of a commit can be.** -/
theorem commit_run_cases {σ : Type} (env : Surroundings σ) (w : World σ) (c : Coordinator)
    (stream subscription : String) (cursors : List Cursor) :
    let run := (c.commit stream subscription cursors).runIn env w
    Unwritten cursors run.trace run.value ∨ ∃ positions plans parts,
      c.Course stream subscription env.directory cursors run.trace run.value positions plans
        parts :=
  traces_commit_cases (Action.linked_run env _ w).told (Action.traces_run env _ w)

theorem Unwritten.writes_eq_nil (h : Unwritten cursors tr r) : Event.writes tr = [] :=
  List.filterMap_eq_nil_iff.2 fun e he => Event.write?_eq_none (h.quiet e he)

/-! ## What a course consists of -/

namespace Course

variable {d : Directory} {positions : List Position} {plans : List Plan} {parts : List Part}

theorem partitions_eq (h : c.Course stream subscription d cursors tr r positions plans parts) :
    d.partitions cursors = (Batch.group positions).map Batch.tp :=
  Directory.partitions_eq_map_tp h.located

theorem checked (h : c.Course stream subscription d cursors tr r positions plans parts)
    {tp : TopicPartition} (htp : tp ∈ d.partitions cursors) :
    Name.checkSegment tp.topic = .ok () :=
  (Directory.checked_of_locates h.located htp).1

/-- **A compare-and-set of a commit**, applied or not, is that of a plan of the
    batch that was ready by then and advanced. -/
theorem of_attempt (h : c.Course stream subscription d cursors tr r positions plans parts)
    {e : Event} (he : e ∈ tr) (ha : e.isAttempt = true) :
    ∃ (p : Plan) (past rest : List Event) (answer : Except StoreError Bool) (frame : Frame),
      p.batch.tp ∈ d.partitions cursors ∧ p.Ready c stream subscription positions past ∧
        p.fold.advanced = true ∧ tr = past ++ e :: rest ∧
          e = .store (c.writeCall subscription p) answer frame := by
  obtain ⟨past, rest, rfl⟩ := List.append_of_mem he
  have hback : c.Backed stream subscription positions (Batch.group positions) past e :=
    (Along.append_iff.1 h.backed).2.1
  obtain ⟨p, answer, frame, rfl, hp, hready, hadv⟩ := hback ha
  refine ⟨p, past, rest, answer, frame, ?_, hready, hadv, rfl, rfl⟩
  rw [h.partitions_eq]
  exact List.mem_map_of_mem hp

/-- **A write of a commit** is the compare-and-set of a plan of the batch that
    was ready by then and advanced. -/
theorem of_mem_writes (h : c.Course stream subscription d cursors tr r positions plans parts)
    {wr : Write} (hw : wr ∈ Event.writes tr) :
    ∃ (p : Plan) (past rest : List Event) (frame : Frame), p.batch.tp ∈ d.partitions cursors ∧
      p.Ready c stream subscription positions past ∧ p.fold.advanced = true ∧
        tr = past ++ .store (c.writeCall subscription p) (.ok true) frame :: rest ∧
          wr = ⟨c.offsetKey subscription p.batch.tp, Utf8.encode p.fold.highWater, frame.before,
            frame.after⟩ := by
  obtain ⟨e, he, hwr⟩ := List.mem_filterMap.1 hw
  have ha : e.isAttempt = true := by
    by_contra hne
    rw [Event.write?_eq_none (Bool.eq_false_iff.2 hne)] at hwr
    cases hwr
  obtain ⟨p, past, rest, answer, frame, htp, hready, hadv, htr, rfl⟩ := h.of_attempt he ha
  rcases answer with err | _ | _
  · cases hwr
  · cases hwr
  · cases hwr
    exact ⟨p, past, rest, frame, htp, hready, hadv, htr, rfl⟩

end Course

end Coordinator

end CursorCommit

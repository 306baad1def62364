/-
  The rounds of one partition's write.

  A round is an attempt, and after a refusal the reads that lead to the plan of
  the next one (`Round`).  By induction on the attempts that are left:

  * `fresh_of_traces_write`: the plan of each attempt is ready from what was
    read since any earlier one, which was refused;
  * `countP_of_traces_write`: there are no more attempts than were allowed;
  * `conflict_iff_exhausted`: the write is a conflict iff the attempts are used
    up (`Exhausted`).
-/
import CursorCommit.Proofs.Commit.Preparing

namespace CursorCommit

namespace Event

/-- Whether the event is a compare-and-set at the key, applied or not. -/
def isAttemptAt (key : String) : Event → Bool
  | .store (.compareAndSet k ..) _ _ => k == key
  | _ => false

/-- Whether the event is a compare-and-set that was answered with no. -/
def isRefused : Event → Bool
  | .store (.compareAndSet ..) (.ok false) _ => true
  | _ => false

variable {e : Event} {key : String}

theorem isAttempt_of_isAttemptAt (h : e.isAttemptAt key = true) : e.isAttempt = true := by
  unfold isAttemptAt at h
  split at h
  · rfl
  · cases h

theorem isAttemptAt_eq_false (h : e.isAttempt = false) (key : String) :
    e.isAttemptAt key = false :=
  Bool.eq_false_iff.2 fun ha => by rw [isAttempt_of_isAttemptAt ha] at h; cases h

end Event

/-- A plan is ready from the reads of its offset and its assignment alone. -/
theorem Plan.Ready.of_gets {c : Coordinator} {stream subscription : String}
    {positions : List Position} {past past' : List Event} {p : Plan}
    (h : p.Ready c stream subscription positions past)
    (hs : ∀ key answer frame, key = c.offsetKey subscription p.batch.tp ∨
      key = c.assignmentKey subscription p.batch.tp →
        .store (.get key) answer frame ∈ past → .store (.get key) answer frame ∈ past') :
    p.Ready c stream subscription positions past' := by
  obtain ⟨⟨record, frame, hr, hrec⟩, hf, ⟨o, frame', hr', ho⟩, how⟩ := h
  exact ⟨⟨record, frame, hs _ _ _ (Or.inl rfl) hr, hrec⟩, hf,
    ⟨o, frame', hs _ _ _ (Or.inr rfl) hr', ho⟩, how⟩

namespace Coordinator

variable (c : Coordinator) (stream subscription : String) (positions : List Position)

/-! ## What is read after a refusal -/

/-- The plan of a batch, given its sighting and the record of its offset. -/
def planOf (b : Batch) (seen : Sighting) (o : Option Record) : Except Error Plan := do
  let current ← StoredOffset.ofRecord? subscription b.tp o
  let fold ← foldPartition (c.order.comparator b.tp.topic) b.tp current (b.offsets positions)
  return ⟨b, current, fold, seen⟩

/-- The event has to do with the partition only: it is an attempt on its
    offset, a read of its offset or its assignment, or no call with a key. -/
structure Concerns (tp : TopicPartition) (e : Event) : Prop where
  attempts : ∀ key, e.isAttemptAt key = true → key = c.offsetKey subscription tp
  reads : ∀ key answer frame, e = .store (.get key) answer frame →
    key = c.offsetKey subscription tp ∨ key = c.assignmentKey subscription tp

/-- The event reads the partition's offset or its assignment, or is no call. -/
structure Rereads (tp : TopicPartition) (e : Event) : Prop extends Concerns c subscription tp e where
  quiet : e.isAttempt = false

variable {c stream subscription positions}

theorem currentOffset_eq (tp : TopicPartition) : c.currentOffset subscription tp =
    Action.store (.get (c.offsetKey subscription tp)) >>= fun o =>
      Action.of (StoredOffset.ofRecord? subscription tp o) := by
  unfold currentOffset offset?
  rw [bind_assoc]
  refine congrArg _ (funext fun o => ?_)
  cases o with
  | none => rfl
  | some record =>
    show (some <$> Action.of (StoredOffset.ofRecord record) >>= _) = Action.of _
    cases h : StoredOffset.ofRecord record <;> simp only [StoredOffset.ofRecord?, h] <;> rfl

theorem plan_eq (b : Batch) (seen : Sighting) : c.plan subscription positions b seen =
    Action.store (.get (c.offsetKey subscription b.tp)) >>= fun o =>
      Action.of (c.planOf subscription positions b seen o) := by
  unfold plan
  rw [currentOffset_eq, bind_assoc]
  refine congrArg _ (funext fun o => ?_)
  unfold planOf
  cases h : StoredOffset.ofRecord? subscription b.tp o with
  | error e => rfl
  | ok current =>
    show (Action.of (foldPartition _ _ current _) >>= _) = Action.of (foldPartition _ _ current _ >>= _)
    cases foldPartition (c.order.comparator b.tp.topic) b.tp current (b.offsets positions) <;> rfl

theorem traces_plan {b : Batch} {seen : Sighting} {tr : List Event} {r : Except Error Plan}
    (h : (c.plan subscription positions b seen).Traces tr r) :
    ∃ (answer : Except StoreError (Option Record)) (frame : Frame),
      tr = [.store (.get (c.offsetKey subscription b.tp)) answer frame] ∧
        ∀ o, answer = .ok o → r = c.planOf subscription positions b seen o := by
  rw [plan_eq] at h
  rcases Action.traces_bind.1 h with ⟨e, h₁, rfl⟩ | ⟨o, t₁, t₂, h₁, h₂, rfl⟩
  · obtain ⟨answer, frame, rfl, he⟩ := Action.traces_store.1 h₁
    refine ⟨answer, frame, rfl, fun o ho => ?_⟩
    rw [ho] at he
    cases he
  · obtain ⟨frame, rfl⟩ := traces_get_ok.1 h₁
    obtain ⟨rfl, rfl⟩ := Action.traces_of.1 h₂
    exact ⟨.ok o, frame, rfl, fun o' ho => by cases ho; rfl⟩

theorem traces_sight {tp : TopicPartition} {tr : List Event} {r : Except Error Sighting}
    (h : (c.sight subscription tp).Traces tr r) :
    ∃ (answer : Except StoreError (Option Record)) (frame : Frame),
      tr = [.store (.get (c.assignmentKey subscription tp)) answer frame] ∧
        r = (answer.mapError Error.ofStore).map Sighting.ofRecord? := by
  rcases Action.traces_bind.1 h with ⟨e, h₁, rfl⟩ | ⟨o, t₁, t₂, h₁, h₂, rfl⟩
  · obtain ⟨answer, frame, rfl, he⟩ := Action.traces_store.1 h₁
    exact ⟨answer, frame, rfl, by rw [← he]; rfl⟩
  · obtain ⟨frame, rfl⟩ := traces_get_ok.1 h₁
    obtain ⟨rfl, rfl⟩ := Action.traces_pure.1 h₂
    exact ⟨.ok o, frame, rfl, rfl⟩

/-- **What is read after a refusal**: the assignment, and if it still gives the
    partition to the stream, the offset that the new plan is made of. -/
theorem traces_replan {b : Batch} {tr : List Event} {r : Except Error Plan}
    (h : (c.replan stream subscription positions b).Traces tr r) :
    ∃ (answer : Except StoreError (Option Record)) (frame : Frame) (rest : List Event),
      tr = .store (.get (c.assignmentKey subscription b.tp)) answer frame :: rest ∧
        ((rest = [] ∧ ∀ o, answer = .ok o → (Sighting.ofRecord? o).isOwnedBy stream = false) ∨
          ∃ o answer' frame', answer = .ok o ∧
            rest = [.store (.get (c.offsetKey subscription b.tp)) answer' frame'] ∧
              ∀ o', answer' = .ok o' →
                r = c.planOf subscription positions b (Sighting.ofRecord? o) o') := by
  rcases Action.traces_bind.1 h with ⟨e, h₁, rfl⟩ | ⟨seen, t₁, t₂, h₁, h₂, rfl⟩
  · obtain ⟨answer, frame, rfl, he⟩ := traces_sight h₁
    refine ⟨answer, frame, [], rfl, Or.inl ⟨rfl, fun o ho => ?_⟩⟩
    rw [ho] at he
    cases he
  · obtain ⟨o, frame, rfl, rfl⟩ := traces_sight_ok h₁
    refine ⟨.ok o, frame, t₂, rfl, ?_⟩
    split at h₂
    · obtain ⟨answer', frame', rfl, hr⟩ := traces_plan h₂
      exact Or.inr ⟨o, answer', frame', rfl, rfl, hr⟩
    · next hno =>
      obtain ⟨rfl, rfl⟩ := Action.traces_fail.1 h₂
      refine Or.inl ⟨rfl, fun o' ho => ?_⟩
      cases ho
      exact Bool.eq_false_iff.2 hno

theorem rereads_get {tp : TopicPartition} {key : String}
    (h : key = c.offsetKey subscription tp ∨ key = c.assignmentKey subscription tp)
    (answer : Except StoreError (Option Record)) (frame : Frame) :
    c.Rereads subscription tp (.store (.get key) answer frame) where
  attempts _ ha := by cases ha
  reads _ _ _ he := by cases he; exact h
  quiet := rfl

theorem rereads_of_replan {b : Batch} {tr : List Event} {r : Except Error Plan}
    (h : (c.replan stream subscription positions b).Traces tr r) :
    ∀ e ∈ tr, c.Rereads subscription b.tp e := by
  obtain ⟨answer, frame, rest, rfl, hrest⟩ := traces_replan h
  refine List.forall_mem_cons.2 ⟨rereads_get (Or.inr rfl) _ _, ?_⟩
  rcases hrest with ⟨rfl, -⟩ | ⟨o, answer', frame', -, rfl, -⟩
  · simp
  · exact List.forall_mem_singleton.2 (rereads_get (Or.inl rfl) _ _)

/-- **The reads decide the new plan**: one that is ready from them is the one
    that is made. -/
theorem eq_of_ready_replan {p : Plan} {tr : List Event} {r : Except Error Plan}
    (h : (c.replan stream subscription positions p.batch).Traces tr r)
    (hp : p.Ready c stream subscription positions tr) : r = .ok p := by
  have hne := c.assignmentKey_ne_offsetKey subscription p.batch.tp
  obtain ⟨⟨record, f, hread, hrec⟩, hfold, ⟨o, f', hsight, ho⟩, howned⟩ := hp
  obtain ⟨answer, frame, rest, rfl, ⟨rfl, hno⟩ | ⟨o', answer', frame', rfl, rfl, hr⟩⟩ :=
    traces_replan h
  · cases List.mem_singleton.1 hsight
    rw [← ho, hno o rfl] at howned
    cases howned
  · have hfirst : o = o' := by
      rcases List.mem_cons.1 hsight with he | he
      · cases he; rfl
      · have he := List.mem_singleton.1 he
        injection he with hcall
        exact absurd (StoreCall.get.inj hcall) hne
    have hsecond : answer' = .ok (some record) := by
      rcases List.mem_cons.1 hread with he | he
      · injection he with hcall
        exact absurd (StoreCall.get.inj hcall).symm hne
      · cases List.mem_singleton.1 he; rfl
    rw [hr _ hsecond, planOf, StoredOffset.ofRecord?, hrec, ← hfirst, ho]
    simp only [bind, Except.bind, hfold]
    rfl

/-! ## Rounds -/

theorem isAttemptAt_writeCall (p : Plan) (answer : Except StoreError Bool) (frame : Frame) :
    (Event.store (c.writeCall subscription p) answer frame).isAttemptAt
      (c.offsetKey subscription p.batch.tp) = true :=
  beq_self_eq_true (c.offsetKey subscription p.batch.tp)

theorem concerns_writeCall (p : Plan) (answer : Except StoreError Bool) (frame : Frame) :
    c.Concerns subscription p.batch.tp (.store (c.writeCall subscription p) answer frame) where
  attempts _ ha := (beq_iff_eq.1 ha).symm
  reads _ _ _ he := by cases he

variable (c stream subscription positions) in
/-- What a round comes to, with `n` attempts left after it.  It is the last one
    and no conflict, as the attempt was not refused or what was read after it
    leads to no plan that advances; or the next one writes the plan that was
    read. -/
inductive Round (n : Nat) (p : Plan) : List Event → Written → Prop
  | last {answer : Except StoreError Bool} {frame : Frame} {reads : List Event} {w : Written} :
      (∀ e ∈ reads, c.Rereads subscription p.batch.tp e) → w ≠ .error .conflict →
        (answer = .ok false → ∀ p' : Plan, p'.batch = p.batch →
          p'.Ready c stream subscription positions reads → p'.fold.advanced = false) →
            Round n p (.store (c.writeCall subscription p) answer frame :: reads) w
  | next {frame : Frame} {reads rest : List Event} {p' : Plan} {w : Written} :
      (∀ e ∈ reads, c.Rereads subscription p.batch.tp e) → p'.batch = p.batch →
        p'.Ready c stream subscription positions reads → p'.fold.advanced = true →
          (c.write stream subscription positions n p').Traces rest w →
            Round n p (.store (c.writeCall subscription p) (.ok false) frame :: (reads ++ rest)) w

theorem rereads_tick (tp : TopicPartition) (metric : Metric) :
    c.Rereads subscription tp (.tick metric) where
  attempts _ ha := by cases ha
  reads _ _ _ he := by cases he
  quiet := rfl

theorem round_of_traces_write {n : Nat} {p : Plan} {tr : List Event} {w : Written}
    (h : (c.write stream subscription positions (n + 1) p).Traces tr w) :
    c.Round stream subscription positions n p tr w := by
  have hrereads : ∀ {reads : List Event} {r : Except Error Plan},
      (c.replan stream subscription positions p.batch).Traces reads r →
        ∀ e ∈ .tick .casConflict :: reads, c.Rereads subscription p.batch.tp e := fun hr =>
    List.forall_mem_cons.2 ⟨rereads_tick _ _, rereads_of_replan hr⟩
  have hdecided : ∀ {reads : List Event} {r : Except Error Plan},
      (c.replan stream subscription positions p.batch).Traces reads r →
        ∀ p' : Plan, p'.batch = p.batch →
          p'.Ready c stream subscription positions (.tick .casConflict :: reads) → r = .ok p' := by
    intro reads r hr p' hb hp'
    rw [← hb] at hr
    exact eq_of_ready_replan hr (hp'.of_gets fun key answer frame _ hm => by simpa using hm)
  cases attempt_of_traces_write h with
  | failed e frame => exact .last (by simp) (by simp) nofun
  | applied frame => exact .last (by simp) (by simp) nofun
  | lost frame hreads =>
    refine .last (hrereads hreads) (by simp) fun _ p' hb hp' => ?_
    cases hdecided hreads p' hb hp'
  | outdated frame hreads ha =>
    refine .last (hrereads hreads) (by simp) fun _ p' hb hp' => ?_
    cases hdecided hreads p' hb hp'
    exact ha
  | again frame hreads ha hrest =>
    obtain ⟨hp', hb⟩ := ready_replan hreads
    exact .next (hrereads hreads) hb (hp'.mono (List.subset_cons_self _ _)) ha hrest

/-- **What the attempts are worth.**  Each attempt writes a plan of the batch
    that is ready from what was read before the write and in it; any earlier
    one was refused, and the plan is ready from what was read since. -/
theorem fresh_of_traces_write {n : Nat} {p : Plan} {since tr : List Event} {w : Written}
    (hp : p.Ready c stream subscription positions since)
    (h : (c.write stream subscription positions n p).Traces tr w) {past rest : List Event}
    {e : Event} (htr : tr = past ++ e :: rest) (he : e.isAttempt = true) :
    ∃ (p' : Plan) (answer : Except StoreError Bool) (frame : Frame),
      e = .store (c.writeCall subscription p') answer frame ∧ p'.batch = p.batch ∧
        p'.Ready c stream subscription positions (since ++ past) ∧
          ∀ before e' between, past = before ++ e' :: between → e'.isAttempt = true →
            e'.isRefused = true ∧ p'.Ready c stream subscription positions between := by
  induction n generalizing p since tr w past rest with
  | zero =>
    obtain ⟨rfl, -⟩ := Program.traces_done.1 h
    simp at htr
  | succ n ih =>
    cases round_of_traces_write h with
    | @last answer frame reads w hreads =>
      cases past with
      | nil =>
        cases htr
        exact ⟨p, answer, frame, rfl, rfl, hp.mono (List.subset_append_left _ _), by simp⟩
      | cons e₀ past =>
        obtain ⟨rfl, rfl⟩ := List.cons.inj htr
        rw [(hreads e (by simp)).quiet] at he
        cases he
    | @next frame reads rest' p₁ w hreads hb hp₁ ha hrest =>
      cases past with
      | nil =>
        cases htr
        exact ⟨p, .ok false, frame, rfl, rfl, hp.mono (List.subset_append_left _ _), by simp⟩
      | cons e₀ past =>
        obtain ⟨rfl, htail⟩ := List.cons.inj htr
        -- the attempt is one of the next rounds, which start from the reads
        obtain ⟨past', rfl, hrest'⟩ := split_of_left (fun e he => (hreads e he).quiet) he htail
        obtain ⟨p', answer, frame', rfl, hb', hready, hearlier⟩ := ih hp₁ hrest hrest'
        refine ⟨p', answer, frame', rfl, hb'.trans hb, hready.mono ?_, ?_⟩
        · intro e he
          exact List.mem_append_right _ (List.mem_cons_of_mem _ he)
        · intro before e' between hsplit he'
          cases before with
          | nil =>
            cases hsplit
            exact ⟨rfl, hready⟩
          | cons e₁ before =>
            obtain ⟨rfl, hinner⟩ := List.cons.inj hsplit
            obtain ⟨before', -, hpast⟩ :=
              split_of_left (fun e he => (hreads e he).quiet) he' hinner
            exact hearlier before' e' between hpast he'

theorem concerns_of_traces_write {n : Nat} {p : Plan} {tr : List Event} {w : Written}
    (h : (c.write stream subscription positions n p).Traces tr w) :
    ∀ e ∈ tr, c.Concerns subscription p.batch.tp e := by
  induction n generalizing p tr w with
  | zero =>
    obtain ⟨rfl, -⟩ := Program.traces_done.1 h
    simp
  | succ n ih =>
    cases round_of_traces_write h with
    | last hreads =>
      exact List.forall_mem_cons.2 ⟨concerns_writeCall p _ _, fun e he => (hreads e he).toConcerns⟩
    | next hreads hb hp' ha hrest =>
      refine List.forall_mem_cons.2 ⟨concerns_writeCall p _ _, fun e he => ?_⟩
      rcases List.mem_append.1 he with he | he
      · exact (hreads e he).toConcerns
      · rw [← hb]
        exact ih hrest e he

/-- **There are no more attempts than were allowed.** -/
theorem countP_of_traces_write {n : Nat} {p : Plan} {tr : List Event} {w : Written}
    (h : (c.write stream subscription positions n p).Traces tr w) (key : String) :
    tr.countP (Event.isAttemptAt key) ≤ n := by
  induction n generalizing p tr w with
  | zero =>
    obtain ⟨rfl, -⟩ := Program.traces_done.1 h
    exact le_rfl
  | succ n ih =>
    have hquiet : ∀ {reads : List Event}, (∀ e ∈ reads, c.Rereads subscription p.batch.tp e) →
        reads.countP (Event.isAttemptAt key) = 0 := fun hreads =>
      List.countP_eq_zero.2 fun e he => by
        simp [Event.isAttemptAt_eq_false (hreads e he).quiet key]
    cases round_of_traces_write h with
    | last hreads =>
      rw [List.countP_cons, hquiet hreads]
      split <;> omega
    | next hreads hb hp' ha hrest =>
      have := ih hrest
      rw [List.countP_cons, List.countP_append, hquiet hreads]
      split <;> omega

/-! ## Conflicts -/

variable (c stream subscription positions) in
/-- The attempts on a batch's offset are used up: all of them were made and
    refused, and from what was read after the last one there is still a plan
    that is ready and advances. -/
structure Exhausted (n : Nat) (b : Batch) (tr : List Event) : Prop where
  count : tr.countP (Event.isAttemptAt (c.offsetKey subscription b.tp)) = n
  refused : ∀ e ∈ tr, e.isAttemptAt (c.offsetKey subscription b.tp) = true → e.isRefused = true
  ahead : ∀ past e rest, tr = past ++ e :: rest →
    e.isAttemptAt (c.offsetKey subscription b.tp) = true →
      (∀ e' ∈ rest, e'.isAttemptAt (c.offsetKey subscription b.tp) = false) →
        ∃ p : Plan, p.batch = b ∧ p.Ready c stream subscription positions rest ∧
          p.fold.advanced = true

/-- A refused attempt with a plan that advances uses up one attempt. -/
theorem exhausted_refused_iff {n : Nat} {b : Batch} {p : Plan} {e₀ : Event}
    {reads rest : List Event} (h₀ : e₀.isAttemptAt (c.offsetKey subscription b.tp) = true)
    (hrefused : e₀.isRefused = true) (hreads : ∀ e ∈ reads, c.Rereads subscription b.tp e)
    (hb : p.batch = b) (hp : p.Ready c stream subscription positions reads)
    (ha : p.fold.advanced = true) :
    c.Exhausted stream subscription positions (n + 1) b (e₀ :: (reads ++ rest)) ↔
      c.Exhausted stream subscription positions n b rest := by
  have hquiet : ∀ e ∈ reads, e.isAttemptAt (c.offsetKey subscription b.tp) = false :=
    fun e he => Event.isAttemptAt_eq_false (hreads e he).quiet _
  have hcount : reads.countP (Event.isAttemptAt (c.offsetKey subscription b.tp)) = 0 :=
    List.countP_eq_zero.2 fun e he => by simp [hquiet e he]
  constructor
  · intro h
    refine ⟨?_, fun e he => h.refused e ?_, fun past e rest' htr => ?_⟩
    · have := h.count
      rw [List.countP_cons_of_pos h₀, List.countP_append, hcount] at this
      omega
    · exact List.mem_cons_of_mem _ (List.mem_append_right _ he)
    · exact h.ahead (e₀ :: (reads ++ past)) e rest' (by simp [htr])
  · intro h
    refine ⟨?_, ?_, fun past e rest' htr he hlast => ?_⟩
    · rw [List.countP_cons_of_pos h₀, List.countP_append, hcount, h.count]
      omega
    · refine List.forall_mem_cons.2 ⟨fun _ => hrefused, fun e he hattempt => ?_⟩
      rcases List.mem_append.1 he with he | he
      · rw [hquiet e he] at hattempt
        cases hattempt
      · exact h.refused e he hattempt
    · cases past with
      | nil =>
        obtain ⟨rfl, rfl⟩ := List.cons.inj htr
        exact ⟨p, hb, hp.mono (List.subset_append_left _ _), ha⟩
      | cons e₁ past =>
        obtain ⟨rfl, htail⟩ := List.cons.inj htr
        obtain ⟨past', rfl, hrest⟩ := split_of_left hquiet he htail
        exact h.ahead past' e rest' hrest he hlast

/-- **A write is a conflict iff its attempts are used up.** -/
theorem conflict_iff_exhausted {n : Nat} {p : Plan} {tr : List Event} {w : Written}
    (h : (c.write stream subscription positions n p).Traces tr w) :
    w = .error .conflict ↔ c.Exhausted stream subscription positions n p.batch tr := by
  induction n generalizing p tr w with
  | zero =>
    obtain ⟨rfl, rfl⟩ := Program.traces_done.1 h
    exact iff_of_true rfl ⟨rfl, by simp, fun _ _ _ htr => by simp at htr⟩
  | succ n ih =>
    cases round_of_traces_write h with
    | @last answer frame reads w hreads hw hstuck =>
      refine iff_of_false hw fun hex => ?_
      have hanswer : answer = .ok false := by
        have := hex.refused _ List.mem_cons_self (isAttemptAt_writeCall p answer frame)
        rcases answer with e | _ | _
        · cases this
        · rfl
        · cases this
      obtain ⟨p', hb, hp', ha⟩ := hex.ahead [] _ reads rfl (isAttemptAt_writeCall p answer frame)
        fun e he => Event.isAttemptAt_eq_false (hreads e he).quiet _
      rw [hstuck hanswer p' hb hp'] at ha
      cases ha
    | @next frame reads rest p' w hreads hb hp' ha hrest =>
      have hrefused : (Event.store (c.writeCall subscription p) (.ok false) frame).isRefused =
          true := rfl
      have hnext : w = .error .conflict ↔
          c.Exhausted stream subscription positions n p.batch rest := by
        rw [← hb]
        exact ih hrest
      exact hnext.trans (exhausted_refused_iff (isAttemptAt_writeCall p _ frame) hrefused hreads
        hb hp' ha).symm

end Coordinator

end CursorCommit

/-
  The writing phase of a commit.

  Each compare-and-set of this phase is the one of a plan that is ready by
  then and advances (`Backed`), also after any number of refusals.  What a
  partition's write tells is what it did (`Settles`): it succeeds with the
  outcomes of a ready plan, and wrote the offset of this plan iff the plan
  advances; it fails without having written.

  * `attempt_of_traces_write`: the ways that an attempt can end;
  * `write_backed_settles`: the write of one partition;
  * `parts_of_traces_writes`: the parts of the phase, one for each plan;
  * `writeAll_backed_settles`: the phase, whose trace has a part for each
    plan that advanced.
-/
import CursorCommit.Proofs.Commit.Planning
import CursorCommit.Text.Utf8

namespace CursorCommit.Coordinator

variable (c : Coordinator) (stream subscription : String) (positions : List Position)

/-- The compare-and-set that writes a plan. -/
def writeCall (p : Plan) : StoreCall :=
  .compareAndSet (c.offsetKey subscription p.batch.tp) p.current.version
    (Utf8.encode p.fold.highWater) [c.guard subscription p.batch.tp p.seen]

/-- If the event is a compare-and-set, then it is that of a plan of one of the
    batches which is ready after the past and advances. -/
def Backed (batches : List Batch) (past : List Event) (e : Event) : Prop :=
  e.isAttempt = true → ∃ (p : Plan) (answer : Except StoreError Bool) (frame : Frame),
    e = .store (c.writeCall subscription p) answer frame ∧ p.batch ∈ batches ∧
      p.Ready c stream subscription positions past ∧ p.fold.advanced = true

/-- What became of a batch's write, given all events up to then and those of
    the write. -/
def Settles (history tr : List Event) (b : Batch) : Written → Prop
  | .ok outcomes => ∃ p : Plan, p.Ready c stream subscription positions history ∧ p.batch = b ∧
      outcomes = p.fold.outcomes ∧ Event.entries tr = if p.fold.advanced then
        [(c.offsetKey subscription b.tp, Utf8.encode p.fold.highWater)] else []
  | .error _ => Event.entries tr = []

/-- An attempt that was refused, and what was read after it. -/
def refusal (p : Plan) (frame : Frame) (reads : List Event) : List Event :=
  .store (c.writeCall subscription p) (.ok false) frame :: .tick .casConflict :: reads

/-- What an attempt to write a plan comes to, with `n` attempts left after
    it. -/
inductive Attempt (n : Nat) (p : Plan) : List Event → Written → Prop
  | failed (e : StoreError) (frame : Frame) :
      Attempt n p [.store (c.writeCall subscription p) (.error e) frame]
        (.error (.failed (.ofStore e)))
  | applied (frame : Frame) :
      Attempt n p [.store (c.writeCall subscription p) (.ok true) frame] (.ok p.fold.outcomes)
  | lost (frame : Frame) {reads : List Event} {e : Error} :
      (c.replan stream subscription positions p.batch).Traces reads (.error e) →
        Attempt n p (c.refusal subscription p frame reads) (.error (.failed e))
  | outdated (frame : Frame) {reads : List Event} {p' : Plan} :
      (c.replan stream subscription positions p.batch).Traces reads (.ok p') →
        p'.fold.advanced = false →
          Attempt n p (c.refusal subscription p frame reads) (.ok p'.fold.outcomes)
  | again (frame : Frame) {reads rest : List Event} {p' : Plan} {w : Written} :
      (c.replan stream subscription positions p.batch).Traces reads (.ok p') →
        p'.fold.advanced = true → (c.write stream subscription positions n p').Traces rest w →
          Attempt n p (c.refusal subscription p frame reads ++ rest) w

variable {c stream subscription positions}

theorem traces_tryWrite {p : Plan} {tr : List Event} {r : Except Error Bool} :
    (c.tryWrite subscription p).Traces tr r ↔ ∃ (answer : Except StoreError Bool) (frame : Frame),
      tr = [.store (c.writeCall subscription p) answer frame] ∧
        r = answer.mapError Error.ofStore :=
  Action.traces_store

theorem attempt_of_traces_write {n : Nat} {p : Plan} {tr : List Event} {w : Written}
    (h : (c.write stream subscription positions (n + 1) p).Traces tr w) :
    c.Attempt stream subscription positions n p tr w := by
  rw [write] at h
  obtain ⟨r, t₁, t₂, h₁, h₂, rfl⟩ := Program.traces_bind.1 h
  obtain ⟨answer, frame, rfl, rfl⟩ := traces_tryWrite.1 h₁
  rcases answer with e | _ | _
  · obtain ⟨rfl, rfl⟩ := Program.traces_done.1 h₂
    exact .failed e frame
  · obtain ⟨u, t₃, t₄, h₃, h₄, rfl⟩ := Program.traces_bind.1 h₂
    obtain rfl := Program.traces_tick.1 h₃
    obtain ⟨r, reads, rest, hreads, h₅, rfl⟩ := Program.traces_bind.1 h₄
    show c.Attempt stream subscription positions n p
      (c.refusal subscription p frame reads ++ rest) w
    rcases r with e | p'
    · obtain ⟨rfl, rfl⟩ := Program.traces_done.1 h₅
      rw [List.append_nil]
      exact .lost frame hreads
    · dsimp only at h₅
      split at h₅
      · next ha => exact .again frame hreads ha h₅
      · next ha =>
        obtain ⟨rfl, rfl⟩ := Program.traces_done.1 h₅
        rw [List.append_nil]
        exact .outdated frame hreads (Bool.eq_false_iff.2 ha)
  · obtain ⟨rfl, rfl⟩ := Program.traces_done.1 h₂
    exact .applied frame

/-! ## The write of one partition -/

theorem Backed.mono {bs bs' : List Batch} (h : bs ⊆ bs') (past : List Event) (e : Event)
    (hb : c.Backed stream subscription positions bs past e) :
    c.Backed stream subscription positions bs' past e := by
  intro ha
  obtain ⟨p, answer, frame, he, hp, hr, hadv⟩ := hb ha
  exact ⟨p, answer, frame, he, h hp, hr, hadv⟩

theorem backed_of_not_attempt {bs : List Batch} {past tr : List Event}
    (h : ∀ e ∈ tr, e.isAttempt = false) :
    Along (c.Backed stream subscription positions bs) past tr :=
  Along.of_forall fun _ e he ha => by rw [h e he] at ha; cases ha

theorem Settles.mono {history history' tr tr' : List Event} {b : Batch} {w : Written}
    (hs : history ⊆ history') (ht : Event.entries tr' = Event.entries tr)
    (h : c.Settles stream subscription positions history tr b w) :
    c.Settles stream subscription positions history' tr' b w := by
  cases w with
  | error e => exact ht.trans h
  | ok outcomes =>
    obtain ⟨p, hr, hb, ho, he⟩ := h
    exact ⟨p, hr.mono hs, hb, ho, ht.trans he⟩

theorem reads_subset_refusal {p : Plan} {past reads : List Event} {frame : Frame} :
    reads ⊆ past ++ c.refusal subscription p frame reads := by
  intro e he
  simp [refusal, he]

theorem refusal_backed {p : Plan} {past reads : List Event} {r : Except Error Plan}
    (hp : p.Ready c stream subscription positions past) (ha : p.fold.advanced = true)
    (frame : Frame) (h : (c.replan stream subscription positions p.batch).Traces reads r) :
    Along (c.Backed stream subscription positions [p.batch]) past
        (c.refusal subscription p frame reads) ∧
      Event.entries (c.refusal subscription p frame reads) = [] := by
  have hread : ∀ e ∈ reads, e.isAttempt = false :=
    (c.readsOnly_replan stream subscription positions p.batch _ _ h).1
  have hquiet : ∀ e ∈ Event.tick .casConflict :: reads, e.isAttempt = false :=
    List.forall_mem_cons.2 ⟨rfl, hread⟩
  refine ⟨⟨fun _ => ?_, backed_of_not_attempt hquiet⟩, ?_⟩
  · exact ⟨p, .ok false, frame, rfl, List.mem_singleton_self _, hp, ha⟩
  · show Event.entries (.tick .casConflict :: reads) = []
    exact Event.entries_eq_nil hquiet

/-- **The write of one partition**, by induction on the attempts that are
    left: a refused attempt leads to a plan that is ready again. -/
theorem write_backed_settles {attempts : Nat} {p : Plan} {past tr : List Event} {w : Written}
    (hp : p.Ready c stream subscription positions past) (ha : p.fold.advanced = true)
    (h : (c.write stream subscription positions attempts p).Traces tr w) :
    Along (c.Backed stream subscription positions [p.batch]) past tr ∧
      c.Settles stream subscription positions (past ++ tr) tr p.batch w := by
  induction attempts generalizing p past tr w with
  | zero =>
    obtain ⟨rfl, rfl⟩ := Program.traces_done.1 h
    exact ⟨trivial, rfl⟩
  | succ n ih =>
    have hback : ∀ (answer : Except StoreError Bool) (frame : Frame),
        c.Backed stream subscription positions [p.batch] past
          (.store (c.writeCall subscription p) answer frame) :=
      fun answer frame _ => ⟨p, answer, frame, rfl, List.mem_singleton_self _, hp, ha⟩
    cases attempt_of_traces_write h with
    | failed e frame => exact ⟨⟨hback _ _, trivial⟩, rfl⟩
    | applied frame =>
      refine ⟨⟨hback _ _, trivial⟩, p, hp.mono (List.subset_append_left _ _), rfl, rfl, ?_⟩
      rw [if_pos ha]; rfl
    | lost frame hreads => exact refusal_backed hp ha frame hreads
    | @outdated frame reads p' hreads ha' =>
      obtain ⟨hround, hnil⟩ := refusal_backed hp ha frame hreads
      obtain ⟨hp', hb⟩ := ready_replan hreads
      refine ⟨hround, p', hp'.mono ?_, hb, rfl, ?_⟩
      · exact reads_subset_refusal
      · rw [hnil, ha']; rfl
    | @again frame reads rest p' _ hreads ha' hrest =>
      -- the new plan is ready after the reads, so the hypothesis takes over
      obtain ⟨hround, hnil⟩ := refusal_backed hp ha frame hreads
      obtain ⟨hp', hb⟩ := ready_replan hreads
      have hready : p'.Ready c stream subscription positions
          (past ++ c.refusal subscription p frame reads) := hp'.mono reads_subset_refusal
      obtain ⟨hback', hsettles⟩ := ih hready ha' hrest
      rw [hb] at hback' hsettles
      rw [List.append_assoc] at hsettles
      refine ⟨Along.append_iff.2 ⟨hround, hback'⟩, hsettles.mono (List.Subset.refl _) ?_⟩
      rw [Event.entries_append, hnil, List.nil_append]

/-! ## The phase -/

/-- The part of a trace that writes one plan, and what became of it. -/
structure Part where
  events : List Event
  batch : Batch
  written : Written

theorem parts_of_traces_writes {n : Nat} {ps : List Plan} {tr : List Event}
    {written : List (Batch × Written)}
    (h : (ps.mapM fun p => do
      return (p.batch, ← c.write stream subscription positions n p)).Traces tr written) :
    ∃ parts : List Part, List.Forall₂ (fun p t => p.batch = t.batch ∧
        (c.write stream subscription positions n p).Traces t.events t.written) ps parts ∧
      tr = parts.flatMap Part.events ∧ written = parts.map fun t => (t.batch, t.written) := by
  induction ps generalizing tr written with
  | nil =>
    rw [List.mapM_nil] at h
    obtain ⟨rfl, rfl⟩ := Program.traces_done.1 h
    exact ⟨[], .nil, rfl, rfl⟩
  | cons p ps ih =>
    rw [List.mapM_cons] at h
    obtain ⟨bw, t₁, t, h₁, h', rfl⟩ := Program.traces_bind.1 h
    obtain ⟨rest, t₂, t₃, h₂, h₃, rfl⟩ := Program.traces_bind.1 h'
    obtain ⟨rfl, rfl⟩ := Program.traces_done.1 h₃
    obtain ⟨w, t₄, t₅, h₄, h₅, rfl⟩ := Program.traces_bind.1 h₁
    obtain ⟨rfl, rfl⟩ := Program.traces_done.1 h₅
    obtain ⟨parts, hparts, rfl, rfl⟩ := ih h₂
    refine ⟨⟨t₄, p.batch, w⟩ :: parts, .cons ⟨rfl, h₄⟩ hparts, ?_, rfl⟩
    simp

theorem parts_backed_settle {n : Nat} {ps : List Plan} {parts : List Part} {past : List Event}
    (h : List.Forall₂ (fun p t => p.batch = t.batch ∧
      (c.write stream subscription positions n p).Traces t.events t.written) ps parts)
    (hp : ∀ p ∈ ps, p.Ready c stream subscription positions past ∧ p.fold.advanced = true) :
    Along (c.Backed stream subscription positions (ps.map Plan.batch)) past
        (parts.flatMap Part.events) ∧
      ∀ t ∈ parts, c.Settles stream subscription positions (past ++ parts.flatMap Part.events)
        t.events t.batch t.written := by
  induction h generalizing past with
  | nil => exact ⟨trivial, by simp⟩
  | @cons p t ps parts hpt _ ih =>
    obtain ⟨hb, hwrite⟩ := hpt
    obtain ⟨⟨hready, ha⟩, hps⟩ := List.forall_mem_cons.1 hp
    obtain ⟨hback, hsettles⟩ := write_backed_settles hready ha hwrite
    -- the other plans are ready after this part as well
    have hps' : ∀ p ∈ ps, p.Ready c stream subscription positions (past ++ t.events) ∧
        p.fold.advanced = true :=
      fun p hm => ⟨(hps p hm).1.mono (List.subset_append_left _ _), (hps p hm).2⟩
    obtain ⟨hbacks, hparts⟩ := ih hps'
    rw [List.flatMap_cons]
    refine ⟨Along.append_iff.2
      ⟨hback.imp (Backed.mono (by simp)), hbacks.imp (Backed.mono (by simp))⟩, ?_⟩
    rw [← List.append_assoc]
    rw [hb] at hsettles
    exact List.forall_mem_cons.2 ⟨hsettles.mono (List.subset_append_left _ _) rfl, hparts⟩

/-- **The phase of writes**: each compare-and-set is backed, and the trace has
    a part for each plan that advanced, which tells what became of it. -/
theorem writeAll_backed_settles {plans : List Plan} {past tr : List Event}
    {written : List (Batch × Written)}
    (hp : ∀ p ∈ plans, p.Ready c stream subscription positions past)
    (h : (c.writeAll stream subscription positions plans).Traces tr written) :
    Along (c.Backed stream subscription positions (plans.map Plan.batch)) past tr ∧
      ∃ parts : List Part, parts.map Part.batch = (plans.filter (·.fold.advanced)).map Plan.batch ∧
        tr = parts.flatMap Part.events ∧ written = parts.map (fun t => (t.batch, t.written)) ∧
          ∀ t ∈ parts,
            c.Settles stream subscription positions (past ++ tr) t.events t.batch t.written := by
  obtain ⟨parts, hparts, rfl, rfl⟩ := parts_of_traces_writes h
  obtain ⟨hback, hsettles⟩ := parts_backed_settle hparts fun p hm =>
    ⟨hp p (List.mem_filter.1 hm).1, (List.mem_filter.1 hm).2⟩
  exact ⟨hback.imp (Backed.mono (List.map_subset _ List.filter_sublist.subset)), parts,
    (map_eq_of_forall₂ hparts fun _ _ h => h.1).symm, rfl, rfl, hsettles⟩

end CursorCommit.Coordinator

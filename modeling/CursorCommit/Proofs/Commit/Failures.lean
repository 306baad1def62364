/-
  Which partitions a failed commit names.

  When writes fail because others act, as their attempts are used up or their
  partitions are lost, the error of the commit lists partitions of one kind
  only: the lost ones, if there are any.  So it names every partition whose
  write failed iff all of them failed alike (`forall_named_iff`); otherwise it
  does not tell of those whose attempts are used up.

  `writePhase` is what the writes of a commit come to in a run;
  `commit_names_failures` says what each of its entries means in the trace, and
  whom the error names.
-/
import CursorCommit.Proofs.Commit.Losses

namespace CursorCommit

/-- The partitions that a failure names as not written. -/
def Error.named : Error → List TopicPartition
  | .ownership _ tps _ | .conflict tps _ => tps
  | .resolution _ | .storeUnavailable .. | .writeFailed .. | .invalidCursor _ | .invalidRequest _
  | .invalidState _ => []

namespace Coordinator

/-! ## Whom the error of several failures names -/

section
variable {failed : List (TopicPartition × WriteFailure)} {stream : String}
  {done : List TopicPartition}

/-- Failures over contention are told as losses, or as conflicts if there are
    none. -/
theorem named_failure (h : ∀ f ∈ failed, f.2.isContention = true) :
    (failure stream done failed).named =
      if lost failed = [] then conflicted failed else lost failed := by
  rw [failure, firstError?_eq_none_iff.2 h]
  by_cases hl : lost failed = [] <;> simp [hl, Error.named]

/-- **All failures are named** iff they are of one kind. -/
theorem forall_named_iff (h : ∀ f ∈ failed, f.2.isContention = true)
    (hnd : (failed.map Prod.fst).Nodup) :
    (∀ f ∈ failed, f.1 ∈ (failure stream done failed).named) ↔
      (∀ f ∈ failed, f.2 = .conflict) ∨ ∀ f ∈ failed, f.2.isLoss = true := by
  rw [named_failure h]
  by_cases hl : lost failed = []
  · have hall : ∀ f ∈ failed, f.2 = .conflict := by
      intro f hf
      have hno := lost_eq_nil_iff.1 hl f hf
      have hf := h f hf
      rw [WriteFailure.isContention, hno, Bool.or_false] at hf
      exact of_decide_eq_true hf
    rw [if_pos hl]
    refine iff_of_true (fun f hf => mem_conflicted_iff.2 ?_) (Or.inl hall)
    rw [← hall f hf]
    exact hf
  · rw [if_neg hl]
    constructor
    · intro hnamed
      refine Or.inr fun f hf => ?_
      obtain ⟨f', hf', hloss⟩ := mem_lost_iff.1 (hnamed f hf)
      rw [List.inj_on_of_nodup_map hnd hf hf' rfl]
      exact hloss
    · rintro (hconflict | hloss)
      · refine absurd (lost_eq_nil_iff.2 fun f hf => ?_) hl
        rw [hconflict f hf]
        rfl
      · exact fun f hf => mem_lost_iff.2 ⟨f.2, hf, hloss f hf⟩

theorem failures_sublist (written : List (Batch × Written)) :
    ((failures written).map Prod.fst).Sublist (written.map fun bw => bw.1.tp) := by
  induction written with
  | nil => exact List.Sublist.slnil
  | cons bw written ih =>
    obtain ⟨b, f | outcomes⟩ := bw
    · exact ih.cons_cons b.tp
    · exact ih.cons b.tp

theorem mem_named_of_isLoss (h : ∀ f ∈ failed, f.2.isContention = true)
    {f : TopicPartition × WriteFailure} (hf : f ∈ failed) (hloss : f.2.isLoss = true) :
    f.1 ∈ (failure stream done failed).named := by
  have hm : f.1 ∈ lost failed := mem_lost_iff.2 ⟨f.2, hf, hloss⟩
  rw [named_failure h, if_neg (List.ne_nil_of_mem hm)]
  exact hm

end

/-! ## The writes of a run -/

section
variable {σ : Type} (env : Surroundings σ) (w : World σ) (c : Coordinator)
  (stream subscription : String) (cursors : List Cursor)

/-- What the writes of a commit come to in a run, one by one; there are none if
    it does not get so far. -/
def writePhase : List (Batch × Written) :=
  let before := (c.prepare stream subscription cursors).runIn env w
  match before.value with
  | .ok (positions, plans) =>
    ((c.writeAll stream subscription positions plans).run env before.world).value
  | .error _ => []

variable {env w c stream subscription cursors} {positions : List Position} {plans : List Plan}

/-- **The run of a commit** that gets as far as writing. -/
theorem runIn_commit_of_prepare (hc : cursors ≠ [])
    (h : ((c.prepare stream subscription cursors).runIn env w).value = .ok (positions, plans)) :
    let before := (c.prepare stream subscription cursors).runIn env w
    let during := (c.writeAll stream subscription positions plans).run env before.world
    let run := (c.commit stream subscription cursors).runIn env w
    run.value = results stream cursors plans during.value ∧
      run.trace = before.trace ++ (during.trace ++ (counted run.value).map Event.tick) := by
  intro before during run
  have hrun : run = ⟨results stream cursors plans during.value, before.trace ++ during.trace ++
      (counted (results stream cursors plans during.value)).map Event.tick, during.world⟩ := by
    show (c.commit stream subscription cursors).runIn env w = _
    rw [runIn_commit, commitUncounted_eq hc, Action.runIn_bind_ok env h,
      Action.runIn_bind_ok env (by rw [Action.runIn_ofProgram]), Action.runIn_ofProgram]
    simp [before, during]
  rw [hrun]
  exact ⟨rfl, List.append_assoc _ _ _⟩

theorem writePhase_eq
    (h : ((c.prepare stream subscription cursors).runIn env w).value = .ok (positions, plans)) :
    c.writePhase env w stream subscription cursors =
      ((c.writeAll stream subscription positions plans).run env
        ((c.prepare stream subscription cursors).runIn env w).world).value := by
  simp only [writePhase, h]

theorem writePhase_nil : c.writePhase env w stream subscription [] = [] := by
  cases h : ((c.prepare stream subscription []).runIn env w).value with
  | error e => simp only [writePhase, h]
  | ok q =>
    obtain ⟨positions, plans⟩ := q
    have htold := (Action.linked_run env (c.prepare stream subscription []) w).told
    have htraces := Action.traces_run env (c.prepare stream subscription []) w
    rw [h] at htraces
    obtain ⟨hloc, hplanned, -⟩ := traces_prepare_ok htold htraces
    obtain rfl : positions = [] := List.forall₂_nil_left_iff.1 hloc
    obtain rfl : plans = [] := List.map_eq_nil_iff.1 hplanned
    rw [writePhase_eq h]
    rfl

variable (env w c stream subscription cursors) in
/-- **What the writes of a commit come to**, and what this means in its trace:
    a write is a conflict iff its attempts are used up, and a loss iff its
    assignment was read after an attempt and is not to the stream. -/
theorem writePhase_cases : c.writePhase env w stream subscription cursors = [] ∨
    ∃ positions plans,
      let run := (c.commit stream subscription cursors).runIn env w
      let written := c.writePhase env w stream subscription cursors
      List.Forall₂ env.directory.Locates cursors positions ∧
        run.value = results stream cursors plans written ∧
        (written.map fun bw => bw.1.tp).Nodup ∧
        ∀ b r, (b, r) ∈ written →
          (r = .error .conflict ↔
            c.Exhausted stream subscription positions c.attempts b run.trace) ∧
          (r.isLoss = true ↔ c.Lost stream subscription b.tp run.trace) := by
  by_cases hc : cursors = []
  · subst hc
    exact Or.inl writePhase_nil
  cases h : ((c.prepare stream subscription cursors).runIn env w).value with
  | error e => exact Or.inl (by simp only [writePhase, h])
  | ok q =>
    obtain ⟨positions, plans⟩ := q
    obtain ⟨hvalue, htrace⟩ := runIn_commit_of_prepare hc h
    have htold := (Action.linked_run env (c.prepare stream subscription cursors) w).told
    have hprepare := Action.traces_run env (c.prepare stream subscription cursors) w
    rw [h] at hprepare
    have hwrite := Program.traces_run env (c.writeAll stream subscription positions plans)
      ((c.prepare stream subscription cursors).runIn env w).world
    rw [← writePhase_eq h] at hwrite hvalue
    obtain ⟨hloc, hplanned, -⟩ := traces_prepare_ok htold hprepare
    obtain ⟨parts, hbatches, hwritten, -, hparts⟩ := exists_parts
      (counted ((c.commit stream subscription cursors).runIn env w).value) htold hprepare hwrite
    rw [← htrace] at hparts
    refine Or.inr ⟨positions, plans, hloc, hvalue, ?_, fun b r hm => ?_⟩
    · rw [hwritten, List.map_map]
      exact Course.nodup_tp_parts (Course.sublist_group hplanned hbatches)
    · rw [hwritten] at hm
      obtain ⟨t, ht, he⟩ := List.mem_map.1 hm
      cases he
      exact ⟨(hparts t ht).2.conflict_iff, (hparts t ht).2.isLoss_iff_lost⟩

/-- **Whom a commit names whose writes fail.**  Let the writes of a commit fail
    only over contention, as attempts are used up or partitions are lost.  Then
    its error has the partitions that were written, and names the lost ones;
    and it names all whose write failed iff these are of one kind. -/
theorem commit_names_failures
    (hne : failures (c.writePhase env w stream subscription cursors) ≠ [])
    (h : ∀ f ∈ failures (c.writePhase env w stream subscription cursors),
      f.2.isContention = true) :
    let run := (c.commit stream subscription cursors).runIn env w
    let written := c.writePhase env w stream subscription cursors
    ∃ positions e, List.Forall₂ env.directory.Locates cursors positions ∧
      run.value = .error e ∧
      (∀ b r, (b, r) ∈ written →
        (r = .error .conflict ↔
          c.Exhausted stream subscription positions c.attempts b run.trace) ∧
        (r.isLoss = true ↔ c.Lost stream subscription b.tp run.trace) ∧
        (r.isLoss = true → b.tp ∈ e.named) ∧ (r.tells = true → b.tp ∈ e.committed)) ∧
      ((∀ f ∈ failures written, f.1 ∈ e.named) ↔
        (∀ f ∈ failures written, f.2 = .conflict) ∨
          ∀ f ∈ failures written, f.2.isLoss = true) := by
  intro run written
  rcases writePhase_cases env w c stream subscription cursors with
    hnil | ⟨positions, plans, hloc, hvalue, hnd, hmeaning⟩
  · exact absurd (by rw [hnil]; rfl) hne
  have hvalue : run.value = .error (failure stream (committed written) (failures written)) :=
    hvalue.trans (if_pos hne)
  refine ⟨positions, _, hloc, hvalue, fun b r hm => ?_,
    forall_named_iff h (hnd.sublist (failures_sublist written))⟩
  obtain ⟨hconflict, hloss⟩ := hmeaning b r hm
  refine ⟨hconflict, hloss, fun hl => ?_, fun ht => ?_⟩
  · cases r with
    | ok outcomes => cases hl
    | error f => exact mem_named_of_isLoss h (f := (b.tp, f)) (mem_failures_iff.2 ⟨b, hm, rfl⟩) hl
  · rw [committed_failure, committed_eq]
    exact List.mem_map.2 ⟨(b, r), List.mem_filter.2 ⟨hm, ht⟩, rfl⟩

/-- What the writes of a commit of cursors by `n` come to while the rules act. -/
def Sample.writes (rules : List Rule) (cursors : List Cursor) : List (Batch × Written) :=
  Sample.coordinator.writePhase (.scripted Sample.directory toString) ⟨Sample.store, 0, rules⟩
    "n" "s" cursors

/-- A partition whose attempts are used up is named, and one that was written is
    told so. -/
theorem used_up_partition_named :
    let cursors := [Sample.cursor "0" "7", Sample.cursor "1" "8"]
    (Sample.run Sample.contended cursors).value = .error (.conflict [⟨"t", "0"⟩] [⟨"t", "1"⟩]) ∧
      failures (Sample.writes Sample.contended cursors) = [(⟨"t", "0"⟩, .conflict)] ∧
        ∃ e, (Sample.run Sample.contended cursors).value = .error e ∧
          ∀ f ∈ failures (Sample.writes Sample.contended cursors), f.1 ∈ e.named := by
  intro cursors
  have hfailed : failures (Sample.writes Sample.contended cursors) = [(⟨"t", "0"⟩, .conflict)] := by
    decide +kernel
  have hne : failures (Sample.writes Sample.contended cursors) ≠ [] := by rw [hfailed]; nofun
  have hconflict : ∀ f ∈ failures (Sample.writes Sample.contended cursors), f.2 = .conflict := by
    rw [hfailed]
    decide
  obtain ⟨positions, e, -, hvalue, -, hnamed⟩ :=
    commit_names_failures hne fun f hf => by rw [hconflict f hf]; rfl
  exact ⟨by decide +kernel, hfailed, e, hvalue, hnamed.2 (Or.inl hconflict)⟩

/-- One partition is contended as before, and another one is taken before its
    write. -/
def Sample.contendedAndTaken : List Rule :=
  Sample.contended ++
    [atWrite "1" 0 (.put (assignmentAt "1") (Utf8.encode (Assignment.encode ⟨"m", .assigned⟩)))]

/-- Where another partition is lost, one whose attempts are used up is not
    named, though it was not written. -/
theorem used_up_partition_dropped :
    let cursors := [Sample.cursor "0" "7", Sample.cursor "1" "8"]
    failures (Sample.writes Sample.contendedAndTaken cursors) =
        [(⟨"t", "0"⟩, .conflict), (⟨"t", "1"⟩, .failed (.ownership "n" [⟨"t", "1"⟩] []))] ∧
      (∀ f ∈ failures (Sample.writes Sample.contendedAndTaken cursors),
        f.2.isContention = true) ∧
      ∃ e, (Sample.run Sample.contendedAndTaken cursors).value = .error e ∧
        e.named = [⟨"t", "1"⟩] ∧ e.committed = [] := by
  intro cursors
  have hvalue : (Sample.run Sample.contendedAndTaken cursors).value =
      .error (.ownership "n" [⟨"t", "1"⟩] []) := by decide +kernel
  exact ⟨by decide +kernel, by decide +kernel, _, hvalue, rfl, rfl⟩

end

end Coordinator

end CursorCommit

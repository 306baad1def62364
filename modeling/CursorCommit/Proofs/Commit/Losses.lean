/-
  Partitions that are lost during their writes.

  A refused write reads the assignment again, and ends as a loss if it is no
  longer to the stream.  This is the only way to a loss: by induction on the
  attempts, a write ends so iff an assignment that is not to the stream was
  read in it (`isLoss_iff_disowns`), and in the trace of the commit iff one was
  read after an attempt on the partition's offset (`Within.isLoss_iff_lost`).
-/
import CursorCommit.Proofs.Commit.Budget
import CursorCommit.Proofs.Commit.Gate

namespace CursorCommit

/-- Whether a write ended with the loss of its partition. -/
def Written.isLoss : Written → Bool
  | .ok _ => false
  | .error failure => failure.isLoss

theorem Error.IsEarly.isOwnership {e : Error} (h : e.IsEarly) : e.isOwnership = false := by
  cases e with
  | ownership => exact h.elim
  | _ => rfl

namespace Coordinator

variable (c : Coordinator) (stream subscription : String) (tp : TopicPartition) (tr : List Event)

/-- The partition's assignment was read and is not to the stream. -/
def Disowns : Prop :=
  ∃ o frame, .store (.get (c.assignmentKey subscription tp)) (.ok o) frame ∈ tr ∧
    ¬ Assigns stream o

/-- The partition's assignment was read after an attempt on its offset, and is
    not to the stream. -/
def Lost : Prop :=
  ∃ past e rest, tr = past ++ e :: rest ∧
    e.isAttemptAt (c.offsetKey subscription tp) = true ∧ c.Disowns stream subscription tp rest

variable {c stream subscription tp tr} {positions : List Position}

/-! ## One write -/

theorem disowns_append_iff {rest : List Event} :
    c.Disowns stream subscription tp (tr ++ rest) ↔
      c.Disowns stream subscription tp tr ∨ c.Disowns stream subscription tp rest := by
  simp only [Disowns, List.mem_append, or_and_right, exists_or]

theorem not_disowns_writeCall {p : Plan} {answer : Except StoreError Bool} {frame : Frame} :
    ¬ c.Disowns stream subscription tp [.store (c.writeCall subscription p) answer frame] := by
  rintro ⟨o, frame', hm, -⟩
  cases List.mem_singleton.1 hm

theorem disowns_refusal_iff {p : Plan} {frame : Frame} :
    c.Disowns stream subscription tp (c.refusal subscription p frame tr) ↔
      c.Disowns stream subscription tp tr := by
  refine exists_congr fun o => exists_congr fun frame' => and_congr_left fun _ => ?_
  simp [refusal, writeCall]

/-- **Planning again fails over ownership** iff the assignment that it reads is
    not to the stream. -/
theorem isOwnership_iff_disowns {b : Batch} {r : Except Error Plan}
    (h : (c.replan stream subscription positions b).Traces tr r) :
    (∃ e, r = .error e ∧ e.isOwnership = true) ↔ c.Disowns stream subscription b.tp tr := by
  rcases Action.traces_bind.1 h with ⟨e, h₁, rfl⟩ | ⟨seen, t₁, t₂, h₁, h₂, rfl⟩
  · -- the assignment could not be read
    have hearly := (c.confined_sight subscription b.tp _ _ h₁).2 e rfl
    obtain ⟨answer, frame, rfl, he⟩ := traces_sight h₁
    refine iff_of_false ?_ ?_
    · rintro ⟨e', he', hown⟩
      cases he'
      rw [hearly.isOwnership] at hown
      cases hown
    · rintro ⟨o, frame', hm, -⟩
      cases List.mem_singleton.1 hm
      cases he
  · obtain ⟨o, frame, rfl, rfl⟩ := traces_sight_ok h₁
    split at h₂
    · next howned =>
      have hassigns := Sighting.isOwnedBy_ofRecord?_iff.1 howned
      have hearly := (c.confined_plan subscription positions b _ _ _ h₂).2
      obtain ⟨answer, frame', rfl, -⟩ := traces_plan h₂
      refine iff_of_false ?_ ?_
      · rintro ⟨e, rfl, hown⟩
        rw [(hearly e rfl).isOwnership] at hown
        cases hown
      · rintro ⟨o', f, hm, hno⟩
        rcases List.mem_cons.1 hm with he | hm
        · cases he
          exact hno hassigns
        · injection List.mem_singleton.1 hm with hcall
          exact c.assignmentKey_ne_offsetKey subscription b.tp (StoreCall.get.inj hcall)
    · next hno =>
      obtain ⟨rfl, rfl⟩ := Action.traces_fail.1 h₂
      refine iff_of_true ⟨_, rfl, rfl⟩ ⟨o, frame, List.mem_cons_self, fun hassigns => hno ?_⟩
      exact Sighting.isOwnedBy_ofRecord?_iff.2 hassigns

theorem not_disowns_of_replan {b : Batch} {p : Plan}
    (h : (c.replan stream subscription positions b).Traces tr (.ok p)) :
    ¬ c.Disowns stream subscription b.tp tr := by
  rw [← isOwnership_iff_disowns h]
  rintro ⟨e, he, -⟩
  cases he

/-- **A write ends as a loss** iff an assignment that is not to the stream was
    read in it. -/
theorem isLoss_iff_disowns {n : Nat} {p : Plan} {w : Written}
    (h : (c.write stream subscription positions n p).Traces tr w) :
    w.isLoss = true ↔ c.Disowns stream subscription p.batch.tp tr := by
  induction n generalizing p tr w with
  | zero =>
    obtain ⟨rfl, rfl⟩ := Program.traces_done.1 h
    simp [Written.isLoss, WriteFailure.isLoss, Disowns]
  | succ n ih =>
    cases attempt_of_traces_write h with
    | failed e frame =>
      have hearly : (Error.ofStore e).isOwnership = false := (Error.isEarly_ofStore e).isOwnership
      exact iff_of_false (by simp [Written.isLoss, WriteFailure.isLoss, hearly])
        not_disowns_writeCall
    | applied frame => exact iff_of_false Bool.false_ne_true not_disowns_writeCall
    | @lost frame reads e hreads =>
      rw [disowns_refusal_iff, ← isOwnership_iff_disowns hreads]
      simp [Written.isLoss, WriteFailure.isLoss]
    | outdated frame hreads =>
      rw [disowns_refusal_iff]
      exact iff_of_false Bool.false_ne_true (not_disowns_of_replan hreads)
    | @again frame reads rest p' w hreads _ hrest =>
      -- what was read so far is to the stream, so the next attempts decide
      rw [disowns_append_iff, disowns_refusal_iff, or_iff_right (not_disowns_of_replan hreads),
        ih hrest, (ready_replan hreads).2]

theorem exists_attempt_of_traces_write {n : Nat} {p : Plan} {w : Written}
    (h : (c.write stream subscription positions n p).Traces tr w) (hne : tr ≠ []) :
    ∃ answer frame rest, tr = .store (c.writeCall subscription p) answer frame :: rest := by
  cases n with
  | zero => exact absurd (Program.traces_done.1 h).1 hne
  | succ n =>
    cases round_of_traces_write h with
    | last => exact ⟨_, _, _, rfl⟩
    | next => exact ⟨_, _, _, rfl⟩

/-! ## The trace of a commit -/

/-- **A partition is lost** iff its assignment was read after an attempt on its
    offset, and is not to the stream. -/
theorem Within.isLoss_iff_lost {t : Part} (h : c.Within stream subscription positions tr t) :
    t.written.isLoss = true ↔ c.Lost stream subscription t.batch.tp tr := by
  obtain ⟨p, since, hb, -, hw⟩ := h.writes
  obtain ⟨past, rest, rfl, hpast, hrest⟩ := h.apart
  rw [isLoss_iff_disowns hw, hb]
  constructor
  · rintro ⟨o, frame, hm, hno⟩
    obtain ⟨answer, frame', reads, hevents⟩ :=
      exists_attempt_of_traces_write hw (List.ne_nil_of_mem hm)
    refine ⟨past, .store (c.writeCall subscription p) answer frame', reads ++ rest, ?_, ?_, ?_⟩
    · rw [hevents, List.cons_append]
    · rw [← hb]
      exact isAttemptAt_writeCall p answer frame'
    · rw [hevents] at hm
      have hm : _ ∈ reads := (List.mem_cons.1 hm).resolve_left nofun
      exact ⟨o, frame, List.mem_append_left _ hm, hno⟩
  · rintro ⟨before, e, after, htr, he, o, frame, hm, hno⟩
    obtain ⟨before', -, hmiddle⟩ := split_of_left hpast he htr
    obtain ⟨after', hevents, rfl⟩ := split_of_right (fun e he => (hrest e he).attempts) he hmiddle
    refine ⟨o, frame, ?_, hno⟩
    rw [hevents]
    rcases List.mem_append.1 hm with hm | hm
    · simp [hm]
    · exact absurd rfl ((hrest _ hm).reads _ _ _ (Or.inr rfl))

end Coordinator

end CursorCommit

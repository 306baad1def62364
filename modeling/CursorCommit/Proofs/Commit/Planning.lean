/-
  What a plan rests on.

  A plan is ready after some events if its offset and its assignment are
  among what these events read, the assignment gives the partition to the
  stream, and the plan folds the offsets of its batch against that offset.

  * `validation_of_traces_owned`: the ways that validation can end;
  * `ready_planAll`: after validation and planning all plans are ready, one
    for each batch;
  * `ready_replan`: so is the plan that is made after a refused write.
-/
import CursorCommit.Proofs.Commit.Reading
import CursorCommit.Proofs.Offset.Order

namespace CursorCommit

/-- What a plan rests on was read in the past. -/
structure Plan.Ready (c : Coordinator) (stream subscription : String) (positions : List Position)
    (past : List Event) (p : Plan) : Prop where
  read : ∃ record frame,
    .store (.get (c.offsetKey subscription p.batch.tp)) (.ok (some record)) frame ∈ past ∧
      StoredOffset.ofRecord record = .ok p.current
  folded : foldPartition (c.order.comparator p.batch.tp.topic) p.batch.tp p.current
    (p.batch.offsets positions) = .ok p.fold
  seen : ∃ o frame, .store (.get (c.assignmentKey subscription p.batch.tp)) (.ok o) frame ∈ past ∧
    Sighting.ofRecord? o = p.seen
  owned : p.seen.isOwnedBy stream = true

theorem Plan.Ready.mono {c : Coordinator} {stream subscription : String}
    {positions : List Position} {past past' : List Event} {p : Plan}
    (h : p.Ready c stream subscription positions past) (hs : past ⊆ past') :
    p.Ready c stream subscription positions past' := by
  obtain ⟨⟨record, frame, hr, hrec⟩, hf, ⟨o, frame', hr', ho⟩, how⟩ := h
  exact ⟨⟨record, frame, hs hr, hrec⟩, hf, ⟨o, frame', hs hr', ho⟩, how⟩

theorem foldPartition_eq_ok_iff {c : Comparator} {tp : TopicPartition} {current : StoredOffset}
    {offsets : List String} {fold : Fold} :
    foldPartition c tp current offsets = .ok fold ↔
      c.reaches current.offset current.offset = true ∧
        Fold.ofOffsets c current.offset offsets = .ok fold := by
  rw [← Comparator.validate_eq_ok_iff]
  unfold foldPartition
  split
  · next hv => simp [hv]
  · next hv => cases Fold.ofOffsets c current.offset offsets <;> simp [hv]

theorem foldPartition_eq_ok {c : Comparator} {tp : TopicPartition} {current : StoredOffset}
    {offsets : List String} {fold : Fold} (h : foldPartition c tp current offsets = .ok fold) :
    Fold.ofOffsets c current.offset offsets = .ok fold :=
  (foldPartition_eq_ok_iff.1 h).2

theorem StoredOffset.ofRecord_eq_ok {record : Record} {current : StoredOffset}
    (h : ofRecord record = .ok current) :
    record.text = .ok current.offset ∧ record.version = current.version := by
  unfold ofRecord at h
  split at h
  · next ht => cases h; exact ⟨ht, rfl⟩
  · cases h

/-- **What a sighting shows**: an owned partition has an assignment to the
    stream, at the revision that was seen. -/
theorem Sighting.of_isOwnedBy {o : Option Record} {stream : String}
    (h : (ofRecord? o).isOwnedBy stream = true) :
    ∃ record text, o = some record ∧ record.text = .ok text ∧
      Assignment.parse text = .ok ⟨stream, .assigned⟩ ∧
      (ofRecord? o).revision = record.revision := by
  cases o with
  | none => cases h
  | some record =>
    cases ht : record.text with
    | error e => simp [ofRecord?, isOwnedBy, ht] at h
    | ok text =>
      cases ha : Assignment.parse text with
      | error e => simp [ofRecord?, isOwnedBy, ht, ha, Except.toOption] at h
      | ok a =>
        simp only [ofRecord?, isOwnedBy, ht, ha, Except.toOption, Option.any_some,
          Assignment.isOwnedBy, Bool.and_eq_true, beq_iff_eq] at h
        obtain ⟨rfl, hst⟩ := h
        exact ⟨record, text, rfl, ht, by rw [← hst]; exact ha, rfl⟩

namespace Coordinator

variable {c : Coordinator} {stream subscription : String} {positions : List Position}

theorem traces_get_ok {key : String} {tr : List Event} {o : Option Record} :
    (Action.store (.get key)).Traces tr (.ok o) ↔
      ∃ frame, tr = [.store (.get key) (.ok o) frame] := by
  rw [Action.traces_store]
  constructor
  · rintro ⟨answer, frame, rfl, h⟩
    cases answer <;> cases h
    exact ⟨frame, rfl⟩
  · rintro ⟨frame, rfl⟩
    exact ⟨.ok o, frame, rfl, rfl⟩

theorem traces_sight_ok {tp : TopicPartition} {tr : List Event} {seen : Sighting}
    (h : (c.sight subscription tp).Traces tr (.ok seen)) :
    ∃ o frame, tr = [.store (.get (c.assignmentKey subscription tp)) (.ok o) frame] ∧
      Sighting.ofRecord? o = seen := by
  obtain ⟨o, t₁, t₂, h₁, h₂, rfl⟩ := Action.traces_bind_ok.1 h
  obtain ⟨frame, rfl⟩ := traces_get_ok.1 h₁
  obtain ⟨rfl, h₂⟩ := Action.traces_pure.1 h₂
  cases h₂
  exact ⟨o, frame, rfl, rfl⟩

theorem traces_currentOffset_ok {tp : TopicPartition} {tr : List Event} {current : StoredOffset}
    (h : (c.currentOffset subscription tp).Traces tr (.ok current)) :
    ∃ record frame,
      tr = [.store (.get (c.offsetKey subscription tp)) (.ok (some record)) frame] ∧
        StoredOffset.ofRecord record = .ok current := by
  obtain ⟨o, t₁, t₂, h₁, h₂, rfl⟩ := Action.traces_bind_ok.1 h
  obtain ⟨o', t₃, t₄, h₃, h₄, rfl⟩ := Action.traces_bind_ok.1 h₁
  obtain ⟨frame, rfl⟩ := traces_get_ok.1 h₃
  cases o' with
  | none =>
    obtain ⟨rfl, h₄⟩ := Action.traces_pure.1 h₄
    cases h₄
    cases (Action.traces_fail.1 h₂).2
  | some record =>
    replace h₄ : (some <$> Action.of (StoredOffset.ofRecord record)).Traces t₄ (.ok o) := h₄
    rw [← bind_pure_comp] at h₄
    obtain ⟨found, t₅, t₆, h₅, h₆, rfl⟩ := Action.traces_bind_ok.1 h₄
    obtain ⟨rfl, hrec⟩ := Action.traces_of.1 h₅
    obtain ⟨rfl, h₆⟩ := Action.traces_pure.1 h₆
    cases h₆
    obtain ⟨rfl, h₂⟩ := Action.traces_pure.1 h₂
    cases h₂
    exact ⟨record, frame, rfl, hrec.symm⟩

theorem traces_plan_ok {b : Batch} {seen : Sighting} {tr : List Event} {p : Plan}
    (h : (c.plan subscription positions b seen).Traces tr (.ok p)) :
    p.batch = b ∧ p.seen = seen ∧
      (∃ record frame,
        .store (.get (c.offsetKey subscription b.tp)) (.ok (some record)) frame ∈ tr ∧
          StoredOffset.ofRecord record = .ok p.current) ∧
      foldPartition (c.order.comparator b.tp.topic) b.tp p.current (b.offsets positions) =
        .ok p.fold := by
  obtain ⟨current, t₁, t₂, h₁, h₂, rfl⟩ := Action.traces_bind_ok.1 h
  obtain ⟨fold, t₃, t₄, h₃, h₄, rfl⟩ := Action.traces_bind_ok.1 h₂
  obtain ⟨record, frame, rfl, hr⟩ := traces_currentOffset_ok h₁
  obtain ⟨rfl, hfold⟩ := Action.traces_of.1 h₃
  obtain ⟨rfl, h₄⟩ := Action.traces_pure.1 h₄
  cases h₄
  exact ⟨rfl, rfl, ⟨record, frame, by simp, hr⟩, hfold.symm⟩

theorem ready_of_plan {past tr : List Event} {b : Batch} {o : Option Record} {frame : Frame}
    {p : Plan} (hs : .store (.get (c.assignmentKey subscription b.tp)) (.ok o) frame ∈ past)
    (ho : (Sighting.ofRecord? o).isOwnedBy stream = true)
    (h : (c.plan subscription positions b (Sighting.ofRecord? o)).Traces tr (.ok p)) :
    p.Ready c stream subscription positions (past ++ tr) ∧ p.batch = b := by
  obtain ⟨rfl, hseen, ⟨record, f, hr, hrec⟩, hf⟩ := traces_plan_ok h
  exact ⟨⟨⟨record, f, List.mem_append_right _ hr, hrec⟩, hf,
    ⟨o, frame, List.mem_append_left _ hs, hseen.symm⟩, hseen ▸ ho⟩, rfl⟩

/-- **A plan made after a refused write** is ready. -/
theorem ready_replan {b : Batch} {tr : List Event} {p : Plan}
    (h : (c.replan stream subscription positions b).Traces tr (.ok p)) :
    p.Ready c stream subscription positions tr ∧ p.batch = b := by
  obtain ⟨seen, t₁, t₂, h₁, h₂, rfl⟩ := Action.traces_bind_ok.1 h
  obtain ⟨o, frame, rfl, rfl⟩ := traces_sight_ok h₁
  split at h₂
  · next ho => exact ready_of_plan (List.mem_singleton_self _) ho h₂
  · cases (Action.traces_fail.1 h₂).2

/-! ## Validation -/

variable (c stream subscription) in
/-- What the validation of batches comes to. -/
inductive Validation (batches : List Batch) : List Event → Except Error (List Sighting) → Prop
  | failed {tr : List Event} {e : Error} : e.IsEarly → Validation batches tr (.error e)
  | absent (frame : Frame) :
      Validation batches [.store (.get (c.sessionKey subscription stream)) (.ok none) frame]
        (.error (.ownership stream (batches.map Batch.tp) []))
  | disowned (record : Record) (frame : Frame) {t : List Event} {seen : List Sighting} :
      (batches.mapM fun b => c.sight subscription b.tp).Traces t (.ok seen) →
        Validation batches
          (.store (.get (c.sessionKey subscription stream)) (.ok (some record)) frame :: t)
          (.error (.ownership stream (unowned stream batches seen) []))
  | owned (record : Record) (frame : Frame) {t : List Event} {seen : List Sighting} :
      (batches.mapM fun b => c.sight subscription b.tp).Traces t (.ok seen) →
        unowned stream batches seen = [] →
          Validation batches
            (.store (.get (c.sessionKey subscription stream)) (.ok (some record)) frame :: t)
            (.ok seen)

theorem traces_hasSession_ok {tr : List Event} {live : Bool}
    (h : (c.hasSession subscription stream).Traces tr (.ok live)) :
    ∃ o frame, tr = [.store (.get (c.sessionKey subscription stream)) (.ok o) frame] ∧
      live = o.isSome := by
  obtain ⟨o, t₁, t₂, h₁, h₂, rfl⟩ := Action.traces_bind_ok.1 h
  obtain ⟨frame, rfl⟩ := traces_get_ok.1 h₁
  obtain ⟨rfl, h₂⟩ := Action.traces_pure.1 h₂
  cases h₂
  exact ⟨o, frame, rfl, rfl⟩

theorem validation_of_traces_owned {batches : List Batch} {tr : List Event}
    {r : Except Error (List Sighting)}
    (h : (c.owned stream subscription batches).Traces tr r) :
    c.Validation stream subscription batches tr r := by
  unfold owned at h
  rcases Action.traces_bind.1 h with ⟨e, h₁, rfl⟩ | ⟨live, t₁, t₂, h₁, h₂, rfl⟩
  · exact .failed ((c.confined_hasSession stream subscription _ _ h₁).2 e rfl)
  · obtain ⟨o, frame, rfl, rfl⟩ := traces_hasSession_ok h₁
    cases o with
    | none =>
      obtain ⟨rfl, rfl⟩ := Action.traces_fail.1 h₂
      exact .absent frame
    | some record =>
      rcases Action.traces_bind.1 h₂ with ⟨e, h₃, rfl⟩ | ⟨seen, t₃, t₄, h₃, h₄, rfl⟩
      · have hsights := Action.confined_mapM (fun b : Batch => c.confined_sight subscription b.tp)
        exact .failed ((hsights batches _ _ h₃).2 e rfl)
      · split at h₄
        · next hu =>
          obtain ⟨rfl, rfl⟩ := Action.traces_pure.1 h₄
          rw [List.append_nil]
          exact .owned record frame h₃ hu
        · obtain ⟨rfl, rfl⟩ := Action.traces_fail.1 h₄
          rw [List.append_nil]
          exact .disowned record frame h₃

theorem traces_sights_ok {batches : List Batch} {t : List Event} {seen : List Sighting}
    (h : (batches.mapM fun b => c.sight subscription b.tp).Traces t (.ok seen)) :
    List.Forall₂ (fun b s => ∃ o frame,
      .store (.get (c.assignmentKey subscription b.tp)) (.ok o) frame ∈ t ∧
        Sighting.ofRecord? o = s) batches seen := by
  refine (Action.traces_mapM_ok h).imp ?_
  rintro b s ⟨t', ht, hs⟩
  obtain ⟨o, frame, rfl, ho⟩ := traces_sight_ok hs
  exact ⟨o, frame, ht (List.mem_singleton_self _), ho⟩

theorem unowned_eq_nil_iff {batches : List Batch} {seen : List Sighting} :
    unowned stream batches seen = [] ↔ ∀ q ∈ batches.zip seen, q.2.isOwnedBy stream = true := by
  simp [unowned, List.filter_eq_nil_iff]

/-- What validation finds out: each partition is seen, and the stream owns
    it. -/
theorem traces_owned_ok {batches : List Batch} {tr : List Event} {seen : List Sighting}
    (h : (c.owned stream subscription batches).Traces tr (.ok seen)) :
    List.Forall₂ (fun b s => s.isOwnedBy stream = true ∧ ∃ o frame,
      .store (.get (c.assignmentKey subscription b.tp)) (.ok o) frame ∈ tr ∧
        Sighting.ofRecord? o = s) batches seen := by
  cases validation_of_traces_owned h with
  | owned record frame hsights hu =>
    have hf := traces_sights_ok hsights
    refine List.forall₂_iff_zip.2 ⟨hf.length_eq, fun {b s} hbs => ?_⟩
    obtain ⟨o, f, hread, ho⟩ := (List.forall₂_iff_zip.1 hf).2 hbs
    exact ⟨unowned_eq_nil_iff.1 hu _ hbs, o, f, List.mem_cons_of_mem _ hread, ho⟩

/-! ## Planning -/

/-- **After validation and planning** there is a ready plan for each batch. -/
theorem ready_planAll {batches : List Batch} {t₁ t₂ : List Event} {seen : List Sighting}
    {plans : List Plan} (h₁ : (c.owned stream subscription batches).Traces t₁ (.ok seen))
    (h₂ : (c.planAll subscription positions batches seen).Traces t₂ (.ok plans)) :
    plans.map Plan.batch = batches ∧
      ∀ p ∈ plans, p.Ready c stream subscription positions (t₁ ++ t₂) := by
  have hs := traces_owned_ok h₁
  have hp := Action.traces_mapM_ok h₂
  have hr : List.Forall₂ (fun bs p => p.batch = bs.1 ∧
      p.Ready c stream subscription positions (t₁ ++ t₂)) (batches.zip seen) plans := by
    refine List.forall₂_iff_zip.2 ⟨hp.length_eq, fun {bs p} hbp => ?_⟩
    obtain ⟨b, s⟩ := bs
    obtain ⟨ho, o, frame, hm, rfl⟩ := (List.forall₂_iff_zip.1 hs).2 (List.of_mem_zip hbp).1
    obtain ⟨t, ht, hplan⟩ := (List.forall₂_iff_zip.1 hp).2 hbp
    obtain ⟨hready, hb⟩ := ready_of_plan hm ho hplan
    exact ⟨hb, hready.mono (List.append_subset.2
      ⟨List.subset_append_left _ _, List.Subset.trans ht (List.subset_append_right _ _)⟩)⟩
  constructor
  · have hb : (batches.zip seen).map Prod.fst = plans.map Plan.batch :=
      map_eq_of_forall₂ hr fun _ _ h => h.1.symm
    rw [List.map_fst_zip hs.length_eq.le] at hb
    exact hb.symm
  · intro p hp
    obtain ⟨bs, -, -, h⟩ := forall₂_mem_right hr hp
    exact h

end Coordinator

end CursorCommit

/-
  How the result of a commit is put together.

  In the end each batch is that of a plan that did not advance or that of a
  part of the trace (`ended`).  A result has the outcomes of all these in
  their places (`settled_planned`), so it is explained partition by partition
  (`Course.explained_at`).
-/
import CursorCommit.Proofs.Commit.Course
import CursorCommit.Proofs.Offset.Order

namespace CursorCommit

theorem CommitResult.map_zipWith_mk {cursors : List Cursor} {outcomes : List Outcome}
    (h : outcomes.length = cursors.length) :
    (cursors.zipWith mk outcomes).map cursor = cursors ∧
      (cursors.zipWith mk outcomes).map outcome = outcomes := by
  have hzip : cursors.zipWith mk outcomes = (cursors.zip outcomes).map fun q => ⟨q.1, q.2⟩ := by
    rw [List.map_zip_eq_zipWith]; rfl
  rw [hzip, List.map_map, List.map_map]
  exact ⟨List.map_fst_zip h.ge, List.map_snd_zip h.le⟩

theorem pick_of_locates {α ι : Type} {d : Directory} {cursors : List Cursor} {ps : List Position}
    (h : List.Forall₂ d.Locates cursors ps) {xs : List ι} {f : ι → Cursor} (hf : xs.map f = cursors)
    (g : ι → α) (tp : TopicPartition) :
    Batch.pick ⟨tp, Batch.places tp ps⟩ (xs.map g) =
      (xs.filter fun x => d.isIn tp (f x)).map g := by
  have hl : xs.length = ps.length := by rw [← h.length_eq, ← hf, List.length_map]
  rw [Batch.pick_places (by rw [List.length_map, hl])]
  clear hl
  induction h generalizing xs with
  | nil =>
    rw [List.map_eq_nil_iff] at hf
    rw [hf]; rfl
  | @cons cursor p cursors ps hloc _ ih =>
    obtain ⟨x, xs, rfl, rfl, rfl⟩ := List.map_eq_cons_iff.1 hf
    have hin : d.isIn tp (f x) = decide (p.tp = tp) := by
      simp only [Directory.isIn, hloc.tp, Option.some.injEq]
    rw [List.map_cons, List.zip_cons_cons, List.filter_cons, List.filter_cons, hin]
    split
    · rw [List.map_cons, List.map_cons, ih rfl]
    · exact ih rfl

theorem Batch.eq_places {ps : List Position} {b : Batch} (hb : b ∈ group ps) :
    b = ⟨b.tp, places b.tp ps⟩ :=
  congrArg (mk b.tp) (indexes_of_mem_group hb)

theorem offsets_of_locates {d : Directory} {cursors : List Cursor} {ps : List Position}
    (h : List.Forall₂ d.Locates cursors ps) {b : Batch} (hb : b ∈ Batch.group ps) :
    b.offsets ps = d.offsetsIn b.tp cursors := by
  rw [Batch.offsets_eq, Batch.eq_places hb, Directory.map_offset_of_locates h,
    pick_of_locates h (List.map_id cursors)]
  rfl

theorem outcomes_of_locates {d : Directory} {cursors : List Cursor} {ps : List Position}
    (h : List.Forall₂ d.Locates cursors ps) {rs : List CommitResult}
    (hrs : rs.map CommitResult.cursor = cursors) {b : Batch} (hb : b ∈ Batch.group ps) :
    d.outcomesIn b.tp rs = b.pick (rs.map CommitResult.outcome) := by
  rw [Batch.eq_places hb, pick_of_locates h hrs]
  rfl

/-- Whether a write told of a committed offset. -/
def Written.tells : Written → Bool
  | .ok outcomes => outcomes.contains .committed
  | .error _ => false

namespace Coordinator

variable {c : Coordinator} {stream subscription : String} {positions : List Position}

theorem committed_cons (b : Batch) (w : Written) (written : List (Batch × Written)) :
    committed ((b, w) :: written) =
      if w.tells then b.tp :: committed written else committed written := by
  cases w with
  | error failure => rfl
  | ok outcomes =>
    simp only [committed, List.filterMap_cons, Written.tells]
    cases outcomes.contains .committed <;> rfl

theorem committed_eq (written : List (Batch × Written)) :
    committed written = (written.filter fun bw => bw.2.tells).map fun bw => bw.1.tp := by
  induction written with
  | nil => rfl
  | cons bw written ih =>
    rw [committed_cons, ih, List.filter_cons]
    cases bw.2.tells <;> rfl

/-! ## What a part writes -/

theorem Settles.key_of_mem {history tr : List Event} {b : Batch} {w : Written}
    (h : c.Settles stream subscription positions history tr b w) {e : String × List UInt8}
    (he : e ∈ Event.entries tr) : e.1 = c.offsetKey subscription b.tp := by
  cases w with
  | error failure =>
    have h : Event.entries tr = [] := h
    rw [h] at he; cases he
  | ok outcomes =>
    obtain ⟨p, -, -, -, h⟩ := h
    rw [h] at he
    split at he
    · rw [List.mem_singleton.1 he]
    · cases he

/-- **A part writes iff it tells of a committed offset.** -/
theorem Settles.entries_ne_nil_iff {history tr : List Event} {b : Batch} {w : Written}
    (h : c.Settles stream subscription positions history tr b w) :
    Event.entries tr ≠ [] ↔ w.tells = true := by
  cases w with
  | error failure =>
    have h : Event.entries tr = [] := h
    simp [h, Written.tells]
  | ok outcomes =>
    obtain ⟨p, -, -, rfl, h⟩ := h
    rw [h, Written.tells, ← Fold.advanced]
    cases p.fold.advanced <;> simp

namespace Course

variable {d : Directory} {cursors : List Cursor} {tr : List Event}
  {r : Except Error (List CommitResult)} {plans : List Plan} {parts : List Part}

theorem sublist_group (hplanned : plans.map Plan.batch = Batch.group positions)
    (hwritten : parts.map Part.batch = (plans.filter (·.fold.advanced)).map Plan.batch) :
    (parts.map Part.batch).Sublist (Batch.group positions) := by
  rw [hwritten, ← hplanned]
  exact List.filter_sublist.map _

theorem nodup_tp_parts (h : (parts.map Part.batch).Sublist (Batch.group positions)) :
    (parts.map fun t => t.batch.tp).Nodup := by
  have hnd := (h.map Batch.tp).nodup Batch.nodup_group
  rwa [List.map_map] at hnd

variable (h : c.Course stream subscription d cursors tr r positions plans parts)
include h

theorem sublist_parts : (parts.map Part.batch).Sublist (Batch.group positions) :=
  sublist_group h.planned h.written

theorem tp_mem_partitions {t : Part} (ht : t ∈ parts) : t.batch.tp ∈ d.partitions cursors := by
  rw [h.partitions_eq]
  exact List.mem_map_of_mem (h.sublist_parts.subset (List.mem_map_of_mem ht))

theorem nodup_keys : (parts.map fun t => c.offsetKey subscription t.batch.tp).Nodup := by
  have hinj : ∀ tp ∈ parts.map fun t => t.batch.tp, ∀ tp' ∈ parts.map fun t => t.batch.tp,
      c.offsetKey subscription tp = c.offsetKey subscription tp' → tp = tp' := by
    intro tp htp tp' htp'
    obtain ⟨t, ht, rfl⟩ := List.mem_map.1 htp
    obtain ⟨t', ht', rfl⟩ := List.mem_map.1 htp'
    exact offsetKey_inj (h.checked (h.tp_mem_partitions ht)) (h.checked (h.tp_mem_partitions ht'))
  have := (nodup_tp_parts h.sublist_parts).map_on hinj
  rwa [List.map_map] at this

theorem entries_at {t : Part} (ht : t ∈ parts) :
    (Event.entries tr).filter (fun e => e.1 = c.offsetKey subscription t.batch.tp) =
      Event.entries t.events := by
  rw [h.entries]
  exact filter_flatMap_eq (g := Prod.fst) (f := fun t => Event.entries t.events)
    (k := fun t : Part => c.offsetKey subscription t.batch.tp)
    (fun t ht e he => (h.settled t ht).key_of_mem he) h.nodup_keys ht

theorem entries_elsewhere {tp : TopicPartition} (htp : tp ∈ d.partitions cursors)
    (hno : tp ∉ parts.map fun t => t.batch.tp) :
    (Event.entries tr).filter (fun e => e.1 = c.offsetKey subscription tp) = [] := by
  rw [h.entries]
  refine filter_flatMap_eq_nil (g := Prod.fst) (f := fun t => Event.entries t.events)
    (k := fun t : Part => c.offsetKey subscription t.batch.tp)
    (fun t ht e he => (h.settled t ht).key_of_mem he) fun hm => ?_
  obtain ⟨t, ht, he⟩ := List.mem_map.1 hm
  exact hno (List.mem_map.2
    ⟨t, ht, offsetKey_inj (h.checked (h.tp_mem_partitions ht)) (h.checked htp) he⟩)

end Course

/-! ## The end of each batch -/

/-- What becomes of the batches in the end, apart from those whose write
    failed. -/
def ended (plans : List Plan) (parts : List Part) : List (Batch × List Outcome) :=
  ((plans.filter fun p => !p.fold.advanced).map fun p => (p.batch, p.fold.outcomes)) ++
    parts.filterMap fun t => match t.written with
      | .ok outcomes => some (t.batch, outcomes)
      | .error _ => none

/-- The outcomes of a result are those of the batches, in their places. -/
theorem settled_planned (count : Nat) (plans : List Plan) (parts : List Part) :
    settled (parts.map fun t => (t.batch, t.written)) (planned count plans) =
      Batch.recordAll (ended plans parts) (List.replicate count .outdated) := by
  have hplanned : planned count plans = Batch.recordAll
      ((plans.filter fun p => !p.fold.advanced).map fun p => (p.batch, p.fold.outcomes))
      (List.replicate count .outdated) := by
    rw [planned, Batch.recordAll, List.foldl_map]
  have hsettled : ∀ all, settled (parts.map fun t => (t.batch, t.written)) all =
      Batch.recordAll (parts.filterMap fun t => match t.written with
        | .ok outcomes => some (t.batch, outcomes)
        | .error _ => none) all := by
    induction parts with
    | nil => exact fun _ => rfl
    | cons t parts ih =>
      intro all
      rw [List.filterMap_cons]
      cases hw : t.written with
      | error failure => simpa [settled, hw] using ih all
      | ok outcomes => simpa [settled, hw, Batch.recordAll] using ih (t.batch.record outcomes all)
  rw [hsettled, hplanned, ended]
  exact List.foldl_append.symm

theorem ended_sublist (plans : List Plan) (parts : List Part) :
    ((ended plans parts).map Prod.fst).Sublist
      ((plans.filter fun p => !p.fold.advanced).map Plan.batch ++ parts.map Part.batch) := by
  rw [ended, List.map_append, List.map_map]
  refine List.Sublist.append (List.Sublist.refl _) ?_
  induction parts with
  | nil => exact List.Sublist.slnil
  | cons t parts ih =>
    rw [List.filterMap_cons]
    cases t.written with
    | error failure => exact ih.cons _
    | ok outcomes => exact ih.cons_cons _


namespace Course

variable {d : Directory} {cursors : List Cursor} {tr : List Event}
  {r : Except Error (List CommitResult)} {plans : List Plan} {parts : List Part}
  (h : c.Course stream subscription d cursors tr r positions plans parts)
include h

/-- Each batch is that of an idle plan or that of a part, and not of both. -/
theorem perm_group : ((plans.filter fun p => !p.fold.advanced).map Plan.batch ++
    parts.map Part.batch).Perm (Batch.group positions) := by
  rw [h.written, ← h.planned, ← List.map_append]
  exact (List.perm_append_comm.trans (List.filter_append_perm _ _)).map _

theorem nodup_idle_parts : (((plans.filter fun p => !p.fold.advanced).map Plan.batch ++
    parts.map Part.batch).map Batch.tp).Nodup :=
  (h.perm_group.map _).nodup_iff.2 Batch.nodup_group

theorem nodup_ended : ((ended plans parts).map fun e => e.1.tp).Nodup := by
  have := ((ended_sublist plans parts).map Batch.tp).nodup h.nodup_idle_parts
  rwa [List.map_map] at this

theorem entries_of_idle {p : Plan} (hp : p ∈ plans) (ha : p.fold.advanced = false) :
    (Event.entries tr).filter (fun e => e.1 = c.offsetKey subscription p.batch.tp) = [] := by
  refine h.entries_elsewhere ?_ fun hm => ?_
  · rw [h.partitions_eq, ← h.planned]
    exact List.mem_map_of_mem (List.mem_map_of_mem hp)
  · have hnd := h.nodup_idle_parts
    rw [List.map_append, List.nodup_append, List.map_map, List.map_map] at hnd
    have hidle : p ∈ plans.filter fun p => !p.fold.advanced :=
      List.mem_filter.2 ⟨hp, by rw [ha]; rfl⟩
    exact hnd.2.2 _ (List.mem_map_of_mem hidle) _ hm rfl

/-- **What explains the end of a batch**: a plan that was ready, with the
    outcomes of its fold, and where the fold ends written iff it advances. -/
theorem of_mem_ended {e : Batch × List Outcome} (he : e ∈ ended plans parts) :
    e.1 ∈ Batch.group positions ∧ ∃ p : Plan, p.Ready c stream subscription positions tr ∧
      p.batch = e.1 ∧ p.fold.outcomes = e.2 ∧
        (Event.entries tr).filter (fun entry => entry.1 = c.offsetKey subscription e.1.tp) =
          if p.fold.advanced then
            [(c.offsetKey subscription e.1.tp, Utf8.encode p.fold.highWater)] else [] := by
  refine ⟨h.perm_group.subset ((ended_sublist plans parts).subset (List.mem_map_of_mem he)), ?_⟩
  rcases List.mem_append.1 he with he | he
  · obtain ⟨p, hp, rfl⟩ := List.mem_map.1 he
    obtain ⟨hp, hidle⟩ := List.mem_filter.1 hp
    have ha : p.fold.advanced = false := by simpa using hidle
    exact ⟨p, h.ready p hp, rfl, rfl, by rw [ha]; exact h.entries_of_idle hp ha⟩
  · obtain ⟨t, ht, he⟩ := List.mem_filterMap.1 he
    have hsettled := h.settled t ht
    split at he
    · next outcomes hw =>
      cases he
      rw [hw] at hsettled
      obtain ⟨p, hp, hb, ho, hentries⟩ := hsettled
      exact ⟨p, hp, hb, ho.symm, (h.entries_at ht).trans hentries⟩
    · cases he

theorem exists_mem_ended (hok : failures (parts.map fun t => (t.batch, t.written)) = [])
    {b : Batch} (hb : b ∈ Batch.group positions) :
    ∃ outcomes, (b, outcomes) ∈ ended plans parts := by
  rcases List.mem_append.1 (h.perm_group.symm.subset hb) with hm | hm
  · obtain ⟨p, hp, rfl⟩ := List.mem_map.1 hm
    exact ⟨p.fold.outcomes, List.mem_append_left _ (List.mem_map.2 ⟨p, hp, rfl⟩)⟩
  · obtain ⟨t, ht, rfl⟩ := List.mem_map.1 hm
    cases hw : t.written with
    | error failure =>
      have hf := List.filterMap_eq_nil_iff.1 hok (t.batch, t.written) (List.mem_map_of_mem ht)
      simp [hw] at hf
    | ok outcomes =>
      exact ⟨outcomes, List.mem_append_right _ (List.mem_filterMap.2 ⟨t, ht, by rw [hw]⟩)⟩

/-- **What explains a success**: its outcomes in the places of each batch are
    those of a plan that was ready, and where its fold ends was written iff it
    advances. -/
theorem explained {rs : List CommitResult} (hr : r = .ok rs) :
    rs.map CommitResult.cursor = cursors ∧ ∀ b ∈ Batch.group positions, ∃ p : Plan,
      p.Ready c stream subscription positions tr ∧ p.batch = b ∧
        b.pick (rs.map CommitResult.outcome) = p.fold.outcomes ∧
          (Event.entries tr).filter (fun e => e.1 = c.offsetKey subscription b.tp) =
            if p.fold.advanced then
              [(c.offsetKey subscription b.tp, Utf8.encode p.fold.highWater)] else [] := by
  have hresult := h.result
  rw [hr, results, settled_planned] at hresult
  split at hresult
  · cases hresult
  · next hok =>
    rw [ne_eq, not_not] at hok
    cases hresult
    have hl : (Batch.recordAll (ended plans parts)
        (List.replicate cursors.length .outdated)).length = cursors.length := by simp
    obtain ⟨hcursors, houtcomes⟩ := CommitResult.map_zipWith_mk hl
    refine ⟨hcursors, ?_⟩
    intro b hb
    rw [houtcomes]
    obtain ⟨outcomes, hmem⟩ := h.exists_mem_ended hok hb
    obtain ⟨-, p, hp, hpb, ho, hentries⟩ := h.of_mem_ended hmem
    refine ⟨p, hp, hpb, ?_, hentries⟩
    rw [ho]
    -- no two batches share a place, so the order of recording does not matter
    have hlen : (List.replicate cursors.length Outcome.outdated).length = positions.length := by
      rw [List.length_replicate, h.located.length_eq]
    refine Batch.pick_recordAll hlen h.nodup_ended (fun e he => ?_) hmem
    obtain ⟨hg, p', hp', hb', ho', -⟩ := h.of_mem_ended he
    rw [← ho', Fold.length_outcomes (foldPartition_eq_ok hp'.folded), hb', Batch.length_offsets hg]
    exact ⟨hg, rfl⟩

theorem explained_at {rs : List CommitResult} (hr : r = .ok rs) {tp : TopicPartition}
    (htp : tp ∈ d.partitions cursors) : ∃ p : Plan,
      p.Ready c stream subscription positions tr ∧ p.batch.tp = tp ∧
        p.batch.offsets positions = d.offsetsIn tp cursors ∧
          d.outcomesIn tp rs = p.fold.outcomes ∧
            (Event.entries tr).filter (fun e => e.1 = c.offsetKey subscription tp) =
              if p.fold.advanced then
                [(c.offsetKey subscription tp, Utf8.encode p.fold.highWater)] else [] := by
  obtain ⟨hcursors, hexplained⟩ := h.explained hr
  rw [h.partitions_eq] at htp
  obtain ⟨b, hb, rfl⟩ := List.mem_map.1 htp
  obtain ⟨p, hp, rfl, ho, hentries⟩ := hexplained b hb
  exact ⟨p, hp, rfl, offsets_of_locates h.located hb,
    (outcomes_of_locates h.located hcursors hb).trans ho, hentries⟩

end Course

end Coordinator

end CursorCommit

/-
  A request and its batches.

  `Splits ps batches` is all that is asked of the batches of a request: nothing
  of the request is lost, and nothing is there twice.

  * `splits_group`, `Splits.eq_group`: `Batch.group` splits a request so, and
    there is no other way to;
  * `settings`: what recording sets, place by place;
  * `perm_settings`: if it goes over all batches, in whatever order, each place
    of the request is set once;
  * `exists_own_outcome`: and it is set to what became of the position there;
  * `grouping_loses_nothing`: all of this together, and one pass with a table
    does it.
-/
import CursorCommit.Proofs.Batch.Table
import CursorCommit.Proofs.Offset.Order

namespace CursorCommit

namespace Batch

/-! ## The split -/

/-- The batches are for different partitions, in the order in which these first
    appear in the request; each has the places of its own positions and no
    others, in order; and together they have each place of the request once. -/
structure Splits (ps : List Position) (batches : List Batch) : Prop where
  distinct : (batches.map Batch.tp).Nodup
  firstSeen : (batches.map Batch.tp).Pairwise fun tp tp' =>
    (ps.map Position.tp).idxOf tp < (ps.map Position.tp).idxOf tp'
  nonempty : ∀ b ∈ batches, b.indexes ≠ []
  ascending : ∀ b ∈ batches, b.indexes.Pairwise (· < ·)
  own : ∀ b ∈ batches, ∀ i, i ∈ b.indexes ↔ ∃ p, ps[i]? = some p ∧ p.tp = b.tp
  once : (batches.flatMap Batch.indexes).Perm (List.range ps.length)

section
variable {ps : List Position} {batches : List Batch}

theorem indexes_ne_nil {b : Batch} (hb : b ∈ group ps) : b.indexes ≠ [] := by
  have htp : b.tp ∈ ps.map Position.tp := by
    rw [← List.mem_eraseDups, ← map_tp_group]
    exact List.mem_map_of_mem hb
  obtain ⟨p, hp, htp⟩ := List.mem_map.1 htp
  obtain ⟨i, hi⟩ := List.getElem?_of_mem hp
  exact List.ne_nil_of_mem ((mem_indexes_iff hb).2 ⟨p, hi, htp⟩)

theorem nodup_indexes (ps : List Position) : ((group ps).flatMap Batch.indexes).Nodup := by
  rw [group_eq, List.flatMap_map, List.nodup_flatMap]
  refine ⟨fun tp _ => nodup_places tp ps, (nodup_eraseDups _).imp fun hne i hi => ?_⟩
  exact disjoint_places hne hi

theorem perm_indexes (ps : List Position) :
    ((group ps).flatMap Batch.indexes).Perm (List.range ps.length) := by
  refine (List.perm_ext_iff_of_nodup (nodup_indexes ps) List.nodup_range).2 fun i => ?_
  rw [List.mem_flatMap, List.mem_range]
  constructor
  · rintro ⟨b, hb, hi⟩
    exact lt_of_mem_indexes hb hi
  · intro hi
    obtain ⟨b, hb, htp⟩ := exists_mem_group (List.getElem_mem hi)
    exact ⟨b, hb, (mem_indexes_iff hb).2 ⟨ps[i], List.getElem?_eq_getElem hi, htp.symm⟩⟩

/-- **The batches of a request split it.** -/
theorem splits_group (ps : List Position) : Splits ps (group ps) where
  distinct := nodup_group
  firstSeen := by rw [map_tp_group]; exact pairwise_idxOf_eraseDups _
  nonempty _ hb := indexes_ne_nil hb
  ascending b hb := by rw [indexes_of_mem_group hb]; exact pairwise_places _ _
  own _ hb _ := mem_indexes_iff hb
  once := perm_indexes ps

namespace Splits

variable (h : Splits ps batches)
include h

theorem indexes_eq {b : Batch} (hb : b ∈ batches) : b.indexes = places b.tp ps := by
  refine eq_of_pairwise_lt (h.ascending b hb) (pairwise_places b.tp ps) fun i => ?_
  rw [h.own b hb, mem_places_iff]

theorem tp_mem_iff {tp : TopicPartition} :
    tp ∈ batches.map Batch.tp ↔ tp ∈ ps.map Position.tp := by
  constructor
  · intro htp
    obtain ⟨b, hb, rfl⟩ := List.mem_map.1 htp
    obtain ⟨i, hi⟩ := List.exists_mem_of_ne_nil _ (h.nonempty b hb)
    obtain ⟨p, hp, he⟩ := (h.own b hb i).1 hi
    exact he ▸ List.mem_map_of_mem (List.mem_of_getElem? hp)
  · intro htp
    obtain ⟨p, hp, rfl⟩ := List.mem_map.1 htp
    obtain ⟨i, hlt, rfl⟩ := List.getElem_of_mem hp
    obtain ⟨b, hb, hi⟩ := List.mem_flatMap.1 (h.once.mem_iff.2 (List.mem_range.2 hlt))
    obtain ⟨p, hp, he⟩ := (h.own b hb i).1 hi
    rw [List.getElem?_eq_getElem hlt] at hp
    cases hp
    exact he ▸ List.mem_map_of_mem hb

theorem map_tp_eq : batches.map Batch.tp = (ps.map Position.tp).eraseDups := by
  refine eq_of_pairwise_lt h.firstSeen (pairwise_idxOf_eraseDups _) fun tp => ?_
  rw [h.tp_mem_iff, List.mem_eraseDups]

/-- **There is one split of a request**: its batches. -/
theorem eq_group : batches = group ps := by
  have hb : ∀ b ∈ batches, b = ⟨b.tp, places b.tp ps⟩ :=
    fun b hb => congrArg (Batch.mk b.tp) (h.indexes_eq hb)
  calc batches
    _ = batches.map id := (List.map_id _).symm
    _ = batches.map fun b => ⟨b.tp, places b.tp ps⟩ := List.map_congr_left hb
    _ = (batches.map Batch.tp).map fun tp => ⟨tp, places tp ps⟩ := by rw [List.map_map]; rfl
    _ = group ps := by rw [h.map_tp_eq, group_eq]

end Splits

end

/-! ## What recording sets -/

/-- The places that recording sets, each with the outcome that it is set to, one
    after the other. -/
def settings (entries : List (Batch × List Outcome)) : List (Nat × Outcome) :=
  entries.flatMap fun e => e.1.indexes.zip e.2

theorem recordAll_eq_foldl (entries : List (Batch × List Outcome)) (all : List Outcome) :
    recordAll entries all = (settings entries).foldl (fun all s => all.set s.1 s.2) all :=
  List.foldl_flatMap.symm

section
variable {ps : List Position} {entries : List (Batch × List Outcome)}

/-- **Each place is set once**, if all batches are recorded, in any order. -/
theorem perm_settings (horder : (entries.map Prod.fst).Perm (group ps))
    (hl : ∀ e ∈ entries, e.2.length = e.1.indexes.length) :
    ((settings entries).map Prod.fst).Perm (List.range ps.length) := by
  have hfst : (settings entries).map Prod.fst = (entries.map Prod.fst).flatMap Batch.indexes := by
    rw [settings, List.map_flatMap, List.flatMap_map]
    exact List.flatMap_congr fun e he => List.map_fst_zip (Nat.le_of_eq (hl e he).symm)
  rw [hfst]
  exact (horder.flatMap_right _).trans (perm_indexes ps)

/-- **Each place is set to what became of the position there**, in the batch of
    its partition. -/
theorem exists_own_outcome (horder : (entries.map Prod.fst).Perm (group ps))
    (hl : ∀ e ∈ entries, e.2.length = e.1.indexes.length) {all : List Outcome}
    (hall : all.length = ps.length) {i : Nat} {p : Position} (hp : ps[i]? = some p) :
    ∃ e ∈ entries, ∃ (k : Nat) (o : Outcome), e.1.tp = p.tp ∧ e.1.indexes[k]? = some i ∧
      (e.1.offsets ps)[k]? = some p.offset ∧ e.2[k]? = some o ∧
        (recordAll entries all)[i]? = some o := by
  obtain ⟨b, hb, htp⟩ := exists_mem_group (List.mem_of_getElem? hp)
  obtain ⟨e, he, rfl⟩ := List.mem_map.1 (horder.mem_iff.2 hb)
  obtain ⟨k, hk⟩ := List.getElem?_of_mem ((mem_indexes_iff hb).2 ⟨p, hp, htp.symm⟩)
  have hlt : ∀ j ∈ e.1.indexes, j < ps.length := fun _ => lt_of_mem_indexes hb
  have hoffset : (e.1.offsets ps)[k]? = some p.offset := by
    rw [offsets_eq, getElem?_pick (by simpa using hlt) hk, List.getElem?_map, hp]
    rfl
  have houtcome : (recordAll entries all)[i]? = e.2[k]? := by
    have hnd : (entries.map fun e => e.1.tp).Nodup := by
      have := (horder.map Batch.tp).nodup_iff.2 nodup_group
      rwa [List.map_map] at this
    have hmem : ∀ e ∈ entries, e.1 ∈ group ps := fun e he =>
      horder.subset (List.mem_map_of_mem he)
    rw [← pick_recordAll hall hnd (fun e he => ⟨hmem e he, hl e he⟩) he]
    exact (getElem?_pick (by simpa [hall] using hlt) hk).symm
  have hklt : k < e.2.length := by
    rw [hl e he]
    exact (List.getElem?_eq_some_iff.1 hk).1
  refine ⟨e, he, k, e.2[k], htp, hk, hoffset, List.getElem?_eq_getElem hklt, ?_⟩
  rw [houtcome, List.getElem?_eq_getElem hklt]

end

/-! ## Grouping and recording together -/

/-- **Grouping loses nothing and has nothing twice.**  One pass with a table
    collects the batches, and never looks for one that is not there; the batches
    split the request, which can be done in one way only.  So if the outcomes of
    a fold of each batch are recorded, in any order of the batches, then each
    place is set once, and to what the fold made of the position there. -/
theorem grouping_loses_nothing (ps : List Position) :
    (∃ t, tabled ps = some t ∧ t.InStep (group ps)) ∧
    Splits ps (group ps) ∧ (∀ batches, Splits ps batches → batches = group ps) ∧
    ∀ folded : List (Batch × Fold), (folded.map Prod.fst).Perm (group ps) →
      (∀ e ∈ folded, ∃ c start, Fold.ofOffsets c start (e.1.offsets ps) = .ok e.2) →
      let entries := folded.map fun e => (e.1, e.2.outcomes)
      ((settings entries).map Prod.fst).Perm (List.range ps.length) ∧
      ∀ all : List Outcome, all.length = ps.length →
        recordAll entries all = (settings entries).foldl (fun all s => all.set s.1 s.2) all ∧
        (recordAll entries all).length = ps.length ∧
        ∀ i p, ps[i]? = some p → ∃ e ∈ folded, ∃ (k : Nat) (o : Outcome), e.1.tp = p.tp ∧
          e.1.indexes[k]? = some i ∧ (e.1.offsets ps)[k]? = some p.offset ∧
          e.2.outcomes[k]? = some o ∧ (recordAll entries all)[i]? = some o := by
  refine ⟨inStep_tabled ps, splits_group ps, fun _ h => h.eq_group, ?_⟩
  intro folded horder hfolds entries
  have horder' : (entries.map Prod.fst).Perm (group ps) := by
    rwa [List.map_map]
  have hl : ∀ e ∈ entries, e.2.length = e.1.indexes.length := by
    intro e he
    obtain ⟨⟨b, fold⟩, hmem, rfl⟩ := List.mem_map.1 he
    obtain ⟨c, start, hfold⟩ := hfolds _ hmem
    rw [Fold.length_outcomes hfold]
    exact length_offsets (horder.subset (List.mem_map_of_mem hmem))
  refine ⟨perm_settings horder' hl, fun all hall => ⟨recordAll_eq_foldl _ _, ?_, ?_⟩⟩
  · rw [length_recordAll, hall]
  · intro i p hp
    obtain ⟨e, he, k, o, h⟩ := exists_own_outcome horder' hl hall hp
    obtain ⟨e, hmem, rfl⟩ := List.mem_map.1 he
    exact ⟨e, hmem, k, o, h⟩

/-- Positions of three partitions in turn. -/
def Sample.turns : List Position :=
  [⟨"t", "1", "5"⟩, ⟨"t", "0", "3"⟩, ⟨"u", "1", "9"⟩, ⟨"t", "1", "4"⟩, ⟨"u", "1", "11"⟩,
    ⟨"t", "1", "7"⟩]

/-- Their folds, the one that did not advance first. -/
def Sample.turnFolds : List (Batch × Fold) :=
  [(⟨⟨"t", "0"⟩, [1]⟩, ⟨"3", [.outdated]⟩),
    (⟨⟨"u", "1"⟩, [2, 4]⟩, ⟨"9", [.committed, .outdated]⟩),
    (⟨⟨"t", "1"⟩, [0, 3, 5]⟩, ⟨"7", [.committed, .outdated, .committed]⟩)]

/-- Each position gets the outcome of its own, although the batches are recorded
    in another order than the one of the request. -/
theorem turns_recorded :
    let entries := Sample.turnFolds.map fun e => (e.1, e.2.outcomes)
    let all := recordAll entries (List.replicate 6 .outdated)
    (Sample.turnFolds.map Prod.fst).Perm (group Sample.turns) ∧
    (∀ e ∈ Sample.turnFolds, ∃ c start,
      Fold.ofOffsets c start (e.1.offsets Sample.turns) = .ok e.2) ∧
    Sample.turnFolds.map Prod.fst ≠ group Sample.turns ∧
    Splits Sample.turns (group Sample.turns) ∧
    ((settings entries).map Prod.fst).Perm (List.range 6) ∧
    all = [.committed, .outdated, .committed, .outdated, .outdated, .committed] ∧
    ∃ e ∈ Sample.turnFolds, ∃ (k : Nat) (o : Outcome), e.1.tp = ⟨"u", "1"⟩ ∧
      e.1.indexes[k]? = some 4 ∧ (e.1.offsets Sample.turns)[k]? = some "11" ∧
      e.2.outcomes[k]? = some o ∧ all[4]? = some o := by
  have horder : (Sample.turnFolds.map Prod.fst).Perm (group Sample.turns) := by decide +kernel
  have hfolds : ∀ e ∈ Sample.turnFolds, ∃ c start,
      Fold.ofOffsets c start (e.1.offsets Sample.turns) = .ok e.2 := by
    intro e he
    simp only [Sample.turnFolds, List.mem_cons, List.not_mem_nil, or_false] at he
    rcases he with rfl | rfl | rfl
    · exact ⟨.numeric, "3", by decide +kernel⟩
    · exact ⟨.lexical, "10", by decide +kernel⟩
    · exact ⟨.numeric, "4", by decide +kernel⟩
  obtain ⟨-, hsplits, -, hrecord⟩ := grouping_loses_nothing Sample.turns
  obtain ⟨honce, hrecord⟩ := hrecord Sample.turnFolds horder hfolds
  obtain ⟨-, -, hown⟩ := hrecord (List.replicate 6 .outdated) rfl
  exact ⟨horder, hfolds, by decide +kernel, hsplits, honce, by decide +kernel, hown 4 _ rfl⟩

end Batch

end CursorCommit

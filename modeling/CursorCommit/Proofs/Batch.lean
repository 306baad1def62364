/-
  What batches hold, and how outcomes are put back in their places.

  * `group_eq`: the batches of a request are its partitions in the order of
    their first appearance, each with all the places of its positions;
  * `pick_places`: what is in these places of a list as long as the request;
  * `pick_recordAll`: outcomes that are put in the places of several batches
    are found there again, as no two of them share a place.
-/
import CursorCommit.Batch
import CursorCommit.Proofs.Lists

namespace CursorCommit

namespace Batch

/-! ## Places -/

/-- The places of the positions of a partition, in order. -/
def places (tp : TopicPartition) (positions : List Position) : List Nat :=
  (positions.zipIdx.filter fun q => q.1.tp = tp).map Prod.snd

theorem places_concat (tp : TopicPartition) (ps : List Position) (p : Position) :
    places tp (ps ++ [p]) = places tp ps ++ if p.tp = tp then [ps.length] else [] := by
  simp only [places, List.zipIdx_append, List.filter_append, List.map_append, List.zipIdx_singleton,
    List.filter_singleton, Nat.zero_add]
  split <;> simp_all

/-- **The places of a partition** are those of its positions. -/
theorem mem_places_iff {tp : TopicPartition} {ps : List Position} {i : Nat} :
    i ∈ places tp ps ↔ ∃ p, ps[i]? = some p ∧ p.tp = tp := by
  simp only [places, List.mem_map, List.mem_filter, List.mem_zipIdx_iff_getElem?,
    decide_eq_true_eq]
  constructor
  · rintro ⟨⟨p, _⟩, ⟨hp, htp⟩, rfl⟩
    exact ⟨p, hp, htp⟩
  · rintro ⟨p, hp, htp⟩
    exact ⟨(p, i), ⟨hp, htp⟩, rfl⟩

theorem pairwise_places (tp : TopicPartition) (ps : List Position) :
    (places tp ps).Pairwise (· < ·) := by
  have hall : (ps.zipIdx.map Prod.snd).Pairwise (· < ·) := by
    rw [List.zipIdx_map_snd]
    exact List.pairwise_lt_range' 1
  exact hall.sublist (List.filter_sublist.map _)

theorem lt_of_mem_places {tp : TopicPartition} {ps : List Position} {i : Nat}
    (h : i ∈ places tp ps) : i < ps.length := by
  obtain ⟨p, hp, -⟩ := mem_places_iff.1 h
  exact (List.getElem?_eq_some_iff.1 hp).1

theorem nodup_places (tp : TopicPartition) (ps : List Position) : (places tp ps).Nodup :=
  (pairwise_places tp ps).imp Nat.ne_of_lt

theorem disjoint_places {tp tp' : TopicPartition} (h : tp ≠ tp') {ps : List Position} {i : Nat}
    (hi : i ∈ places tp ps) : i ∉ places tp' ps := by
  intro hi'
  obtain ⟨p, hp, rfl⟩ := mem_places_iff.1 hi
  obtain ⟨p', hp', rfl⟩ := mem_places_iff.1 hi'
  rw [hp] at hp'
  cases hp'
  exact h rfl

theorem places_eq_nil {tp : TopicPartition} {ps : List Position} (h : tp ∉ ps.map Position.tp) :
    places tp ps = [] := by
  refine List.eq_nil_iff_forall_not_mem.2 fun i hi => ?_
  obtain ⟨p, hp, rfl⟩ := mem_places_iff.1 hi
  exact h (List.mem_map_of_mem (List.mem_of_getElem? hp))

/-! ## The batches of a request -/

theorem add_map {tp : TopicPartition} {i : Nat} {tps : List TopicPartition}
    {f : TopicPartition → List Nat} (hnd : tps.Nodup) (h : tp ∉ tps → f tp = []) :
    add tp i (tps.map fun t => ⟨t, f t⟩) =
      (if tp ∈ tps then tps else tps ++ [tp]).map
        fun t => ⟨t, f t ++ if tp = t then [i] else []⟩ := by
  induction tps with
  | nil => simp [add, h]
  | cons t tps ih =>
    obtain ⟨ht, hnd⟩ := List.nodup_cons.1 hnd
    by_cases he : t = tp
    · subst he
      simp only [List.map_cons, add, if_true, List.mem_cons, true_or]
      refine congrArg _ (List.map_congr_left ?_)
      intro t' ht'
      have hne : t ≠ t' := fun h => ht (h ▸ ht')
      rw [if_neg hne, List.append_nil]
    · have hne : tp ≠ t := fun h => he h.symm
      have := ih hnd fun hm => h (by simp [hm, hne])
      simp only [List.map_cons, add, if_neg he, this, List.mem_cons, hne, false_or]
      split <;> simp [hne]

theorem group_concat (ps : List Position) (p : Position) :
    group (ps ++ [p]) = add p.tp ps.length (group ps) := by
  simp [group, List.zipIdx_append, List.foldl_append]

/-- **The batches of a request**: one for each partition, with all its
    places. -/
theorem group_eq (ps : List Position) :
    group ps = ((ps.map Position.tp).eraseDups).map fun tp => ⟨tp, places tp ps⟩ := by
  induction ps using List.reverseRecOn with
  | nil => rfl
  | append_singleton ps p ih =>
    rw [group_concat, ih, add_map (nodup_eraseDups _), List.map_append, List.map_singleton,
      eraseDups_concat]
    · simp only [List.mem_eraseDups, places_concat]
    · exact fun h => places_eq_nil fun hm => h (List.mem_eraseDups.2 hm)

theorem map_tp_group (ps : List Position) :
    (group ps).map Batch.tp = (ps.map Position.tp).eraseDups := by
  rw [group_eq, List.map_map]
  exact List.map_id _

theorem indexes_of_mem_group {ps : List Position} {b : Batch} (h : b ∈ group ps) :
    b.indexes = places b.tp ps := by
  rw [group_eq] at h
  obtain ⟨tp, -, rfl⟩ := List.mem_map.1 h
  rfl

theorem nodup_group {ps : List Position} : ((group ps).map Batch.tp).Nodup := by
  rw [map_tp_group]; exact nodup_eraseDups _

theorem exists_mem_group {ps : List Position} {p : Position} (hp : p ∈ ps) :
    ∃ b ∈ group ps, b.tp = p.tp := by
  have htp : p.tp ∈ (group ps).map Batch.tp := by
    rw [map_tp_group, List.mem_eraseDups]
    exact List.mem_map_of_mem hp
  exact List.mem_map.1 htp

/-- **A batch has the places of its own positions** and no others. -/
theorem mem_indexes_iff {ps : List Position} {b : Batch} (hb : b ∈ group ps) {i : Nat} :
    i ∈ b.indexes ↔ ∃ p, ps[i]? = some p ∧ p.tp = b.tp := by
  rw [indexes_of_mem_group hb, mem_places_iff]

theorem lt_of_mem_indexes {ps : List Position} {b : Batch} (hb : b ∈ group ps) {i : Nat}
    (hi : i ∈ b.indexes) : i < ps.length :=
  lt_of_mem_places (indexes_of_mem_group hb ▸ hi)

/-! ## Elements in the places of a batch -/

section
variable {α : Type}

/-- The elements of a list in the places of the batch. -/
def pick (b : Batch) (xs : List α) : List α :=
  b.indexes.filterMap fun i => xs[i]?

theorem offsets_eq (b : Batch) (ps : List Position) :
    b.offsets ps = b.pick (ps.map Position.offset) := by
  simp only [offsets, pick, List.getElem?_map]

/-- **What is in the places of a partition**: the elements that belong to its
    positions. -/
theorem pick_places {tp : TopicPartition} {ps : List Position} {xs : List α}
    (h : xs.length = ps.length) :
    pick ⟨tp, places tp ps⟩ xs = ((ps.zip xs).filter fun q => q.1.tp = tp).map Prod.snd := by
  induction ps using List.reverseRecOn generalizing xs with
  | nil => rfl
  | append_singleton ps p ih =>
    obtain rfl | ⟨xs, x, rfl⟩ := List.eq_nil_or_concat xs
    · simp at h
    · simp only [List.concat_eq_append, List.length_append, List.length_singleton,
        Nat.add_right_cancel_iff] at h ⊢
      have hold : (places tp ps).filterMap (fun i => (xs ++ [x])[i]?) =
          (places tp ps).filterMap (fun i => xs[i]?) :=
        List.filterMap_congr fun i hi =>
          List.getElem?_append_left (by rw [h]; exact lt_of_mem_places hi)
      rw [pick, places_concat, List.filterMap_append, hold, List.zip_append h.symm,
        List.filter_append, List.map_append]
      refine congrArg₂ _ (ih h) ?_
      by_cases hp : p.tp = tp <;> simp [hp, ← h]

/-- The element at one of the places of a batch is where the place is among
    these. -/
theorem getElem?_pick {b : Batch} {xs : List α} (h : ∀ i ∈ b.indexes, i < xs.length) {k i : Nat}
    (hk : b.indexes[k]? = some i) : (b.pick xs)[k]? = xs[i]? := by
  obtain ⟨tp, indexes⟩ := b
  induction indexes generalizing k with
  | nil => cases hk
  | cons j indexes ih =>
    obtain ⟨hj, h⟩ := List.forall_mem_cons.1 h
    rw [pick, List.filterMap_cons, List.getElem?_eq_getElem hj]
    cases k with
    | zero => cases hk; exact (List.getElem?_eq_getElem hj).symm
    | succ k => exact ih h hk

theorem length_offsets {b : Batch} {ps : List Position} (h : b ∈ group ps) :
    (b.offsets ps).length = b.indexes.length := by
  refine List.filterMap_length_eq_length.2 ?_
  intro i hi
  rw [List.getElem?_eq_getElem (lt_of_mem_indexes h hi)]
  rfl

end

/-! ## Putting outcomes in their places -/

@[simp] theorem length_record (b : Batch) (os all : List Outcome) :
    (b.record os all).length = all.length := by
  unfold record
  generalize b.indexes.zip os = entries
  induction entries generalizing all with
  | nil => rfl
  | cons e entries ih => rw [List.foldl_cons, ih, List.length_set]

theorem getElem?_record_of_notMem {b : Batch} {i : Nat} (h : i ∉ b.indexes)
    (os all : List Outcome) : (b.record os all)[i]? = all[i]? := by
  unfold record
  have h : ∀ e ∈ b.indexes.zip os, e.1 ≠ i := fun e he hi => h (hi ▸ (List.of_mem_zip he).1)
  generalize b.indexes.zip os = entries at h
  induction entries generalizing all with
  | nil => rfl
  | cons e entries ih =>
    obtain ⟨he, hrest⟩ := List.forall_mem_cons.1 h
    rw [List.foldl_cons, ih _ hrest, List.getElem?_set_ne he]

theorem pick_record {b : Batch} {os all : List Outcome} (hnd : b.indexes.Nodup)
    (hl : os.length = b.indexes.length) (hall : ∀ i ∈ b.indexes, i < all.length) :
    b.pick (b.record os all) = os := by
  obtain ⟨tp, indexes⟩ := b
  induction indexes generalizing os all with
  | nil => exact (List.length_eq_zero_iff.1 hl).symm
  | cons i indexes ih =>
    obtain ⟨o, os, rfl⟩ := List.exists_cons_of_length_eq_add_one hl
    obtain ⟨hi, hnd⟩ := List.nodup_cons.1 hnd
    obtain ⟨hlt, hall⟩ := List.forall_mem_cons.1 hall
    have hrest : record ⟨tp, i :: indexes⟩ (o :: os) all =
        record ⟨tp, indexes⟩ os (all.set i o) := rfl
    have hhead : (record ⟨tp, indexes⟩ os (all.set i o))[i]? = some o := by
      rw [getElem?_record_of_notMem hi, List.getElem?_set_self hlt]
    have htail : pick ⟨tp, indexes⟩ (record ⟨tp, indexes⟩ os (all.set i o)) = os :=
      ih hnd (Nat.succ.inj hl) (by simpa using hall)
    rw [hrest]
    simp only [pick, List.filterMap_cons, hhead] at htail ⊢
    rw [htail]

theorem pick_record_of_disjoint {b b' : Batch} (h : ∀ i ∈ b'.indexes, i ∉ b.indexes)
    (os all : List Outcome) : b'.pick (b.record os all) = b'.pick all :=
  List.filterMap_congr fun i hi => getElem?_record_of_notMem (h i hi) os all

/-- Puts the outcomes of several batches in their places. -/
def recordAll (entries : List (Batch × List Outcome)) (all : List Outcome) : List Outcome :=
  entries.foldl (fun all e => e.1.record e.2 all) all

@[simp] theorem length_recordAll (entries : List (Batch × List Outcome)) (all : List Outcome) :
    (recordAll entries all).length = all.length := by
  induction entries generalizing all with
  | nil => rfl
  | cons e entries ih =>
    show (recordAll entries (e.1.record e.2 all)).length = _
    rw [ih, length_record]

theorem pick_recordAll_of_disjoint {b : Batch} {entries : List (Batch × List Outcome)}
    (h : ∀ e ∈ entries, ∀ i ∈ b.indexes, i ∉ e.1.indexes) (all : List Outcome) :
    b.pick (recordAll entries all) = b.pick all := by
  induction entries generalizing all with
  | nil => rfl
  | cons e entries ih =>
    obtain ⟨he, hrest⟩ := List.forall_mem_cons.1 h
    exact (ih hrest _).trans (pick_record_of_disjoint he _ _)

/-- **Outcomes that are put in their places are found there**, for different
    batches of one request. -/
theorem pick_recordAll {ps : List Position} {entries : List (Batch × List Outcome)}
    {all : List Outcome} (hall : all.length = ps.length)
    (hnd : (entries.map fun e => e.1.tp).Nodup)
    (hb : ∀ e ∈ entries, e.1 ∈ group ps ∧ e.2.length = e.1.indexes.length)
    {e : Batch × List Outcome} (he : e ∈ entries) : e.1.pick (recordAll entries all) = e.2 := by
  induction entries generalizing all with
  | nil => cases he
  | cons e' entries ih =>
    obtain ⟨hne, hnd⟩ := List.nodup_cons.1 hnd
    obtain ⟨⟨hg, hl⟩, hrest⟩ := List.forall_mem_cons.1 hb
    rcases List.mem_cons.1 he with rfl | he
    · have hdisj : ∀ e' ∈ entries, ∀ i ∈ e.1.indexes, i ∉ e'.1.indexes := by
        intro e' he' i hi
        rw [indexes_of_mem_group hg] at hi
        rw [indexes_of_mem_group (hrest e' he').1]
        have htp : e.1.tp ≠ e'.1.tp := fun h => hne (List.mem_map.2 ⟨e', he', h.symm⟩)
        exact disjoint_places htp hi
      refine (pick_recordAll_of_disjoint hdisj _).trans (pick_record ?_ hl fun i hi => ?_)
      · rw [indexes_of_mem_group hg]; exact nodup_places _ _
      · rw [hall]; exact lt_of_mem_indexes hg hi
    · exact ih ((length_record ..).trans hall) hnd hrest he

end Batch

end CursorCommit

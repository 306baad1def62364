/-
  Batches in one pass, without a search.

  A pass over a request may keep a table that tells which of the batches is
  that of a partition (`Tabled`).  The pass fails if the table tells of a
  batch that is not there; it would go wrong if the table told of the batch
  of another partition.

  * `InStep`: the table finds what a search through the batches would find;
  * `InStep.add`: a position is then added where `Batch.add` adds it, and the
    table and the batches stay in step;
  * `inStep_tabled`: so the pass does not fail, and comes to `Batch.group`.
-/
import CursorCommit.Proofs.Batch
import Std.Data.HashMap.Lemmas

namespace CursorCommit

instance : Hashable TopicPartition :=
  ⟨fun tp => mixHash (hash tp.topic) (hash tp.partition)⟩

namespace Batch

/-! ## Where a position is added -/

section
variable {tp : TopicPartition} {k : Nat} {batches : List Batch}

theorem add_of_notMem (i : Nat) (h : tp ∉ batches.map Batch.tp) :
    add tp i batches = batches ++ [⟨tp, [i]⟩] := by
  induction batches with
  | nil => rfl
  | cons b rest ih =>
    rw [List.map_cons, List.mem_cons, not_or] at h
    rw [add, if_neg (Ne.symm h.1), ih h.2, List.cons_append]

theorem add_of_idxOf? (i : Nat) (h : (batches.map Batch.tp).idxOf? tp = some k) :
    ∃ b, batches[k]? = some b ∧
      add tp i batches = batches.set k { b with indexes := b.indexes ++ [i] } := by
  induction batches generalizing k with
  | nil => cases h
  | cons b rest ih =>
    simp only [List.map_cons, List.idxOf?_cons, beq_iff_eq] at h
    split at h
    · next hb =>
      cases h
      exact ⟨b, rfl, if_pos hb⟩
    · next hb =>
      obtain ⟨k, hk, rfl⟩ := Option.map_eq_some_iff.1 h
      obtain ⟨b', hb', hadd⟩ := ih hk
      refine ⟨b', hb', ?_⟩
      rw [add, if_neg hb, hadd, List.set_cons_succ]

theorem map_tp_add (tp : TopicPartition) (i : Nat) (batches : List Batch) :
    (add tp i batches).map Batch.tp = if tp ∈ batches.map Batch.tp then batches.map Batch.tp
      else batches.map Batch.tp ++ [tp] := by
  induction batches with
  | nil => rfl
  | cons b rest ih =>
    by_cases hb : b.tp = tp
    · simp [add, hb]
    · rw [add, if_neg hb, List.map_cons, ih]
      split <;> simp_all [Ne.symm hb]

end

/-! ## The pass -/

/-- Batches as a pass collects them, with a table that tells which of them is
    that of a partition. -/
structure Tabled where
  batches : Array Batch
  whichIs : Std.HashMap TopicPartition Nat

namespace Tabled

/-- Adds the place of a position of `tp` to the batch that the table tells, or
    to a new one if it tells none.  There is no result if the table tells of a
    batch that is not there. -/
def add (t : Tabled) (tp : TopicPartition) (index : Nat) : Option Tabled :=
  match t.whichIs[tp]? with
  | some k =>
    t.batches[k]?.map fun b =>
      { t with batches := t.batches.setIfInBounds k { b with indexes := b.indexes ++ [index] } }
  | none => some ⟨t.batches.push ⟨tp, [index]⟩, t.whichIs.insert tp t.batches.size⟩

/-- The table tells for each partition what a search through the batches would
    find. -/
structure InStep (t : Tabled) (batches : List Batch) : Prop where
  same : t.batches.toList = batches
  told : ∀ tp, t.whichIs[tp]? = (batches.map Batch.tp).idxOf? tp

theorem inStep_empty : InStep ⟨#[], ∅⟩ [] :=
  ⟨rfl, fun _ => Std.HashMap.getElem?_empty⟩

/-- **A step of the pass** finds the batch to add to, and the table stays in
    step. -/
theorem InStep.add {t : Tabled} {batches : List Batch} (h : t.InStep batches)
    (tp : TopicPartition) (i : Nat) :
    ∃ t', t.add tp i = some t' ∧ t'.InStep (Batch.add tp i batches) := by
  obtain ⟨rfl, htold⟩ := h
  unfold Tabled.add
  rw [htold]
  cases hk : (t.batches.toList.map Batch.tp).idxOf? tp with
  | some k =>
    -- the partition has a batch, and no batch moves
    obtain ⟨b, hb, hadd⟩ := add_of_idxOf? i hk
    rw [Array.getElem?_toList] at hb
    refine ⟨_, congrArg (Option.map _) hb, ?_, fun tp' => ?_⟩
    · rw [hadd, Array.toList_setIfInBounds]
    · rw [map_tp_add, if_pos (mem_of_idxOf? hk)]
      exact htold tp'
  | none =>
    -- the new batch comes after all others, so its number is how many they are
    have hnew : tp ∉ t.batches.toList.map Batch.tp := List.idxOf?_eq_none_iff.1 hk
    refine ⟨_, rfl, ?_, fun tp' => ?_⟩
    · rw [add_of_notMem i hnew, Array.toList_push]
    · rw [map_tp_add, if_neg hnew, idxOf?_concat hnew, Std.HashMap.getElem?_insert, htold,
        List.length_map, Array.length_toList]
      simp only [beq_iff_eq]

end Tabled

/-- The table and the batches after a pass over the request. -/
def tabled (positions : List Position) : Option Tabled :=
  positions.zipIdx.foldlM (fun t q => Tabled.add t q.1.tp q.2) ⟨#[], ∅⟩

/-- **The pass**, from its steps: there is always a batch where the table tells,
    and the batches are those of the request. -/
theorem inStep_tabled (ps : List Position) : ∃ t, tabled ps = some t ∧ t.InStep (group ps) := by
  induction ps using List.reverseRecOn with
  | nil => exact ⟨_, rfl, Tabled.inStep_empty⟩
  | append_singleton ps p ih =>
    obtain ⟨t, ht, hstep⟩ := ih
    obtain ⟨t', ht', hstep'⟩ := hstep.add p.tp ps.length
    refine ⟨t', ?_, group_concat ps p ▸ hstep'⟩
    have hlast : tabled (ps ++ [p]) = (tabled ps).bind fun t => t.add p.tp ps.length := by
      simp [tabled, List.zipIdx_append, List.foldlM_append]
    rw [hlast, ht]
    exact ht'

end Batch

end CursorCommit

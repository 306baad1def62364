/-
  What a commit does while nobody else acts.

  `commit_refines_folds`: a success is, partition by partition, the fold of the
  reported offsets against the stored one; the store has where each fold ends,
  if it advanced, and is otherwise as it was.  A failure changes nothing.
-/
import CursorCommit.Proofs.Commit.Accounts
import CursorCommit.Proofs.Commit.Undisturbed

namespace CursorCommit.Coordinator

/-- The results and the store `s'` are what the folds of the partitions make of
    the cursors and of the store `s`. -/
structure Refined (c : Coordinator) (subscription : String) (d : Directory) (cursors : List Cursor)
    (s s' : Store) (rs : List CommitResult) : Prop where
  ordered : rs.map CommitResult.cursor = cursors
  located : ∀ cursor ∈ cursors, ∃ tp ∈ d.partitions cursors, d.isIn tp cursor = true
  folded : ∀ tp ∈ d.partitions cursors, ∃ (offset : String) (fold : Fold),
    s.textAt? (c.offsetKey subscription tp) = some offset ∧
      Fold.ofOffsets (c.order.comparator tp.topic) offset (d.offsetsIn tp cursors) = .ok fold ∧
      d.outcomesIn tp rs = fold.outcomes ∧
      if fold.advanced then
        s.Renewed s' (c.offsetKey subscription tp) (Utf8.encode fold.highWater)
      else s'.record? (c.offsetKey subscription tp) = s.record? (c.offsetKey subscription tp)
  elsewhere : ∀ key, (∀ tp ∈ d.partitions cursors, key ≠ c.offsetKey subscription tp) →
    s'.record? key = s.record? key
  available : s'.available = s.available

namespace Completed

variable {c : Coordinator} {stream subscription : String} {d : Directory} {cursors : List Cursor}
  {s s' : Store} {positions : List Position} {plans : List Plan} {rs : List CommitResult} {p : Plan}
  (h : c.Completed stream subscription d cursors s s' positions plans rs)
include h

theorem nodup_keys : ((c.entriesOf subscription plans).map Prod.fst).Nodup := by
  rw [entriesOf, List.map_map]
  exact (h.prepared.apart.sublist List.filter_sublist).offsets

omit h in
theorem entry_mem (hp : p ∈ plans) (ha : p.fold.advanced = true) :
    c.entry subscription p ∈ c.entriesOf subscription plans :=
  List.mem_map_of_mem (List.mem_filter.2 ⟨hp, ha⟩)

theorem record?_of_advanced (hp : p ∈ plans) (ha : p.fold.advanced = true) :
    ∃ revision, s'.record? (c.offsetKey subscription p.batch.tp) =
      some ⟨Utf8.encode p.fold.highWater, p.current.version + 1, revision⟩ := by
  obtain ⟨i, hi⟩ := List.getElem?_of_mem (entry_mem (c := c) hp ha)
  have hrecord := Store.record?_writeAll (s := s) h.nodup_keys hi
  rw [← h.store] at hrecord
  rw [← (h.prepared.rests p hp).versionAt_eq]
  exact ⟨_, hrecord⟩

/-- **A plan that advanced is written.** -/
theorem renewed (hs : s.Sound) (hp : p ∈ plans) (ha : p.fold.advanced = true) :
    s.Renewed s' (c.offsetKey subscription p.batch.tp) (Utf8.encode p.fold.highWater) := by
  rw [h.store]
  exact Store.renewed_writeAll hs h.nodup_keys (entry_mem hp ha)

/-- **Where no plan advanced** the store is as it was. -/
theorem record?_eq {key : String}
    (hk : ∀ p ∈ plans, p.fold.advanced = true → c.offsetKey subscription p.batch.tp ≠ key) :
    s'.record? key = s.record? key := by
  rw [h.store, Store.record?_writeAll_of_notMem]
  intro hm
  rw [entriesOf, List.map_map] at hm
  obtain ⟨p, hp, he⟩ := List.mem_map.1 hm
  obtain ⟨hp, ha⟩ := List.mem_filter.1 hp
  exact hk p hp ha he

theorem record?_of_idle (hp : p ∈ plans) (ha : p.fold.advanced = false) :
    s'.record? (c.offsetKey subscription p.batch.tp) =
      s.record? (c.offsetKey subscription p.batch.tp) := by
  refine h.record?_eq ?_
  intro q hq hadv he
  rw [List.inj_on_of_nodup_map h.prepared.apart.offsets hq hp he, ha] at hadv
  cases hadv

theorem refined (hs : s.Sound) : c.Refined subscription d cursors s s' rs where
  ordered := h.ordered
  located _ hc := Directory.exists_isIn_of_locates h.prepared.located hc
  folded tp htp := by
    obtain ⟨p, hp, rfl⟩ := h.prepared.exists_plan htp
    obtain ⟨hstored, hfold⟩ := h.prepared.folds hp
    refine ⟨p.current.offset, p.fold, hstored, hfold, h.outcomes p hp, ?_⟩
    cases ha : p.fold.advanced with
    | true => exact h.renewed hs hp ha
    | false => exact h.record?_of_idle hp ha
  elsewhere key hk := h.record?_eq fun p hp _ he => hk _ (h.prepared.tp_mem_partitions hp) he.symm
  available := by rw [h.store, Store.available_writeAll]

end Completed

section
variable (d : Directory) (token : Nat → String) (w : World Unit) (c : Coordinator)
  (stream subscription : String) (cursors : List Cursor)

/-- **A commit refines the folds of its partitions**, while nobody else acts,
    and it is atomic: if it succeeds, then the outcomes in each partition are
    those of the fold of the reported offsets against the stored one, and the
    store differs only where a fold advanced; if it fails, then the store is as
    it was. -/
theorem commit_refines_folds (hreach : w.store.Reachable) :
    let run := (c.commit stream subscription cursors).runIn (.undisturbed d token) w
    (∀ rs, run.value = .ok rs →
      c.Refined subscription d cursors w.store run.world.store rs) ∧
    ∀ e, run.value = .error e → run.world.store = w.store := by
  intro run
  refine ⟨fun rs hrs => ?_, fun e he => congrArg World.store (world_of_error he)⟩
  rcases completed_of_ok hrs with ⟨rfl, rfl, hworld⟩ | ⟨-, _, _, h⟩
  · rw [show run.world = w from hworld]
    exact ⟨rfl, by simp, by simp [Directory.partitions], fun _ _ => rfl, rfl⟩
  · exact h.refined hreach.sound

/-- The commit of cursors by `n` while nobody else acts. -/
def Sample.atRest (cursors : List Cursor) : Run Unit (Except Error (List CommitResult)) :=
  (Sample.coordinator.commit "n" "s" cursors).runIn (.undisturbed Sample.directory toString)
    ⟨Sample.store, 0, ()⟩

/-- Cursors of two partitions in turn are folded apart. -/
theorem interleaved_refines_folds :
    ∃ rs, (Sample.atRest Sample.interleaved).value = .ok rs ∧
      rs.map CommitResult.outcome = [.committed, .committed, .outdated, .committed] ∧
        Sample.coordinator.Refined "s" Sample.directory Sample.interleaved Sample.store
          (Sample.atRest Sample.interleaved).world.store rs := by
  have houtcomes : (Sample.atRest Sample.interleaved).value.toOption.map
      (List.map CommitResult.outcome) = some [.committed, .committed, .outdated, .committed] := by
    decide +kernel
  cases h : (Sample.atRest Sample.interleaved).value with
  | error e => rw [h] at houtcomes; cases houtcomes
  | ok rs =>
    rw [h] at houtcomes
    refine ⟨rs, rfl, Option.some.inj houtcomes, ?_⟩
    exact (commit_refines_folds _ _ _ _ _ _ _ ⟨_, rfl⟩).1 rs h

end

end CursorCommit.Coordinator

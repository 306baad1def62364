/-
  Writing an offset at the version of an earlier read.

  A version counts the writes to a key since its record was created.  So an
  offset that can be written at the version of a read is the one that was read,
  and was left alone in between, iff nobody removed its record meanwhile
  (`setOffset_iff_unchanged`).

  With a removal the count starts again, and a record that was created anew can
  be at the version of the read with another offset
  (`recreated_offset_overwritten`).  The revisions that guards ask for never
  come back.
-/
import CursorCommit.Proofs.Commit.Effect

namespace CursorCommit

namespace Store

variable {s : Store} {key : String} {record : Record} {past rest : List StoreOp}

/-- **A record that is found again was there all the time**, unless it was
    removed: it has its version only once. -/
theorem Spares.record?_between (h : Spares key s (past ++ rest)) (hr : s.record? key = some record)
    (he : (s.afterAll (past ++ rest)).record? key = some record) :
    (s.afterAll past).record? key = some record := by
  obtain ⟨hpast, hrest⟩ := spares_append.1 h
  obtain ⟨middle, hm, hfirst⟩ := hpast.later hr
  obtain ⟨last, hl, hsecond⟩ := hrest.later hm
  rw [← afterAll_append, he] at hl
  cases hl
  rcases hfirst with rfl | hlt
  · exact hm
  · rcases hsecond with rfl | hlt'
    · exact hm
    · exact absurd (hlt.trans hlt') (lt_irrefl _)

theorem spares_of_unchanged {ops : List StoreOp}
    (h : ∀ past, past <+: ops → (s.afterAll past).record? key = s.record? key) :
    Spares key s ops := by
  induction ops generalizing s with
  | nil => trivial
  | cons op ops ih =>
    have hop : (s.after op).record? key = s.record? key :=
      h [op] (List.prefix_append [op] ops)
    refine ⟨fun hsome => by rwa [hop], ih fun past hp => ?_⟩
    rw [hop, ← h (op :: past) (List.cons_prefix_cons.2 ⟨rfl, hp⟩), afterAll_cons]

end Store

namespace Coordinator

variable {c : Coordinator} {subscription : String} {tp : TopicPartition} {d : Directory}
  {token : Nat → String} {w : World Unit} {current : StoredOffset}

theorem exists_record_of_offset?
    (h : ((c.offset? subscription tp).runIn (.undisturbed d token) w).value = .ok (some current)) :
    ∃ record, w.store.record? (c.offsetKey subscription tp) = some record ∧
      record.text = .ok current.offset ∧ record.version = current.version := by
  have hlook : (c.offset? subscription tp).Looks d fun s =>
      s.look (c.offsetKey subscription tp) >>= fun o => o.mapM StoredOffset.ofRecord := by
    refine (Action.looks_get _).bind fun o => ?_
    cases o with
    | none => exact Action.looks_pure none
    | some record =>
      show (some <$> Action.of (StoredOffset.ofRecord record)).Looks d _
      rw [map_eq_pure_bind]
      exact (Action.looks_of _).bind fun stored => Action.looks_pure (some stored)
  rw [(hlook token w).1] at h
  obtain ⟨o, ho, h⟩ := except_bind_eq_ok_iff.1 h
  obtain ⟨-, rfl⟩ := Store.look_eq_ok_iff.1 ho
  cases hr : w.store.record? (c.offsetKey subscription tp) with
  | none => rw [hr] at h; cases h
  | some record =>
    rw [hr] at h
    replace h : some <$> StoredOffset.ofRecord record = .ok (some current) := h
    cases hrec : StoredOffset.ofRecord record with
    | error e => rw [hrec] at h; cases h
    | ok stored =>
      rw [hrec] at h
      cases h
      exact ⟨record, rfl, StoredOffset.ofRecord_eq_ok hrec⟩

theorem setOffset_eq_ok_true_iff {version : Int} {offset : String} {guards : List Guard} :
    ((c.setOffset subscription tp version offset guards).runIn (.undisturbed d token) w).value =
        .ok true ↔
      (w.store.available = true ∧ guards.all w.store.holds = true) ∧
        (w.store.versionAt (c.offsetKey subscription tp) : Int) = version := by
  show (w.store.answer (.compareAndSet (c.offsetKey subscription tp) version (Utf8.encode offset)
    guards)).1.mapError Error.ofStore = .ok true ↔ _
  rw [except_mapError_eq_ok_iff]
  simp only [Store.answer, Store.compareAndSet, Store.whenAvailable]
  cases ha : w.store.available with
  | false => simp
  | true =>
    by_cases hadmits : w.store.admits (c.offsetKey subscription tp) version guards = true
    · simp only [hadmits, if_true, true_and, true_iff]
      simpa [Store.admits, and_comm] using hadmits
    · simp only [hadmits, if_true, if_false, Except.ok.injEq, Bool.false_eq_true, true_and,
        false_iff]
      simpa [Store.admits, and_comm] using hadmits

section
variable (offset : String) (guards : List Guard) (ops : List StoreOp)

/-- **An offset is written over the one that was read**, and not over one that
    was created anew, iff the guards hold and the record is unchanged at every
    moment from the read to the write, with the bytes of the offset that was
    read; whatever others do to the store in between.  So a write that is
    applied can only miss a change if the record was removed. -/
theorem setOffset_iff_unchanged
    (hread : ((c.offset? subscription tp).runIn (.undisturbed d token) w).value =
      .ok (some current)) :
    let s := w.store.afterAll ops
    (((c.setOffset subscription tp current.version offset guards).runIn (.undisturbed d token)
        { w with store := s }).value = .ok true ∧
      Store.Spares (c.offsetKey subscription tp) w.store ops) ↔
      (s.available = true ∧ guards.all s.holds = true) ∧ ∀ past, past <+: ops →
        (w.store.afterAll past).record? (c.offsetKey subscription tp) =
            w.store.record? (c.offsetKey subscription tp) ∧
          (w.store.afterAll past).bytesAt? (c.offsetKey subscription tp) =
            some (Utf8.encode current.offset) := by
  intro s
  obtain ⟨record, hr, htext, hversion⟩ := exists_record_of_offset? hread
  rw [setOffset_eq_ok_true_iff, and_assoc, and_congr_right_iff]
  intro _
  constructor
  · rintro ⟨hv, hs⟩ past ⟨rest, rfl⟩
    have hsame : s.record? (c.offsetKey subscription tp) = some record :=
      hs.record?_eq_of_versionAt hr (hversion ▸ Int.natCast_inj.1 hv)
    have hbetween := hs.record?_between hr hsame
    exact ⟨hbetween.trans hr.symm, Store.bytesAt?_eq_encode (Store.textAt?_eq hbetween htext)⟩
  · intro h
    have hsame : s.record? (c.offsetKey subscription tp) = some record :=
      (h ops List.prefix_rfl).1.trans hr
    refine ⟨?_, Store.spares_of_unchanged fun past hp => (h past hp).1⟩
    rw [Store.versionAt_eq hsame, hversion]

/-- The write goes through after a write elsewhere. -/
theorem write_elsewhere_keeps_fresh :
    let ops := [.put (Sample.offsetAt "1") (Utf8.encode "6")]
    let read := (Sample.coordinator.offset? "s" ⟨"t", "0"⟩).runIn
      (.undisturbed Sample.directory toString) ⟨Sample.store, 0, ()⟩
    let write := (Sample.coordinator.setOffset "s" ⟨"t", "0"⟩ 1 "7" []).runIn
      (.undisturbed Sample.directory toString) ⟨Sample.store.afterAll ops, 0, ()⟩
    read.value = .ok (some ⟨"5", 1⟩) ∧ write.value = .ok true ∧
      Store.Spares (Sample.offsetAt "0") Sample.store ops ∧ ∀ past, past <+: ops →
        (Sample.store.afterAll past).record? (Sample.offsetAt "0") =
            Sample.store.record? (Sample.offsetAt "0") ∧
          (Sample.store.afterAll past).bytesAt? (Sample.offsetAt "0") =
            some (Utf8.encode "5") := by
  intro ops read write
  have hread : read.value = .ok (some ⟨"5", 1⟩) := by decide +kernel
  have hs : Store.Spares (Sample.offsetAt "0") Sample.store ops := by decide +kernel
  have hwrite : write.value = .ok true := by decide +kernel
  exact ⟨hread, hwrite, hs, ((setOffset_iff_unchanged "7" [] ops hread).1 ⟨hwrite, hs⟩).2⟩

/-- An offset that is removed and created anew is taken for the one that was
    read: `7` is written over `9` at the version of a read that saw `5`. -/
theorem recreated_offset_overwritten :
    let ops := [.delete (Sample.offsetAt "0"), .put (Sample.offsetAt "0") (Utf8.encode "9")]
    let read := (Sample.coordinator.offset? "s" ⟨"t", "0"⟩).runIn
      (.undisturbed Sample.directory toString) ⟨Sample.store, 0, ()⟩
    let write := (Sample.coordinator.setOffset "s" ⟨"t", "0"⟩ 1 "7" []).runIn
      (.undisturbed Sample.directory toString) ⟨Sample.store.afterAll ops, 0, ()⟩
    read.value = .ok (some ⟨"5", 1⟩) ∧ write.value = .ok true ∧
      (Sample.store.afterAll ops).textAt? (Sample.offsetAt "0") = some "9" ∧
        write.world.store.textAt? (Sample.offsetAt "0") = some "7" := by
  decide +kernel

end

end Coordinator

end CursorCommit

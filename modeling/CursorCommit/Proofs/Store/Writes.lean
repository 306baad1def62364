/-
  Several writes, one after the other, at different keys.

  * `record?_writeAll_of_notMem`: what is not written stays as it was;
  * `record?_writeAll`: what is written is at the next version, and at a
    revision that tells the place of the write among the others;
  * `renewed_writeAll`: so this revision is fresh.
-/
import CursorCommit.Proofs.Store.Succession

namespace CursorCommit.Store

/-- The store after writes, one after the other. -/
def writeAll (s : Store) (entries : List (String × List UInt8)) : Store :=
  entries.foldl (fun s e => s.write e.1 e.2) s

@[simp] theorem writeAll_cons (s : Store) (e : String × List UInt8)
    (entries : List (String × List UInt8)) :
    s.writeAll (e :: entries) = (s.write e.1 e.2).writeAll entries := rfl

@[simp] theorem available_write (s : Store) (key : String) (bytes : List UInt8) :
    (s.write key bytes).available = s.available := rfl

@[simp] theorem available_writeAll (s : Store) (entries : List (String × List UInt8)) :
    (s.writeAll entries).available = s.available := by
  induction entries generalizing s with
  | nil => rfl
  | cons e entries ih => rw [writeAll_cons, ih, available_write]

theorem record?_write_of_ne {s : Store} {key k : String} (h : k ≠ key) (bytes : List UInt8) :
    (s.write key bytes).record? k = s.record? k := by
  rw [record?_write, if_neg h]

/-- **What is not written stays as it was.** -/
theorem record?_writeAll_of_notMem {s : Store} {entries : List (String × List UInt8)} {key : String}
    (h : key ∉ entries.map Prod.fst) : (s.writeAll entries).record? key = s.record? key := by
  induction entries generalizing s with
  | nil => rfl
  | cons e entries ih =>
    rw [List.map_cons, List.mem_cons, not_or] at h
    rw [writeAll_cons, ih h.2, record?_write_of_ne h.1]

/-- **What is written** is at the next version, and at a revision that counts
    the writes up to it. -/
theorem record?_writeAll {s : Store} {entries : List (String × List UInt8)}
    (hnd : (entries.map Prod.fst).Nodup) {i : Nat} {e : String × List UInt8}
    (h : entries[i]? = some e) :
    (s.writeAll entries).record? e.1 = some ⟨e.2, s.versionAt e.1 + 1, s.revision + (i + 1)⟩ := by
  induction entries generalizing s i with
  | nil => cases h
  | cons e' entries ih =>
    obtain ⟨hno, hnd⟩ := List.nodup_cons.1 hnd
    rw [writeAll_cons]
    cases i with
    | zero =>
      cases h
      rw [record?_writeAll_of_notMem hno, record?_write, if_pos rfl]
    | succ i =>
      rw [List.getElem?_cons_succ] at h
      have hne : e.1 ≠ e'.1 := by
        intro he
        exact hno (he ▸ List.mem_map_of_mem (List.mem_of_getElem? h))
      have hversion : (s.write e'.1 e'.2).versionAt e.1 = s.versionAt e.1 := by
        rw [versionAt, record?_write_of_ne hne, versionAt]
      rw [ih hnd h, hversion]
      simp only [write, Option.some.injEq, Record.mk.injEq, true_and]
      omega

/-- The record at a key is new in `s'`: it has these bytes and the next
    version, and a revision that is later than all of `s` and that of no other
    record. -/
def Renewed (s s' : Store) (key : String) (bytes : List UInt8) : Prop :=
  ∃ revision, s'.record? key = some ⟨bytes, s.versionAt key + 1, revision⟩ ∧
    s.revision < revision ∧
    (∀ k record, s.record? k = some record → record.revision < revision) ∧
    ∀ k record, s'.record? k = some record → record.revision = revision → k = key

/-- **What is written is new.** -/
theorem renewed_writeAll {s : Store} (hs : s.Sound) {entries : List (String × List UInt8)}
    (hnd : (entries.map Prod.fst).Nodup) {e : String × List UInt8} (he : e ∈ entries) :
    s.Renewed (s.writeAll entries) e.1 e.2 := by
  obtain ⟨i, hi⟩ := List.getElem?_of_mem he
  refine ⟨s.revision + (i + 1), record?_writeAll hnd hi, by omega, ?_, ?_⟩
  · intro k record hr
    have := hs.revision_le k record hr
    omega
  · intro k record hr hrev
    by_cases hk : k ∈ entries.map Prod.fst
    · -- a revision tells the place of its write
      obtain ⟨e', he', rfl⟩ := List.mem_map.1 hk
      obtain ⟨j, hj⟩ := List.getElem?_of_mem he'
      rw [record?_writeAll hnd hj] at hr
      cases hr
      have hij : j = i := by simpa using hrev
      rw [hij, hi] at hj
      cases hj
      rfl
    · rw [record?_writeAll_of_notMem hk] at hr
      have := hs.revision_le k record hr
      omega

end CursorCommit.Store

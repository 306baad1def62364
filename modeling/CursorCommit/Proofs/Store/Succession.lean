/-
  How a store changes over operations.

  An operation writes a record, removes records or changes nothing but the
  availability (`after_cases`).  From this:

  * `Reachable.sound`: in a reachable store versions start at one, and no
    record is newer than the store;
  * `Sound.record?_eq_of_revisionAt`: a revision never comes back at a
    key with another record, also across deletions;
  * `Spares.record?_eq_of_versionAt`: nor does a version, as long as the
    record is not removed.
-/
import CursorCommit.Store.Basic
import Mathlib.Order.Nat

namespace CursorCommit.Store

variable {s s' : Store} {key : String} {record : Record}

/-- **What an operation can do.** -/
theorem after_cases (s : Store) (op : StoreOp) :
    (∃ a, s.after op = s.setAvailable a) ∨ (∃ key bytes, s.after op = s.write key bytes) ∨
      ∃ keep, s.after op = s.retain keep := by
  have same : s = s.setAvailable s.available := rfl
  cases h : s.available with
  | false =>
    rw [after_of_unavailable h]
    cases op with
    | setAvailable a => exact Or.inl ⟨a, rfl⟩
    | _ => exact Or.inl ⟨_, same⟩
  | true =>
    rw [after_of_available h]
    cases op with
    | put key bytes => exact Or.inr (Or.inl ⟨key, bytes, rfl⟩)
    | delete key => exact Or.inr (Or.inr ⟨_, rfl⟩)
    | deletePrefix start => exact Or.inr (Or.inr ⟨_, rfl⟩)
    | compareAndSet key version bytes guards =>
      simp only
      split
      · exact Or.inr (Or.inl ⟨key, bytes, rfl⟩)
      · exact Or.inl ⟨_, same⟩
    | setAvailable a => exact Or.inl ⟨a, rfl⟩

@[simp] theorem record?_setAvailable (s : Store) (a : Bool) (k : String) :
    (s.setAvailable a).record? k = s.record? k := rfl

theorem revision_le_retain (s : Store) (keep : String → Bool) :
    s.revision ≤ (s.retain keep).revision := by
  simp only [retain]; split <;> omega

theorem record?_of_retain {keep : String → Bool} {k : String}
    (h : (s.retain keep).record? k = some record) : s.record? k = some record := by
  rw [record?_retain] at h
  split at h
  · exact h
  · cases h

theorem versionAt_eq (h : s.record? key = some record) : s.versionAt key = record.version := by
  simp [versionAt, h]

theorem revisionAt_eq (h : s.record? key = some record) : s.revisionAt key = record.revision := by
  simp [revisionAt, h]

/-! ## Reachable stores -/

theorem Reachable.induction {P : Store → Prop} (empty : P Store.empty)
    (step : ∀ s op, P s → P (s.after op)) (h : s.Reachable) : P s := by
  obtain ⟨ops, rfl⟩ := h
  suffices ∀ ops s, P s → P (s.afterAll ops) from this ops _ empty
  intro ops
  induction ops with
  | nil => exact fun _ h => h
  | cons op ops ih => exact fun s h => ih _ (step s op h)

/-- The order of versions and revisions in a store. -/
structure Sound (s : Store) : Prop where
  version_pos : ∀ key record, s.record? key = some record → 0 < record.version
  version_le : ∀ key record, s.record? key = some record → record.version ≤ record.revision
  revision_le : ∀ key record, s.record? key = some record → record.revision ≤ s.revision

theorem sound_empty : empty.Sound := by
  constructor <;> intro key record h <;> cases h

theorem Sound.versionAt_le (hs : s.Sound) (key : String) : s.versionAt key ≤ s.revision := by
  unfold versionAt
  cases h : s.record? key with
  | none => exact Nat.zero_le _
  | some record => exact (hs.version_le key record h).trans (hs.revision_le key record h)

theorem Sound.write (hs : s.Sound) (key : String) (bytes : List UInt8) :
    (s.write key bytes).Sound := by
  have hv := hs.versionAt_le key
  refine ⟨fun k r h => ?_, fun k r h => ?_, fun k r h => ?_⟩ <;> rw [record?_write] at h <;>
    split at h
  · cases h; exact Nat.succ_pos _
  · exact hs.version_pos k r h
  · cases h; exact Nat.succ_le_succ hv
  · exact hs.version_le k r h
  · cases h; exact le_rfl
  · exact (hs.revision_le k r h).trans (Nat.le_succ _)

theorem Sound.retain (hs : s.Sound) (keep : String → Bool) : (s.retain keep).Sound :=
  ⟨fun k r h => hs.version_pos k r (record?_of_retain h),
    fun k r h => hs.version_le k r (record?_of_retain h),
    fun k r h => (hs.revision_le k r (record?_of_retain h)).trans (revision_le_retain s keep)⟩

theorem Sound.after (hs : s.Sound) (op : StoreOp) : (s.after op).Sound := by
  rcases after_cases s op with ⟨a, h⟩ | ⟨key, bytes, h⟩ | ⟨keep, h⟩ <;> rw [h]
  · exact ⟨hs.version_pos, hs.version_le, hs.revision_le⟩
  · exact hs.write key bytes
  · exact hs.retain keep

/-- **Versions and revisions are in order** in every reachable store. -/
theorem Reachable.sound (h : s.Reachable) : s.Sound :=
  h.induction sound_empty fun _ op hs => hs.after op

/-! ## Revisions -/

/-- A later store: what it holds at a key is as it was, or newer than all of
    the earlier one. -/
structure Succeeds (s' s : Store) : Prop where
  revision_le : s.revision ≤ s'.revision
  same_or_newer : ∀ key, s'.record? key = s.record? key ∨
    ∀ record, s'.record? key = some record → s.revision < record.revision

theorem Succeeds.refl (s : Store) : s.Succeeds s := ⟨le_rfl, fun _ => Or.inl rfl⟩

theorem Succeeds.trans {s'' : Store} (h' : s''.Succeeds s') (h : s'.Succeeds s) :
    s''.Succeeds s := by
  refine ⟨h.revision_le.trans h'.revision_le, ?_⟩
  intro key
  rcases h'.same_or_newer key with he | hn
  · rw [he]; exact h.same_or_newer key
  · exact Or.inr fun record hr => h.revision_le.trans_lt (hn record hr)

theorem succeeds_after (s : Store) (op : StoreOp) : (s.after op).Succeeds s := by
  rcases after_cases s op with ⟨a, h⟩ | ⟨key, bytes, h⟩ | ⟨keep, h⟩ <;> rw [h]
  · exact ⟨le_rfl, fun _ => Or.inl rfl⟩
  · refine ⟨Nat.le_succ _, ?_⟩
    intro k
    rw [record?_write]
    split
    · exact Or.inr fun record hr => by cases hr; exact Nat.lt_succ_self _
    · exact Or.inl rfl
  · refine ⟨revision_le_retain s keep, ?_⟩
    intro k
    rw [record?_retain]
    split
    · exact Or.inl rfl
    · exact Or.inr fun record hr => by cases hr

theorem succeeds_afterAll (s : Store) (ops : List StoreOp) : (s.afterAll ops).Succeeds s := by
  induction ops generalizing s with
  | nil => exact .refl s
  | cons op ops ih => exact (ih (s.after op)).trans (succeeds_after s op)

/-- **A revision stands for one record**: a key that is at the revision of a
    record again, or still, holds this record. -/
theorem Sound.record?_eq_of_revisionAt (hs : s.Sound) (hr : s.record? key = some record)
    (ops : List StoreOp) (h : (s.afterAll ops).revisionAt key = record.revision) :
    (s.afterAll ops).record? key = some record := by
  rcases (succeeds_afterAll s ops).same_or_newer key with he | hn
  · rw [he, hr]
  · exfalso
    have hpos := (hs.version_pos key record hr).trans_le (hs.version_le key record hr)
    cases hr' : (s.afterAll ops).record? key with
    | none => simp [revisionAt, hr'] at h; omega
    | some record' =>
      rw [revisionAt_eq hr'] at h
      have := hs.revision_le key record hr
      have := hn record' hr'
      omega

/-! ## Versions -/

/-- None of the operations removes the record at the key. -/
def Spares (key : String) : Store → List StoreOp → Prop
  | _, [] => True
  | s, op :: ops =>
    ((s.record? key).isSome → ((s.after op).record? key).isSome) ∧ Spares key (s.after op) ops

instance decidableSpares (key : String) : ∀ s ops, Decidable (Spares key s ops)
  | _, [] => .isTrue trivial
  | s, op :: ops =>
    have := decidableSpares key (s.after op) ops
    inferInstanceAs (Decidable (_ ∧ _))

theorem spares_append {ops ops' : List StoreOp} :
    Spares key s (ops ++ ops') ↔ Spares key s ops ∧ Spares key (s.afterAll ops) ops' := by
  induction ops generalizing s with
  | nil => simp [Spares]
  | cons op ops ih => simp only [List.cons_append, Spares, ih, afterAll_cons, and_assoc]

theorem spares_compareAndSet (k : String) (version : Int) (bytes : List UInt8)
    (guards : List Guard) : Spares key s [.compareAndSet k version bytes guards] := by
  refine ⟨fun h => ?_, trivial⟩
  cases ha : s.available with
  | false => rw [after_of_unavailable ha]; exact h
  | true =>
    rw [after_of_available ha]
    simp only
    split
    · rw [record?_write]; split
      · rfl
      · exact h
    · exact h

theorem Spares.later {ops : List StoreOp} (h : Spares key s ops)
    (hr : s.record? key = some record) :
    ∃ record', (s.afterAll ops).record? key = some record' ∧
      (record' = record ∨ record.version < record'.version) := by
  induction ops generalizing s record with
  | nil => exact ⟨record, hr, Or.inl rfl⟩
  | cons op ops ih =>
    obtain ⟨hop, hops⟩ := h
    obtain ⟨r₁, hr₁, hv₁⟩ : ∃ r₁, (s.after op).record? key = some r₁ ∧
        (r₁ = record ∨ record.version < r₁.version) := by
      rw [hr] at hop
      obtain ⟨r₁, hr₁⟩ := Option.isSome_iff_exists.1 (hop rfl)
      refine ⟨r₁, hr₁, ?_⟩
      rcases after_cases s op with ⟨a, he⟩ | ⟨k, bytes, he⟩ | ⟨keep, he⟩ <;> rw [he] at hr₁
      · rw [record?_setAvailable, hr] at hr₁; cases hr₁; exact Or.inl rfl
      · rw [record?_write] at hr₁
        split at hr₁
        · next hk =>
          subst hk; cases hr₁
          rw [versionAt_eq hr]; exact Or.inr (Nat.lt_succ_self _)
        · rw [hr] at hr₁; cases hr₁; exact Or.inl rfl
      · have := record?_of_retain hr₁
        rw [hr] at this; cases this; exact Or.inl rfl
    obtain ⟨r₂, hr₂, hv₂⟩ := ih hops hr₁
    refine ⟨r₂, hr₂, ?_⟩
    rcases hv₁ with rfl | hv₁
    · exact hv₂
    · rcases hv₂ with rfl | hv₂
      · exact Or.inr hv₁
      · exact Or.inr (hv₁.trans hv₂)

/-- **A version stands for one record**, as long as the record is not
    removed. -/
theorem Spares.record?_eq_of_versionAt {ops : List StoreOp} (hs : Spares key s ops)
    (hr : s.record? key = some record) (h : (s.afterAll ops).versionAt key = record.version) :
    (s.afterAll ops).record? key = some record := by
  obtain ⟨record', hr', rfl | hlt⟩ := hs.later hr
  · exact hr'
  · rw [versionAt_eq hr'] at h; omega

end CursorCommit.Store

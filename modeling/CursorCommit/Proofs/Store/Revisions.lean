/-
  What the revisions of a store tell over a whole run.

  An operation touches a key iff it writes there or removes the record that is
  there (`touches_cases`).  Each touch leaves a revision that is newer than the
  store, or none at all, so a key that is at a revision again was not touched
  (`untouched_of_revisionAt_eq`): neither a removal nor a record that is
  created anew can bring a revision back.

  `revision_stands_for_record` has this for every run from the empty store,
  with the order of versions and revisions in every store on the way.
-/
import CursorCommit.Proofs.Store.Succession

namespace CursorCommit

theorem Table.filter_eq_self {α : Type} {t : Table α} {p : String → Bool}
    (h : ∀ key value, t.find? key = some value → p key = true) : t.filter p = t := by
  obtain ⟨es, hes⟩ := t
  have hp : es.filter (fun e => p e.1) = es :=
    List.filter_eq_self.2 fun e he => h e.1 e.2 ((mem_entries_iff ⟨es, hes⟩).1 he)
  simp only [filter, hp]

namespace Store

variable {s : Store} {key : String} {op : StoreOp} {ops : List StoreOp}

/-! ## Operations that touch a key -/

/-- Whether the operation writes at the key: a put that succeeds, or a
    compare-and-set that answers that it wrote. -/
def writesTo (s : Store) (key : String) : StoreOp → Bool
  | .put k bytes => k == key && (s.put k bytes).isOk
  | .compareAndSet k version bytes guards =>
    k == key && (s.compareAndSet k version bytes guards).toOption.any Prod.fst
  | _ => false

/-- Whether the operation removes the record at the key: a deletion that
    succeeds, where there is one. -/
def removes (s : Store) (key : String) : StoreOp → Bool
  | .delete k => k == key && (s.delete k).isOk && (s.record? key).isSome
  | .deletePrefix start =>
    Text.startsWith start key && (s.deletePrefix start).isOk && (s.record? key).isSome
  | _ => false

/-- Whether the operation writes at the key, or removes its record. -/
def touches (s : Store) (key : String) (op : StoreOp) : Bool :=
  s.writesTo key op || s.removes key op

theorem touches_of_unavailable (h : s.available = false) (key : String) (op : StoreOp) :
    s.touches key op = false := by
  cases op <;>
    simp [touches, writesTo, removes, put, delete, deletePrefix, compareAndSet, whenAvailable, h,
      Except.isOk, Except.toBool, Except.toOption]

theorem writesTo_of_available (h : s.available = true) (key : String) (op : StoreOp) :
    s.writesTo key op = match op with
      | .put k _ => k == key
      | .compareAndSet k version _ guards => k == key && s.admits k version guards
      | _ => false := by
  cases op with
  | compareAndSet k version bytes guards =>
    simp only [writesTo, compareAndSet, whenAvailable, h, if_true]
    cases s.admits k version guards <;> rfl
  | _ => simp [writesTo, put, whenAvailable, h, Except.isOk, Except.toBool]

theorem removes_of_available (h : s.available = true) (key : String) (op : StoreOp) :
    s.removes key op = match op with
      | .delete k => k == key && (s.record? key).isSome
      | .deletePrefix start => Text.startsWith start key && (s.record? key).isSome
      | _ => false := by
  cases op <;>
    simp [removes, delete, deletePrefix, whenAvailable, h, Except.isOk, Except.toBool]

/-- To go by `keep` makes no difference at a key that is kept or absent. -/
theorem record?_retain_of_imp {keep : String → Bool}
    (h : (s.record? key).isSome = true → keep key = true) :
    (s.retain keep).record? key = s.record? key := by
  rw [record?_retain]
  split
  · rfl
  · next hk => rw [eq_comm, ← Option.not_isSome_iff_eq_none]; exact mt h hk

/-- **What an operation does at a key.** -/
theorem touches_cases (s : Store) (key : String) (op : StoreOp) :
    (s.writesTo key op = true ∧ ∃ bytes, s.after op = s.write key bytes) ∨
      (s.removes key op = true ∧ (s.after op).record? key = none) ∨
      (s.touches key op = false ∧ (s.after op).record? key = s.record? key) := by
  cases ha : s.available with
  | false =>
    refine Or.inr (Or.inr ⟨touches_of_unavailable ha key op, ?_⟩)
    rw [after_of_unavailable ha]
    cases op <;> rfl
  | true =>
    rw [touches, after_of_available ha, writesTo_of_available ha, removes_of_available ha]
    cases op with
    | put k bytes =>
      by_cases hk : k = key
      · subst hk
        exact Or.inl ⟨beq_self_eq_true k, bytes, rfl⟩
      · refine Or.inr (Or.inr ⟨by simp [hk], ?_⟩)
        rw [record?_write, if_neg (Ne.symm hk)]
    | compareAndSet k version bytes guards =>
      simp only
      by_cases hk : k = key ∧ s.admits k version guards = true
      · obtain ⟨rfl, hadmits⟩ := hk
        exact Or.inl ⟨by simp [hadmits], bytes, if_pos hadmits⟩
      · refine Or.inr (Or.inr ⟨by simpa using hk, ?_⟩)
        split
        · next hadmits => rw [record?_write, if_neg fun he => hk ⟨he.symm, hadmits⟩]
        · rfl
    | delete k =>
      by_cases hk : k = key ∧ (s.record? key).isSome = true
      · refine Or.inr (Or.inl ⟨by simp [hk], ?_⟩)
        rw [record?_retain, if_neg (by simp [hk.1])]
      · refine Or.inr (Or.inr ⟨by simpa using hk, record?_retain_of_imp fun hsome => ?_⟩)
        simpa using fun he : key = k => hk ⟨he.symm, hsome⟩
    | deletePrefix start =>
      by_cases hk : Text.startsWith start key = true ∧ (s.record? key).isSome = true
      · refine Or.inr (Or.inl ⟨by simp [hk], ?_⟩)
        rw [record?_retain, if_neg (by simp [hk.1])]
      · refine Or.inr (Or.inr ⟨by simpa using hk, record?_retain_of_imp fun hsome => ?_⟩)
        simpa using fun he : Text.startsWith start key = true => hk ⟨he, hsome⟩
    | setAvailable a => exact Or.inr (Or.inr ⟨rfl, rfl⟩)

/-- None of the operations touches the key. -/
def Untouched (key : String) : Store → List StoreOp → Prop
  | _, [] => True
  | s, op :: ops => s.touches key op = false ∧ Untouched key (s.after op) ops

theorem Untouched.record?_eq {between : List StoreOp} (h : Untouched key s ops)
    (hb : between <+: ops) : (s.afterAll between).record? key = s.record? key := by
  induction ops generalizing s between with
  | nil => rw [List.prefix_nil.1 hb, afterAll_nil]
  | cons op ops ih =>
    cases between with
    | nil => rfl
    | cons op' between =>
      obtain ⟨rfl, hrest⟩ := List.cons_prefix_cons.1 hb
      obtain ⟨hop, hops⟩ := h
      rw [afterAll_cons, ih hops hrest]
      rcases touches_cases s key op' with ⟨hw, -⟩ | ⟨hr, -⟩ | ⟨-, hsame⟩
      · rw [touches, hw] at hop; cases hop
      · rw [touches, hr, Bool.or_true] at hop; cases hop
      · exact hsame

/-! ## Operations without an effect -/

/-- Whether the operation is carried out, whatever it answers. -/
def carriesOut (s : Store) : StoreOp → Bool
  | .put key bytes => (s.put key bytes).isOk
  | .delete key => (s.delete key).isOk
  | .deletePrefix start => (s.deletePrefix start).isOk
  | .compareAndSet key version bytes guards => (s.compareAndSet key version bytes guards).isOk
  | .setAvailable _ => true

theorem carriesOut_eq_false_iff :
    s.carriesOut op = false ↔ s.available = false ∧ ∀ a, op ≠ .setAvailable a := by
  cases ha : s.available <;> cases op <;>
    simp [carriesOut, put, delete, deletePrefix, compareAndSet, whenAvailable, ha, Except.isOk,
      Except.toBool]

/-- The operation fails, answers that it did not write, or matches nothing. -/
inductive Idle (s : Store) : StoreOp → Prop where
  | failed {op : StoreOp} (h : s.carriesOut op = false) : Idle s op
  | refused {key : String} {version : Int} {bytes : List UInt8} {guards : List Guard} {s' : Store}
      (h : s.compareAndSet key version bytes guards = .ok (false, s')) :
      Idle s (.compareAndSet key version bytes guards)
  | absent {key : String} (h : s.record? key = none) : Idle s (.delete key)
  | unmatched {start : String}
      (h : ∀ key, Text.startsWith start key = true → s.record? key = none) :
      Idle s (.deletePrefix start)

theorem retain_eq_self {keep : String → Bool}
    (h : ∀ key record, s.record? key = some record → keep key = true) : s.retain keep = s := by
  have hkept : s.records.filter keep = s.records := Table.filter_eq_self h
  simp only [retain, hkept, if_true]

/-- **An operation without an effect** leaves the store as it is. -/
theorem Idle.after_eq (h : s.Idle op) : s.after op = s := by
  cases h with
  | failed h =>
    rw [carriesOut_eq_false_iff] at h
    rw [after_of_unavailable h.1]
    cases op with
    | setAvailable a => exact absurd rfl (h.2 a)
    | _ => rfl
  | @refused key version bytes guards s' h =>
    simp only [compareAndSet, whenAvailable] at h
    split at h
    · next ha =>
      rw [after_of_available ha]
      simp only [Except.ok.injEq] at h
      split at h
      · cases h
      · next hno => exact if_neg hno
    · cases h
  | absent h =>
    cases ha : s.available with
    | false => rw [after_of_unavailable ha]
    | true =>
      rw [after_of_available ha]
      refine retain_eq_self fun k record hr => ?_
      rw [bne_iff_ne]
      rintro rfl
      rw [h] at hr
      cases hr
  | unmatched h =>
    cases ha : s.available with
    | false => rw [after_of_unavailable ha]
    | true =>
      rw [after_of_available ha]
      refine retain_eq_self fun k record hr => ?_
      rw [Bool.not_eq_true', Bool.eq_false_iff]
      intro he
      rw [h k he] at hr
      cases hr

/-! ## Stamps -/

theorem revision_after_le (s : Store) (op : StoreOp) : (s.after op).revision ≤ s.revision + 1 := by
  rcases after_cases s op with ⟨a, h⟩ | ⟨key, bytes, h⟩ | ⟨keep, h⟩ <;> rw [h]
  · exact Nat.le_succ _
  · exact le_rfl
  · simp only [retain]; split <;> omega

theorem revision_afterAll_le (s : Store) (ops : List StoreOp) :
    (s.afterAll ops).revision ≤ s.revision + ops.length := by
  induction ops generalizing s with
  | nil => exact le_rfl
  | cons op ops ih =>
    have := revision_after_le s op
    have := ih (s.after op)
    rw [afterAll_cons, List.length_cons]
    omega

/-- Versions and revisions are in order, and no two records share a
    revision. -/
structure Stamped (s : Store) : Prop extends Sound s where
  distinct : ∀ k k' r r', s.record? k = some r → s.record? k' = some r' →
    r.revision = r'.revision → k = k'

theorem Stamped.write (hs : s.Stamped) (key : String) (bytes : List UInt8) :
    (s.write key bytes).Stamped := by
  refine ⟨hs.toSound.write key bytes, fun k k' r r' hr hr' he => ?_⟩
  rw [record?_write] at hr hr'
  split at hr <;> split at hr'
  · next hk hk' => exact hk.trans hk'.symm
  · next hk hk' =>
    cases hr
    have := hs.revision_le k' r' hr'
    simp only at he
    omega
  · next hk hk' =>
    cases hr'
    have := hs.revision_le k r hr
    simp only at he
    omega
  · exact hs.distinct k k' r r' hr hr' he

theorem Stamped.after (hs : s.Stamped) (op : StoreOp) : (s.after op).Stamped := by
  rcases after_cases s op with ⟨a, h⟩ | ⟨key, bytes, h⟩ | ⟨keep, h⟩
  · rw [h]
    exact ⟨h ▸ hs.toSound.after op, hs.distinct⟩
  · rw [h]
    exact hs.write key bytes
  · rw [h]
    exact ⟨hs.toSound.retain keep, fun k k' r r' hr hr' he =>
      hs.distinct k k' r r' (record?_of_retain hr) (record?_of_retain hr') he⟩

theorem Stamped.afterAll (hs : s.Stamped) (ops : List StoreOp) : (s.afterAll ops).Stamped := by
  induction ops generalizing s with
  | nil => exact hs
  | cons op ops ih => exact ih (hs.after op)

theorem stamped_empty : empty.Stamped :=
  ⟨sound_empty, fun k k' r r' hr => by cases hr⟩

/-! ## Revisions over a run -/

theorem Sound.revisionAt_le (hs : s.Sound) (key : String) : s.revisionAt key ≤ s.revision := by
  unfold revisionAt
  cases h : s.record? key with
  | none => exact Nat.zero_le _
  | some record => exact hs.revision_le key record h

theorem revisionAt_afterAll_newer {n : Nat} (key : String) (ops : List StoreOp)
    (hn : n ≤ s.revision) (h : s.revisionAt key = 0 ∨ n < s.revisionAt key) :
    (s.afterAll ops).revisionAt key = 0 ∨ n < (s.afterAll ops).revisionAt key := by
  rcases (succeeds_afterAll s ops).same_or_newer key with he | hnew
  · rwa [revisionAt, he]
  · cases hr : (s.afterAll ops).record? key with
    | none => exact Or.inl (by simp [revisionAt, hr])
    | some record =>
      rw [revisionAt_eq hr]
      exact Or.inr (hn.trans_lt (hnew record hr))

/-- **A revision does not come back** at a key that is touched. -/
theorem untouched_of_revisionAt_eq (hs : s.Sound) (hpos : s.revisionAt key ≠ 0)
    (h : (s.afterAll ops).revisionAt key = s.revisionAt key) : Untouched key s ops := by
  induction ops generalizing s with
  | nil => trivial
  | cons op ops ih =>
    rw [afterAll_cons] at h
    have hle := hs.revisionAt_le key
    have hnewer := revisionAt_afterAll_newer key ops (succeeds_after s op).revision_le
    rcases touches_cases s key op with ⟨-, bytes, he⟩ | ⟨-, hnone⟩ | ⟨hop, hsame⟩
    · have hnew : s.revision < (s.after op).revisionAt key := by
        simp [he, revisionAt, record?_write]
      have := hnewer (Or.inr hnew)
      omega
    · have := hnewer (Or.inl (by simp [revisionAt, hnone]))
      omega
    · have hat : (s.after op).revisionAt key = s.revisionAt key := by
        rw [revisionAt, hsame, revisionAt]
      exact ⟨hop, ih (hs.after op) (hat ▸ hpos) (h.trans hat.symm)⟩

/-- **What a revision tells**, in every run from the empty store.  Versions and
    revisions are in order and no two records share one, and the store's own
    counts at most the operations.  A key that is at the revision of a record
    again had this record all the time and was not touched.  An operation
    without an effect leaves the store as it is. -/
theorem revision_stands_for_record (past ops : List StoreOp) :
    let s := empty.afterAll past
    (s.Stamped ∧ s.revision ≤ past.length) ∧
      (∀ key, s.revisionAt key ≠ 0 → (s.afterAll ops).revisionAt key = s.revisionAt key →
        Untouched key s ops ∧ ∃ record, ∀ between, between <+: ops →
          (s.afterAll between).record? key = some record) ∧
      ∀ op, s.Idle op → s.after op = s := by
  intro s
  have hs : s.Stamped := stamped_empty.afterAll past
  have hcount : s.revision ≤ 0 + past.length := revision_afterAll_le empty past
  refine ⟨⟨hs, by omega⟩, ?_, fun op => Idle.after_eq⟩
  intro key hpos h
  have hu := untouched_of_revisionAt_eq hs.toSound hpos h
  cases hr : s.record? key with
  | none => simp [revisionAt, hr] at hpos
  | some record => exact ⟨hu, record, fun between hb => (hu.record?_eq hb).trans hr⟩

/-- A record that was created anew keeps its revision past a write elsewhere
    and a refused one. -/
theorem recreated_record_kept :
    let s := empty.afterAll [.put "a" [1], .delete "a", .put "a" [2]]
    let ops := [.put "b" [3], .compareAndSet "a" 2 [4] []]
    (s.revisionAt "a" ≠ 0 ∧ (s.afterAll ops).revisionAt "a" = s.revisionAt "a") ∧
      (Untouched "a" s ops ∧ ∃ record, ∀ between, between <+: ops →
        (s.afterAll between).record? "a" = some record) ∧
      s.Idle (.delete "b") ∧ s.after (.delete "b") = s := by
  intro s ops
  obtain ⟨-, hkept, hidle⟩ := revision_stands_for_record
    [.put "a" [1], .delete "a", .put "a" [2]] ops
  have hpos : s.revisionAt "a" ≠ 0 := by decide +kernel
  have hagain : (s.afterAll ops).revisionAt "a" = s.revisionAt "a" := by decide +kernel
  have habsent : s.Idle (.delete "b") := .absent (by decide +kernel)
  exact ⟨⟨hpos, hagain⟩, hkept "a" hpos hagain, habsent, hidle _ habsent⟩

end Store

end CursorCommit

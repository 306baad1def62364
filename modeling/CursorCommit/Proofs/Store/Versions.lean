/-
  What the versions of a store tell over a whole run.

  At every moment the version at a key is the number of writes there since the
  key was last absent (`exists_presentSince`): one step adds a write, begins
  anew or changes nothing.  So a version is passed for good once it was written
  over, until a removal, and of several compare-and-sets that expect one
  version at most one writes in between (`version_counts_writes`).
-/
import CursorCommit.Proofs.Store.Revisions
import Mathlib.Data.List.Induction

namespace CursorCommit.Store

variable {s s' : Store} {key : String} {op : StoreOp} {ops : List StoreOp}

/-! ## Counting writes -/

/-- The number of the operations that write at the key. -/
def writeCount (key : String) : Store → List StoreOp → Nat
  | _, [] => 0
  | s, op :: ops => (s.writesTo key op).toNat + writeCount key (s.after op) ops

theorem writeCount_concat (s : Store) (ops : List StoreOp) (op : StoreOp) :
    writeCount key s (ops ++ [op]) =
      writeCount key s ops + ((s.afterAll ops).writesTo key op).toNat := by
  induction ops generalizing s with
  | nil => simp [writeCount]
  | cons op' ops ih => simp only [List.cons_append, writeCount, ih, afterAll_cons, Nat.add_assoc]

/-- The key is absent before the operations, and there after each of them. -/
def PresentSince (key : String) (s : Store) (ops : List StoreOp) : Prop :=
  s.record? key = none ∧ ∀ between, between <+: ops → between ≠ [] →
    ((s.afterAll between).record? key).isSome = true

theorem presentSince_nil (h : s.record? key = none) : PresentSince key s [] :=
  ⟨h, fun _ hb hne => absurd (List.prefix_nil.1 hb) hne⟩

theorem PresentSince.concat (h : PresentSince key s ops)
    (hsome : (((s.afterAll ops).after op).record? key).isSome = true) :
    PresentSince key s (ops ++ [op]) := by
  refine ⟨h.1, fun between hb hne => ?_⟩
  rcases List.prefix_concat_iff.1 hb with rfl | hb
  · rwa [afterAll_append]
  · exact h.2 between hb hne

/-- A step adds its write to the version at a key, unless it leaves the key
    absent. -/
theorem versionAt_after (hsome : ((s.after op).record? key).isSome = true) :
    (s.after op).versionAt key = s.versionAt key + (s.writesTo key op).toNat := by
  rcases touches_cases s key op with ⟨hw, bytes, he⟩ | ⟨-, hnone⟩ | ⟨hno, hsame⟩
  · rw [hw, he, versionAt, record?_write, if_pos rfl]
    rfl
  · rw [hnone] at hsome
    cases hsome
  · have hw : s.writesTo key op = false := (Bool.or_eq_false_iff.1 hno).1
    rw [hw, versionAt, hsame]
    rfl

/-- **A version counts the writes** since the key was last absent. -/
theorem exists_presentSince (hs : s.record? key = none) (ops : List StoreOp) :
    ∃ before since, ops = before ++ since ∧ PresentSince key (s.afterAll before) since ∧
      (s.afterAll ops).versionAt key = writeCount key (s.afterAll before) since := by
  induction ops using List.reverseRecOn with
  | nil => exact ⟨[], [], rfl, presentSince_nil hs, by simp [versionAt, hs, writeCount]⟩
  | append_singleton ops op ih =>
    obtain ⟨before, since, rfl, hsince, hcount⟩ := ih
    cases hr : ((s.afterAll (before ++ since)).after op).record? key with
    | none =>
      have hnone : (s.afterAll (before ++ since ++ [op])).record? key = none := by
        rw [afterAll_append]
        exact hr
      refine ⟨before ++ since ++ [op], [], (List.append_nil _).symm, presentSince_nil hnone, ?_⟩
      rw [versionAt, hnone]
      rfl
    | some record =>
      have hsome := Option.isSome_iff_exists.2 ⟨record, hr⟩
      refine ⟨before, since ++ [op], List.append_assoc .., hsince.concat ?_, ?_⟩
      · rwa [← afterAll_append]
      · rw [writeCount_concat, ← afterAll_append, ← hcount, ← versionAt_after hsome,
          afterAll_append, afterAll_cons, afterAll_nil]

/-! ## Compare-and-sets at one version -/

theorem exists_removes_of_not_spares (h : ¬ Spares key s ops) :
    ∃ earlier op later, ops = earlier ++ op :: later ∧
      (s.afterAll earlier).removes key op = true := by
  induction ops generalizing s with
  | nil => exact absurd trivial h
  | cons op ops ih =>
    rcases touches_cases s key op with ⟨-, bytes, he⟩ | ⟨hremoves, -⟩ | ⟨-, hsame⟩
    · have hthere : ((s.after op).record? key).isSome = true := by
        rw [he, record?_write, if_pos rfl]
        rfl
      obtain ⟨earlier, op', later, rfl, hop⟩ := ih fun hs => h ⟨fun _ => hthere, hs⟩
      exact ⟨op :: earlier, op', later, rfl, hop⟩
    · exact ⟨[], op, ops, rfl, hremoves⟩
    · obtain ⟨earlier, op', later, rfl, hop⟩ := ih fun hs => h ⟨fun hsome => hsame ▸ hsome, hs⟩
      exact ⟨op :: earlier, op', later, rfl, hop⟩

theorem compareAndSet_eq_ok_true {version : Int} {bytes : List UInt8} {guards : List Guard}
    (h : s.compareAndSet key version bytes guards = .ok (true, s')) :
    (s.versionAt key : Int) = version ∧ s' = s.write key bytes := by
  simp only [compareAndSet, whenAvailable] at h
  split at h
  · simp only [Except.ok.injEq] at h
    split at h
    · next hadmits =>
      cases h
      rw [admits, Bool.and_eq_true, beq_iff_eq] at hadmits
      exact ⟨hadmits.1, rfl⟩
    · cases h
  · cases h

/-- **Each version is written over once**, unless the record is removed: a
    compare-and-set that wrote has left a later version. -/
theorem not_spares_of_compareAndSet {version : Int} {bytes bytes' : List UInt8}
    {guards guards' : List Guard} {s₁ s₂ : Store}
    (h₁ : s.compareAndSet key version bytes guards = .ok (true, s₁))
    (h₂ : (s₁.afterAll ops).compareAndSet key version bytes' guards' = .ok (true, s₂)) :
    ¬ Spares key s₁ ops := by
  intro hspares
  obtain ⟨hv₁, rfl⟩ := compareAndSet_eq_ok_true h₁
  obtain ⟨hv₂, -⟩ := compareAndSet_eq_ok_true h₂
  obtain ⟨record, hr, hlater⟩ := hspares.later
    ((s.record?_write key key bytes).trans (if_pos rfl))
  rw [versionAt_eq hr] at hv₂
  rcases hlater with rfl | hlt
  · simp only at hv₂
    omega
  · simp only at hlt
    omega

/-- **What a version tells**, in every run from the empty store.  The version of
    a record is the number of writes to its key since the key was last absent.
    If two compare-and-sets at a key expect the same version and both answer
    that they wrote, an operation between them removed the record.  One that
    expects version `0` writes at an absent key only. -/
theorem version_counts_writes (past : List StoreOp) :
    let s := empty.afterAll past
    (∀ key record, s.record? key = some record → ∃ before since, past = before ++ since ∧
      PresentSince key (empty.afterAll before) since ∧
        record.version = writeCount key (empty.afterAll before) since) ∧
      (∀ key version bytes guards s₁ between bytes' guards' s₂,
        s.compareAndSet key version bytes guards = .ok (true, s₁) →
        (s₁.afterAll between).compareAndSet key version bytes' guards' = .ok (true, s₂) →
        ∃ earlier op later, between = earlier ++ op :: later ∧
          (s₁.afterAll earlier).removes key op = true) ∧
      ∀ key bytes guards s₁, s.compareAndSet key 0 bytes guards = .ok (true, s₁) →
        s.record? key = none := by
  intro s
  refine ⟨fun key record hr => ?_, ?_, fun key bytes guards s₁ h => ?_⟩
  · obtain ⟨before, since, hpast, hsince, hcount⟩ := exists_presentSince (s := empty) rfl past
    exact ⟨before, since, hpast, hsince, (versionAt_eq hr).symm.trans hcount⟩
  · intro key version bytes guards s₁ between bytes' guards' s₂ h₁ h₂
    exact exists_removes_of_not_spares (not_spares_of_compareAndSet h₁ h₂)
  · obtain ⟨hv, -⟩ := compareAndSet_eq_ok_true h
    cases hr : s.record? key with
    | none => rfl
    | some record =>
      have hpos := (Reachable.empty.afterAll past).sound.version_pos key record hr
      rw [versionAt_eq hr] at hv
      omega

/-- Two compare-and-sets at version `1` write, as the record is removed and
    created anew in between. -/
theorem version_written_over_twice :
    let s := empty.afterAll [.put "a" [1]]
    let between := [.delete "a", .compareAndSet "a" 0 [3] []]
    ∃ s₁ s₂, s.compareAndSet "a" 1 [2] [] = .ok (true, s₁) ∧
      (s₁.afterAll between).compareAndSet "a" 1 [4] [] = .ok (true, s₂) ∧
      ∃ earlier op later, between = earlier ++ op :: later ∧
        (s₁.afterAll earlier).removes "a" op = true := by
  intro s between
  have h₁ : s.compareAndSet "a" 1 [2] [] = .ok (true, s.write "a" [2]) := by decide +kernel
  have h₂ : ((s.write "a" [2]).afterAll between).compareAndSet "a" 1 [4] [] =
      .ok (true, ((s.write "a" [2]).afterAll between).write "a" [4]) := by decide +kernel
  obtain ⟨-, hremoved, -⟩ := version_counts_writes [.put "a" [1]]
  exact ⟨_, _, h₁, h₂, hremoved "a" 1 [2] [] _ between [4] [] _ h₁ h₂⟩

end CursorCommit.Store

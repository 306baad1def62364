/-
  Offsets that others only advance.

  `s'.upholds cmp key s` says that the record at a key is still there in `s'`
  if `s` has one, with the same bytes or a text that compares as at least the
  former one.  Others advance an offset if each of their operations upholds
  it (`Store.Advances`, `Event.Advances`); then so does every part of a run
  that does not write the offset itself (`Linked.upholds`), and what the
  offset had reached it has reached in the end (`exists_textAt?_of_upholds`).
-/
import CursorCommit.Proofs.Commit.Safety

namespace CursorCommit

/-! ## Records and stores -/

/-- Whether the record `new` has the bytes of `old`, or a text that compares as
    at least that of `old`. -/
def Record.upholds (cmp : Comparator) (new old : Record) : Bool :=
  new.bytes == old.bytes ||
    match old.text, new.text with
    | .ok x, .ok y => cmp.reaches y x
    | _, _ => false

theorem Record.text_congr {r r' : Record} (h : r.bytes = r'.bytes) : r.text = r'.text := by
  rw [text, text, h]

theorem Record.upholds_iff {cmp : Comparator} {new old : Record} :
    new.upholds cmp old = true ↔ new.bytes = old.bytes ∨
      ∃ x y, old.text = .ok x ∧ new.text = .ok y ∧ cmp.reaches y x = true := by
  unfold upholds
  cases old.text <;> cases new.text <;> simp

theorem Record.upholds_trans {cmp : Comparator} {r₁ r₂ r₃ : Record}
    (h : r₂.upholds cmp r₁ = true) (h' : r₃.upholds cmp r₂ = true) :
    r₃.upholds cmp r₁ = true := by
  rw [upholds_iff] at h h' ⊢
  rcases h with h | ⟨x, y, hx, hy, hr⟩
  · rcases h' with h' | ⟨y, z, hy, hz, hr'⟩
    · exact Or.inl (h'.trans h)
    · exact Or.inr ⟨y, z, (text_congr h).symm.trans hy, hz, hr'⟩
  · rcases h' with h' | ⟨y', z, hy', hz, hr'⟩
    · exact Or.inr ⟨x, y, hx, (text_congr h').trans hy, hr⟩
    · rw [hy] at hy'; cases hy'
      exact Or.inr ⟨x, z, hx, hz, Comparator.reaches_trans hr' hr⟩

namespace Store

variable {cmp : Comparator} {key : String} {s s' s'' : Store}

/-- Whether the record at the key is still there in `s'`, if `s` has one, and
    upholds it. -/
def upholds (s' : Store) (cmp : Comparator) (key : String) (s : Store) : Bool :=
  (s.record? key).all fun old => (s'.record? key).any fun new => new.upholds cmp old

theorem upholds_iff : s'.upholds cmp key s = true ↔ ∀ old, s.record? key = some old →
    ∃ new, s'.record? key = some new ∧ new.upholds cmp old = true := by
  simp [upholds, Option.all_eq_true, Option.any_eq_true]

theorem upholds_of_record?_eq (h : s'.record? key = s.record? key) :
    s'.upholds cmp key s = true := by
  refine upholds_iff.2 fun old hold => ⟨old, h.trans hold, ?_⟩
  exact Record.upholds_iff.2 (Or.inl rfl)

theorem upholds_trans (h : s'.upholds cmp key s = true) (h' : s''.upholds cmp key s' = true) :
    s''.upholds cmp key s = true := by
  refine upholds_iff.2 fun r₁ h₁ => ?_
  obtain ⟨r₂, h₂, h₁₂⟩ := upholds_iff.1 h r₁ h₁
  obtain ⟨r₃, h₃, h₂₃⟩ := upholds_iff.1 h' r₂ h₂
  exact ⟨r₃, h₃, Record.upholds_trans h₁₂ h₂₃⟩

/-- **What an offset had reached**, it has reached where it is upheld. -/
theorem exists_textAt?_of_upholds {x : String} (h : s'.upholds cmp key s = true)
    (hx : s.textAt? key = some x) :
    ∃ y, s'.textAt? key = some y ∧ ∀ z, cmp.reaches x z = true → cmp.reaches y z = true := by
  obtain ⟨old, hold, ht⟩ := textAt?_eq_some_iff.1 hx
  obtain ⟨new, hnew, hup⟩ := upholds_iff.1 h old hold
  rcases Record.upholds_iff.1 hup with hb | ⟨x', y, hx', hy, hr⟩
  · exact ⟨x, textAt?_eq hnew ((Record.text_congr hb).trans ht), fun _ => id⟩
  · rw [ht] at hx'; cases hx'
    exact ⟨y, textAt?_eq hnew hy, fun z hz => Comparator.reaches_trans hr hz⟩

/-- Each of the operations upholds the offset at the key. -/
def Advances (cmp : Comparator) (key : String) : Store → List StoreOp → Prop
  | _, [] => True
  | s, op :: ops => (s.after op).upholds cmp key s = true ∧ Advances cmp key (s.after op) ops

instance decidableAdvances (cmp : Comparator) (key : String) :
    ∀ s ops, Decidable (Advances cmp key s ops)
  | _, [] => .isTrue trivial
  | s, op :: ops =>
    have := decidableAdvances cmp key (s.after op) ops
    inferInstanceAs (Decidable (_ ∧ _))

/-- **Operations that advance an offset** uphold it. -/
theorem Advances.upholds {ops : List StoreOp} (h : Advances cmp key s ops) :
    (s.afterAll ops).upholds cmp key s = true := by
  induction ops generalizing s with
  | nil => exact upholds_of_record?_eq rfl
  | cons op ops ih => exact upholds_trans h.1 (ih h.2)

end Store

/-! ## Events -/

namespace Event

variable {cmp : Comparator} {key : String}

/-- The others only advance the offset at the key during the event. -/
def Advances (cmp : Comparator) (key : String) : Event → Prop
  | .store _ _ frame => frame.opening.Advances cmp key frame.others
  | _ => True

instance (cmp : Comparator) (key : String) : DecidablePred (Advances cmp key)
  | .store _ _ frame => Store.decidableAdvances cmp key frame.opening frame.others
  | .eventType .. | .subscription .. | .token _ | .tick _ => .isTrue trivial

theorem entries_cons (e : Event) (tr : List Event) :
    entries (e :: tr) = entries [e] ++ entries tr :=
  entries_append [e] tr

theorem Moves.upholds {d : Directory} {s s' : Store} {e : Event} (h : e.Moves d s s')
    (hno : (entries [e]).filter (fun entry => entry.1 = key) = []) (ha : e.Advances cmp key) :
    s'.upholds cmp key s = true := by
  cases h with
  | @store call answer frame hf =>
    have hothers : frame.before.upholds cmp key frame.opening = true := by
      rw [hf.before]
      exact Store.Advances.upholds ha
    refine Store.upholds_trans hothers (Store.upholds_of_record?_eq ?_)
    rcases hf.after_cases with ⟨-, hafter⟩ | ⟨k, bytes, hw, hafter⟩
    · rw [hafter]
    · have hk : key ≠ k := by
        rintro rfl
        simp [entries, writes, hw] at hno
      rw [hafter, Store.record?_write, if_neg hk]
  | _ => exact Store.upholds_of_record?_eq rfl

end Event

namespace Linked

variable {cmp : Comparator} {key : String} {d : Directory} {s s' : Store} {tr : List Event}

/-- **Events that do not write the offset uphold it**, if the others only
    advance it. -/
theorem upholds (h : Linked d s tr s')
    (hno : (Event.entries tr).filter (fun entry => entry.1 = key) = [])
    (ha : ∀ e ∈ tr, e.Advances cmp key) : s'.upholds cmp key s = true := by
  induction h with
  | nil => exact Store.upholds_of_record?_eq rfl
  | @cons s s₁ s' e tr he _ ih =>
    rw [Event.entries_cons, List.filter_append, List.append_eq_nil_iff] at hno
    obtain ⟨hae, hatr⟩ := List.forall_mem_cons.1 ha
    exact Store.upholds_trans (he.upholds hno.1 hae) (ih hno.2 hatr)

/-- **What an offset had reached after a call**, it has reached in the end, if
    it is not written any more and the others only advance it. -/
theorem exists_textAt?_of_later {past rest : List Event} {call : StoreCall}
    {answer : Except StoreError call.Answer} {frame : Frame} {x : String}
    (h : Linked d s (past ++ .store call answer frame :: rest) s')
    (hno : (Event.entries rest).filter (fun entry => entry.1 = key) = [])
    (ha : ∀ e ∈ rest, e.Advances cmp key) (hx : frame.after.textAt? key = some x) :
    ∃ y, s'.textAt? key = some y ∧ ∀ z, cmp.reaches x z = true → cmp.reaches y z = true := by
  obtain ⟨m, -, h⟩ := h.split
  cases h with
  | cons he hrest =>
    cases he with
    | store _ => exact Store.exists_textAt?_of_upholds (hrest.upholds hno ha) hx

end Linked

theorem Event.exists_write_of_entries_eq {tr : List Event} {key : String} {bytes : List UInt8}
    (h : (entries tr).filter (fun entry => entry.1 = key) = [(key, bytes)]) :
    ∃ past rest version guards frame,
      tr = past ++ .store (.compareAndSet key version bytes guards) (.ok true) frame :: rest ∧
        (entries rest).filter (fun entry => entry.1 = key) = [] := by
  have hmem : (key, bytes) ∈ entries tr :=
    (List.mem_filter.1 (by rw [h]; exact List.mem_singleton_self _)).1
  obtain ⟨wr, hwr, hentry⟩ := List.mem_map.1 hmem
  obtain ⟨e, he, hw⟩ := List.mem_filterMap.1 hwr
  obtain ⟨past, rest, rfl⟩ := List.append_of_mem he
  have hone : entries [e] = [(key, bytes)] := by
    simp [entries, writes, hw, hentry]
  rw [entries_append, entries_cons, hone, List.filter_append, List.filter_append] at h
  have hrest : (entries rest).filter (fun entry => entry.1 = key) = [] := by
    have hl := congrArg List.length h
    simp only [List.length_append, List.filter_cons, List.filter_nil, decide_true, if_true,
      List.length_singleton] at hl
    exact List.length_eq_zero_iff.1 (by omega)
  unfold write? at hw
  split at hw
  · cases hw
    cases hentry
    exact ⟨past, rest, _, _, _, rfl, hrest⟩
  · cases hw

end CursorCommit

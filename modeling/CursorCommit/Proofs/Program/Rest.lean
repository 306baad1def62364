/-
  Runs in which nobody else acts.

  `x.Looks d look` says of an action that it only looks things up: in a store
  at rest it answers what `look` makes of the store, and leaves everything as
  it was.  Sequences and loops of such actions are such actions again
  (`Looks.bind`, `Looks.mapM`); so a phase that only reads comes down to a
  computation on the store that it meets.
-/
import CursorCommit.Program.Run
import CursorCommit.Proofs.Lists

namespace CursorCommit

variable {α β : Type} {d : Directory}

/-- The record at a key, as an action finds it. -/
def Store.look (s : Store) (key : String) : Except Error (Option Record) :=
  (s.get key).mapError Error.ofStore

theorem Store.look_eq_ok_iff {s : Store} {key : String} {o : Option Record} :
    s.look key = .ok o ↔ s.available = true ∧ s.record? key = o := by
  unfold look get whenAvailable
  cases s.available <;> simp

namespace Action

/-- In a store at rest the action answers what `look` makes of the store, and
    leaves everything as it was. -/
def Looks (x : Action α) (d : Directory) (look : Store → Except Error α) : Prop :=
  ∀ (token : Nat → String) (w : World Unit),
    (x.runIn (.undisturbed d token) w).value = look w.store ∧
      (x.runIn (.undisturbed d token) w).world = w

theorem looks_of (r : Except Error α) : (of r).Looks d fun _ => r :=
  fun _ _ => ⟨rfl, rfl⟩

theorem looks_pure (a : α) : (pure a : Action α).Looks d fun _ => .ok a :=
  fun _ _ => ⟨rfl, rfl⟩

theorem looks_fail (e : Error) : (fail e : Action α).Looks d fun _ => .error e :=
  fun _ _ => ⟨rfl, rfl⟩

theorem looks_get (key : String) : (store (.get key)).Looks d fun s => s.look key :=
  fun _ _ => ⟨rfl, rfl⟩

theorem looks_subscription (id : String) :
    (subscription id).Looks d fun _ => (d.subscription id).mapError Error.resolution :=
  fun _ _ => ⟨rfl, rfl⟩

theorem Looks.congr {x : Action α} {look look' : Store → Except Error α} (h : x.Looks d look)
    (he : ∀ s, look s = look' s) : x.Looks d look' := by
  intro token w
  rw [← he]
  exact h token w

/-- **Looks follow one another** in the store that the first one leaves as it
    was. -/
theorem Looks.bind {x : Action α} {f : α → Action β} {look : Store → Except Error α}
    {look' : α → Store → Except Error β} (hx : x.Looks d look) (hf : ∀ a, (f a).Looks d (look' a)) :
    (x >>= f).Looks d fun s => look s >>= fun a => look' a s := by
  intro token w
  obtain ⟨hv, hw⟩ := hx token w
  show _ = look w.store >>= _ ∧ _
  cases hl : look w.store with
  | error e =>
    rw [runIn_bind_error _ (hv.trans hl)]
    exact ⟨rfl, hw⟩
  | ok a =>
    rw [runIn_bind_ok _ (hv.trans hl), hw]
    exact hf a token w

theorem Looks.ite {p : Prop} [Decidable p] {x y : Action α} {look look' : Store → Except Error α}
    (hx : x.Looks d look) (hy : y.Looks d look') :
    (if p then x else y).Looks d fun s => if p then look s else look' s := by
  by_cases hp : p
  · simpa only [if_pos hp] using hx
  · simpa only [if_neg hp] using hy

theorem Looks.mapM {f : α → Action β} {look : α → Store → Except Error β}
    (hf : ∀ a, (f a).Looks d (look a)) (as : List α) :
    (as.mapM f).Looks d fun s => as.mapM fun a => look a s := by
  induction as with
  | nil => exact looks_pure []
  | cons a as ih =>
    simp only [List.mapM_cons]
    exact (hf a).bind fun b => ih.bind fun bs => looks_pure (b :: bs)

end Action

end CursorCommit

/-
  Reads of cursors in which nobody else acts.

  A read comes down to a computation on the store that it meets, and a run of
  tokens: it answers the cursors that `cursorsIn` finds in the store, one token
  after the other on them, and leaves the store as it was (`runIn_cursors`).

  `x.HandsOut d look` says this of any action that answers cursors; what such
  an action looks up first, and what it hands out later, follows by
  `HandsOut.of_looks` and `HandsOut.append`.
-/
import CursorCommit.Proofs.Cursor.Lookups
import CursorCommit.Proofs.Offset.Listing
import CursorCommit.Read

namespace CursorCommit

variable {α : Type} {d : Directory}

/-! ## Tokens -/

namespace Cursor

/-- The cursors with tokens on them, from the `n`-th token on. -/
def stamp (token : Nat → String) : (n : Nat) → List Cursor → List Cursor
  | _, [] => []
  | n, cursor :: rest => { cursor with token := token n } :: stamp token (n + 1) rest

variable {token : Nat → String} {n : Nat} {cursors cursors' : List Cursor}

@[simp] theorem length_stamp : (stamp token n cursors).length = cursors.length := by
  induction cursors generalizing n with
  | nil => rfl
  | cons cursor rest ih => rw [stamp, List.length_cons, ih, List.length_cons]

theorem stamp_append : stamp token n (cursors ++ cursors') =
    stamp token n cursors ++ stamp token (n + cursors.length) cursors' := by
  induction cursors generalizing n with
  | nil => rfl
  | cons cursor rest ih =>
    rw [List.cons_append, stamp, ih, stamp, List.length_cons, List.cons_append, Nat.add_right_comm,
      Nat.add_assoc]

/-- **The tokens** are handed out one after the other. -/
theorem map_token_stamp : (stamp token n cursors).map Cursor.token =
    (List.range' n cursors.length).map token := by
  induction cursors generalizing n with
  | nil => rfl
  | cons cursor rest ih => rw [stamp, List.map_cons, ih, List.length_cons, List.range'_succ]; rfl

/-- Lists that are stamped one after the other are stamped each; what tokens
    do not touch holds of them still. -/
theorem exists_stamp_flatten {R : α → List Cursor → Prop} {as : List α}
    {lists : List (List Cursor)} (h : List.Forall₂ R as lists)
    (hR : ∀ a list m, R a list → R a (stamp token m list)) (n : Nat) :
    ∃ stamped, stamp token n lists.flatten = stamped.flatten ∧ List.Forall₂ R as stamped := by
  induction h generalizing n with
  | nil => exact ⟨[], rfl, .nil⟩
  | @cons a list as lists hr _ ih =>
    obtain ⟨stamped, he, hs⟩ := ih (n + list.length)
    refine ⟨stamp token n list :: stamped, ?_, .cons (hR a list n hr) hs⟩
    rw [List.flatten_cons, stamp_append, he, List.flatten_cons]

theorem map_stamp {f : Cursor → α} (hf : ∀ cursor t, f { cursor with token := t } = f cursor) :
    (stamp token n cursors).map f = cursors.map f := by
  induction cursors generalizing n with
  | nil => rfl
  | cons cursor rest ih => rw [stamp, List.map_cons, ih, hf, List.map_cons]

end Cursor

/-! ## Handing out cursors -/

/-- In a store at rest the action answers the cursors that `look` finds in the
    store, with tokens one after the other, and leaves the store as it was. -/
structure Action.HandsOut (x : Action (List Cursor)) (d : Directory)
    (look : Store → Except Error (List Cursor)) : Prop where
  ok : ∀ (token : Nat → String) (w : World Unit) (cursors : List Cursor),
    look w.store = .ok cursors →
      (x.runIn (.undisturbed d token) w).value = .ok (Cursor.stamp token w.tokens cursors) ∧
        (x.runIn (.undisturbed d token) w).world =
          { w with tokens := w.tokens + cursors.length }
  error : ∀ (token : Nat → String) (w : World Unit) (e : Error), look w.store = .error e →
    (x.runIn (.undisturbed d token) w).value = .error e ∧
      (x.runIn (.undisturbed d token) w).world.store = w.store

namespace Action.HandsOut

variable {x y : Action (List Cursor)} {look look' : Store → Except Error (List Cursor)}

theorem exists_of_ok (hx : x.HandsOut d look) {token : Nat → String} {w : World Unit}
    {cursors : List Cursor} (h : (x.runIn (.undisturbed d token) w).value = .ok cursors) :
    ∃ found, look w.store = .ok found ∧ cursors = Cursor.stamp token w.tokens found := by
  cases hl : look w.store with
  | ok found =>
    rw [(hx.ok token w found hl).1] at h
    cases h
    exact ⟨found, rfl, rfl⟩
  | error e =>
    rw [(hx.error token w e hl).1] at h
    cases h

theorem of_error (hx : x.HandsOut d look) {token : Nat → String} {w : World Unit} {e : Error}
    (h : (x.runIn (.undisturbed d token) w).value = .error e) : look w.store = .error e := by
  cases hl : look w.store with
  | ok found =>
    rw [(hx.ok token w found hl).1] at h
    cases h
  | error e' =>
    rw [(hx.error token w e' hl).1] at h
    cases h
    rfl

theorem store (hx : x.HandsOut d look) (token : Nat → String) (w : World Unit) :
    (x.runIn (.undisturbed d token) w).world.store = w.store := by
  cases hl : look w.store with
  | ok found => rw [(hx.ok token w found hl).2]
  | error e => exact (hx.error token w e hl).2

theorem nil : (pure [] : Action (List Cursor)).HandsOut d fun _ => .ok [] where
  ok _ _ _ h := by cases h; exact ⟨rfl, rfl⟩
  error _ _ _ h := by cases h

theorem of_looks {z : Action α} {seen : Store → Except Error α} {f : α → Action (List Cursor)}
    {found : α → Store → Except Error (List Cursor)} (hz : z.Looks d seen)
    (hf : ∀ a, (f a).HandsOut d (found a)) :
    (z >>= f).HandsOut d fun s => seen s >>= fun a => found a s where
  ok token w cursors h := by
    obtain ⟨a, ha, h⟩ := except_bind_eq_ok_iff.1 h
    obtain ⟨hv, hw⟩ := hz token w
    rw [runIn_bind_ok _ (hv.trans ha), hw]
    exact (hf a).ok token w cursors h
  error token w e h := by
    obtain ⟨hv, hw⟩ := hz token w
    rcases except_bind_eq_error_iff.1 h with hs | ⟨a, ha, h⟩
    · rw [runIn_bind_error _ (hv.trans hs), hw]
      exact ⟨rfl, rfl⟩
    · rw [runIn_bind_ok _ (hv.trans ha), hw]
      exact (hf a).error token w e h

/-- **What is handed out later** goes on with the tokens. -/
theorem append (hx : x.HandsOut d look) (hy : y.HandsOut d look') :
    (x >>= fun cursors => y >>= fun cursors' => pure (cursors ++ cursors')).HandsOut d fun s =>
      look s >>= fun cursors => look' s >>= fun cursors' => .ok (cursors ++ cursors') where
  ok token w all h := by
    obtain ⟨cursors, hl, h⟩ := except_bind_eq_ok_iff.1 h
    obtain ⟨cursors', hl', h⟩ := except_bind_eq_ok_iff.1 h
    cases h
    obtain ⟨hv, hw⟩ := hx.ok token w cursors hl
    rw [runIn_bind_ok _ hv, hw]
    obtain ⟨hv', hw'⟩ := hy.ok token { w with tokens := w.tokens + cursors.length } cursors' hl'
    rw [runIn_bind_ok _ hv', hw', Cursor.stamp_append, List.length_append, ← Nat.add_assoc]
    exact ⟨rfl, rfl⟩
  error token w e h := by
    rcases except_bind_eq_error_iff.1 h with hl | ⟨cursors, hl, h⟩
    · obtain ⟨hv, hw⟩ := hx.error token w e hl
      rw [runIn_bind_error _ hv]
      exact ⟨rfl, hw⟩
    · obtain ⟨hv, hw⟩ := hx.ok token w cursors hl
      rw [runIn_bind_ok _ hv, hw]
      rcases except_bind_eq_error_iff.1 h with hl' | ⟨_, _, h⟩
      · obtain ⟨hv', hw'⟩ :=
          hy.error token { w with tokens := w.tokens + cursors.length } e hl'
        rw [runIn_bind_error _ hv']
        exact ⟨rfl, hw'⟩
      · cases h

theorem mapM {f : α → Action (List Cursor)} {found : α → Store → Except Error (List Cursor)}
    (hf : ∀ a, (f a).HandsOut d (found a)) (as : List α) :
    (as.mapM f >>= fun lists => pure lists.flatten).HandsOut d fun s =>
      (as.mapM fun a => found a s) >>= fun lists => .ok lists.flatten := by
  induction as with
  | nil => exact nil
  | cons a as ih =>
    have h := (hf a).append ih
    simp only [bind_assoc, pure_bind] at h
    simp only [List.mapM_cons, bind_assoc, pure_bind, List.flatten_cons]
    exact h

theorem tick (hx : x.HandsOut d look) (metric : Metric) :
    (x >>= fun cursors => ofProgram (Program.tick metric) >>= fun _ => pure cursors).HandsOut d
      look where
  ok token w cursors h := by
    obtain ⟨hv, hw⟩ := hx.ok token w cursors h
    rw [runIn_bind_ok _ hv, hw]
    exact ⟨rfl, rfl⟩
  error token w e h := by
    obtain ⟨hv, hw⟩ := hx.error token w e h
    rw [runIn_bind_error _ hv]
    exact ⟨rfl, hw⟩

end Action.HandsOut

/-! ## The read -/

namespace Coordinator

variable (c : Coordinator)

/-- The cursor for a committed offset, before it has a token. -/
def bare (eventType : EventType) (committed : String × String) : Cursor :=
  c.cursor eventType ⟨eventType.topic, committed.1, committed.2⟩ ""

/-- The cursors of an event type in a store at rest. -/
def cursorsOfIn (d : Directory) (subscription name : String) (s : Store) :
    Except Error (List Cursor) :=
  d.resolve name >>= fun eventType =>
    c.offsetsIn subscription eventType.topic s >>= fun offsets =>
      .ok (offsets.map (c.bare eventType))

/-- The cursors of a subscription in a store at rest. -/
def cursorsIn (d : Directory) (subscription : String) (s : Store) : Except Error (List Cursor) :=
  Requested.checkSubscription subscription >>= fun _ =>
    (d.subscription subscription).mapError Error.resolution >>= fun found =>
      (found.eventTypes.names.mapM fun name => c.cursorsOfIn d subscription name s) >>= fun lists =>
        .ok lists.flatten

variable {c} {d : Directory} {subscription : String}

theorem run_handOut {σ : Type} (env : Surroundings σ) (eventType : EventType)
    (offsets : List (String × String)) (w : World σ) :
    ((offsets.mapM (c.handOut eventType)).run env w).value =
        Cursor.stamp env.token w.tokens (offsets.map (c.bare eventType)) ∧
      ((offsets.mapM (c.handOut eventType)).run env w).world =
        { w with tokens := w.tokens + offsets.length } := by
  induction offsets generalizing w with
  | nil => exact ⟨rfl, rfl⟩
  | cons o offsets ih =>
    obtain ⟨hv, hw⟩ := ih { w with tokens := w.tokens + 1 }
    have hrun : (c.handOut eventType o).run env w =
        ⟨{ c.bare eventType o with token := env.token w.tokens }, [.token (env.token w.tokens)],
          { w with tokens := w.tokens + 1 }⟩ := rfl
    rw [List.mapM_cons, Program.run_bind, Program.run_bind, hrun]
    simp only [hv, hw, Program.pure_eq_done, Program.run_done, List.map_cons, Cursor.stamp,
      List.length_cons, Nat.add_assoc, Nat.add_comm 1, and_self]

theorem handsOut_cursorsOf (name : String) :
    (c.cursorsOf subscription name).HandsOut d (c.cursorsOfIn d subscription name) :=
  .of_looks (Cursor.looks_resolve name) fun eventType =>
    .of_looks (looks_offsets subscription eventType.topic) fun offsets =>
      { ok := fun token w cursors h => by
          cases h
          obtain ⟨hv, hw⟩ := run_handOut (.undisturbed d token) eventType offsets w
          rw [Action.runIn_ofProgram, hv, hw, List.length_map]
          exact ⟨rfl, rfl⟩
        error := fun _ _ _ h => by cases h }

theorem handsOut_cursors :
    (c.cursors subscription).HandsOut d (c.cursorsIn d subscription) := by
  refine .of_looks (Action.looks_of _) fun _ => ?_
  refine .of_looks (Action.looks_subscription subscription) fun found => ?_
  have hof : ∀ name, (c.cursorsOf subscription name).HandsOut d
      (c.cursorsOfIn d subscription name) := handsOut_cursorsOf
  have h := (Action.HandsOut.mapM hof found.eventTypes.names).tick .read
  simp only [bind_assoc, pure_bind] at h
  exact h

end Coordinator

end CursorCommit

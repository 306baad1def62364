/-
  The look-ups of a batch of cursors.

  `Cursor.positionIn found cursor` is the position of a single cursor, whose
  event type is looked up for it alone.  A batch knows the topics of the event
  types that it has met, and looks up the others (`unknown`).

  * `runIn_positions`: all the same, a batch has the positions of its cursors
    one by one, or the failure of the first one that has none;
  * `positions_one_by_one`: the batch beside its cursors one by one, which look
    up more.
-/
import CursorCommit.Proofs.Cursor.Placing
import CursorCommit.Proofs.Program.Rest

namespace CursorCommit

namespace Directory

/-- The known topics are those that the event types resolve to. -/
def Caches (d : Directory) (known : List (String × String)) : Prop :=
  ∀ name topic, known.lookup name = some topic →
    ∃ found, d.resolve name = .ok found ∧ found.topic = topic

/-- The cursors that are looked up one by one: those before the first one that
    has no position, and this one too if its event type is part of the
    subscription. -/
def reached (d : Directory) (found : Subscription) (cursors : List Cursor) : List Cursor :=
  let placed := cursors.takeWhile fun cursor => (d.place found cursor).isOk
  placed ++ ((cursors.drop placed.length).head?.filter fun cursor =>
    found.includes cursor.eventType).toList

/-- The look-ups of event types, in this order. -/
def lookups (d : Directory) (names : List String) : List Event :=
  names.map fun name => .eventType name (d.eventType name)

variable {d : Directory}

/-- **Which cursors are reached**: the first, if its event type is part of the
    subscription, and then the others, if it has a position. -/
theorem reached_cons (found : Subscription) (cursor : Cursor) (rest : List Cursor) :
    d.reached found (cursor :: rest) = if found.includes cursor.eventType then
      cursor :: if (d.place found cursor).isOk then d.reached found rest else [] else [] := by
  unfold reached
  cases hplace : (d.place found cursor).isOk with
  | false => cases hin : found.includes cursor.eventType <;> simp [hplace, hin]
  | true =>
    obtain ⟨p, hp⟩ := except_isOk_iff.1 hplace
    simp [hplace, (place_eq_ok_iff.1 hp).1]

theorem lookups_append (names names' : List String) :
    d.lookups (names ++ names') = d.lookups names ++ d.lookups names' :=
  List.map_append

end Directory

/-! ## Runs that leave all as it was -/

namespace Action

variable {α β σ : Type} {env : Surroundings σ} {w : World σ} {t t' : List Event}

theorem runIn_bind_eq_of_ok {x : Action α} {f : α → Action β} {a : α} {r : Except Error β}
    (hx : x.runIn env w = ⟨.ok a, t, w⟩) (hf : (f a).runIn env w = ⟨r, t', w⟩) :
    (x >>= f).runIn env w = ⟨r, t ++ t', w⟩ := by
  rw [runIn_bind_ok env (by rw [hx]) f, hx, hf]

theorem runIn_bind_eq_of_error {x : Action α} {e : Error}
    (hx : x.runIn env w = ⟨.error e, t, w⟩) (f : α → Action β) :
    (x >>= f).runIn env w = ⟨.error e, t, w⟩ := by
  rw [runIn_bind_error env (by rw [hx]) f, hx]

theorem runIn_cons {x : Action α} {xs : Action (List α)} {r : Except Error α}
    {rs : Except Error (List α)} (hx : x.runIn env w = ⟨r, t, w⟩)
    (hxs : xs.runIn env w = ⟨rs, t', w⟩) :
    (x >>= fun a => xs >>= fun as => pure (a :: as)).runIn env w =
      ⟨r >>= fun a => rs >>= fun as => pure (a :: as), t ++ if r.isOk then t' else [], w⟩ := by
  cases r with
  | error e =>
    rw [runIn_bind_eq_of_error hx]
    show _ = Run.mk (Except.error e) (t ++ []) w
    rw [List.append_nil]
  | ok a =>
    refine runIn_bind_eq_of_ok hx ?_
    cases rs with
    | error e => exact runIn_bind_eq_of_error hxs _
    | ok as =>
      rw [runIn_bind_eq_of_ok hxs (runIn_pure env (a :: as) w), List.append_nil]
      rfl

end Action

namespace Cursor

/-- The position of a cursor, whose event type must be part of the subscription
    and is looked up for this cursor alone. -/
def positionIn (found : Subscription) (cursor : Cursor) : Action Position :=
  if found.includes cursor.eventType then cursor.position
  else Action.fail (.resolution (.notInSubscription found.id cursor.eventType))

/-- The event types of which the topic is not known yet, each once. -/
def unknown (known : List (String × String)) (names : List String) : List String :=
  (names.filter fun name => (known.lookup name).isNone).eraseDups

theorem unknown_cons {known known' : List (String × String)} {name : String}
    (h : ∀ n, known'.lookup n = none ↔ known.lookup n = none ∧ n ≠ name) (names : List String) :
    unknown known (name :: names) = unknown known [name] ++ unknown known' names := by
  have hfilter : names.filter (fun n => (known'.lookup n).isNone) =
      (names.filter fun n => (known.lookup n).isNone).filter fun n => !n == name := by
    rw [List.filter_filter]
    refine List.filter_congr fun n _ => ?_
    rw [Bool.eq_iff_iff]
    simp [h, and_comm]
  unfold unknown
  cases hl : known.lookup name with
  | some topic =>
    have hsame : (names.filter fun n => (known.lookup n).isNone).filter (fun n => !n == name) =
        names.filter fun n => (known.lookup n).isNone := by
      refine List.filter_eq_self.2 fun n hn => ?_
      have hnone := (List.mem_filter.1 hn).2
      simp only [Bool.not_eq_true', beq_eq_false_iff_ne]
      rintro rfl
      simp [hl] at hnone
    simp [hl, hfilter, hsame]
  | none => simp [hl, hfilter, List.eraseDups_cons]

section
variable {σ : Type} (env : Surroundings σ) (w : World σ)

theorem runIn_resolve (name : String) : (EventType.resolve name).runIn env w =
    ⟨env.directory.resolve name, env.directory.lookups [name], w⟩ := by
  have hfind : (Action.eventType name).runIn env w =
      ⟨(env.directory.eventType name).mapError Error.resolution,
        env.directory.lookups [name], w⟩ := rfl
  unfold EventType.resolve Directory.resolve
  cases hd : env.directory.eventType name with
  | error e =>
    rw [hd] at hfind
    exact Action.runIn_bind_eq_of_error hfind _
  | ok found =>
    rw [hd] at hfind
    exact Action.runIn_bind_eq_of_ok hfind (Action.runIn_of env _ w)

/-- **The cursors one by one**: each is looked up for itself. -/
theorem runIn_positionIn (found : Subscription) (cursor : Cursor) :
    (positionIn found cursor).runIn env w = ⟨env.directory.place found cursor,
      env.directory.lookups (if found.includes cursor.eventType then [cursor.eventType] else []),
      w⟩ := by
  have hresolve := runIn_resolve env w cursor.eventType
  unfold positionIn Directory.place
  split
  · unfold position
    cases hr : env.directory.resolve cursor.eventType with
    | error e =>
      rw [hr] at hresolve
      exact Action.runIn_bind_eq_of_error hresolve _
    | ok eventType =>
      rw [hr] at hresolve
      exact Action.runIn_bind_eq_of_ok hresolve (Action.runIn_of env _ w)
  · exact Action.runIn_fail env _ w

theorem runIn_mapM_positionIn (found : Subscription) (cursors : List Cursor) :
    (cursors.mapM (positionIn found)).runIn env w = ⟨cursors.mapM (env.directory.place found),
      env.directory.lookups ((env.directory.reached found cursors).map Cursor.eventType), w⟩ := by
  induction cursors with
  | nil => rfl
  | cons cursor rest ih =>
    rw [List.mapM_cons, List.mapM_cons, Directory.reached_cons,
      Action.runIn_cons (runIn_positionIn env w found cursor) ih]
    cases hin : found.includes cursor.eventType with
    | false =>
      have hp : env.directory.place found cursor =
          .error (.resolution (.notInSubscription found.id cursor.eventType)) := by
        rw [Directory.place, hin]; rfl
      rw [hp]; rfl
    | true => cases env.directory.place found cursor <;> rfl

/-! ## The batch -/

variable {env} in
theorem runIn_topicOf {known : List (String × String)} (hk : env.directory.Caches known)
    {name : String} {found : EventType} (hr : env.directory.resolve name = .ok found) :
    ∃ known', env.directory.Caches known' ∧
      (∀ n, known'.lookup n = none ↔ known.lookup n = none ∧ n ≠ name) ∧
      (topicOf known name).runIn env w =
        ⟨.ok (found.topic, known'), env.directory.lookups (unknown known [name]), w⟩ := by
  unfold topicOf unknown
  cases hl : known.lookup name with
  | some topic =>
    obtain ⟨found', hr', rfl⟩ := hk name topic hl
    rw [hr] at hr'
    cases hr'
    refine ⟨known, hk, fun n => (and_iff_left_of_imp ?_).symm, ?_⟩
    · rintro hn rfl
      rw [hl] at hn
      cases hn
    · rw [List.filter_cons_of_neg (by simp [hl])]
      rfl
  | none =>
    refine ⟨(name, found.topic) :: known, ?_, fun n => ?_, ?_⟩
    · intro n topic hn
      rw [Table.lookup_cons_eq] at hn
      split at hn
      · next he => cases hn; exact ⟨found, he ▸ hr, rfl⟩
      · exact hk n topic hn
    · rw [Table.lookup_cons_eq]
      split <;> next he => simp [he]
    · have hresolve := runIn_resolve env w name
      rw [hr] at hresolve
      rw [List.filter_cons_of_pos (by simp [hl])]
      exact Action.runIn_bind_eq_of_ok hresolve (Action.runIn_pure env _ w)

variable {env} in
theorem runIn_topicOf_error {known : List (String × String)} (hk : env.directory.Caches known)
    {name : String} {e : Error} (hr : env.directory.resolve name = .error e) :
    (topicOf known name).runIn env w =
      ⟨.error e, env.directory.lookups (unknown known [name]), w⟩ := by
  unfold topicOf unknown
  cases hl : known.lookup name with
  | some topic =>
    obtain ⟨found, hr', -⟩ := hk name topic hl
    rw [hr] at hr'
    cases hr'
  | none =>
    have hresolve := runIn_resolve env w name
    rw [hr] at hresolve
    rw [List.filter_cons_of_pos (by simp [hl])]
    exact Action.runIn_bind_eq_of_error hresolve _

/-- The batch, by induction on the cursors: what is known has been looked up,
    and would be found again. -/
theorem runIn_positionsFrom (found : Subscription) {known : List (String × String)}
    (hk : env.directory.Caches known) (cursors : List Cursor) :
    (positionsFrom found known cursors).runIn env w =
      ⟨cursors.mapM (env.directory.place found), env.directory.lookups
        (unknown known ((env.directory.reached found cursors).map Cursor.eventType)), w⟩ := by
  induction cursors generalizing known with
  | nil => rfl
  | cons cursor rest ih =>
    rw [positionsFrom, List.mapM_cons, Directory.reached_cons]
    split
    · next hin =>
      have hp : env.directory.place found cursor = env.directory.resolve cursor.eventType >>=
          fun eventType => cursor.inTopic eventType.topic := if_pos hin
      cases hr : env.directory.resolve cursor.eventType with
      | error e =>
        rw [hp, hr]
        exact Action.runIn_bind_eq_of_error (runIn_topicOf_error w hk hr) _
      | ok eventType =>
        obtain ⟨known', hk', hnone, htopic⟩ := runIn_topicOf w hk hr
        have hrest := Action.runIn_cons (Action.runIn_of env (cursor.inTopic eventType.topic) w)
          (ih hk')
        rw [hr, show (.ok eventType >>= fun eventType => cursor.inTopic eventType.topic) =
          cursor.inTopic eventType.topic from rfl] at hp
        rw [hp, List.map_cons, unknown_cons hnone, Directory.lookups_append]
        refine (Action.runIn_bind_eq_of_ok htopic hrest).trans ?_
        cases cursor.inTopic eventType.topic <;> rfl
    · next hin =>
      have hp : env.directory.place found cursor =
          .error (.resolution (.notInSubscription found.id cursor.eventType)) := if_neg hin
      rw [hp]
      exact Action.runIn_fail env _ w

/-- **The positions of a batch** are those of its cursors, one by one, and an
    event type is looked up for the first cursor that names it. -/
theorem runIn_positions (found : Subscription) (cursors : List Cursor) :
    (positions found cursors).runIn env w =
      ⟨cursors.mapM (env.directory.place found), env.directory.lookups
        ((env.directory.reached found cursors).map Cursor.eventType).eraseDups, w⟩ := by
  have hk : env.directory.Caches [] := fun _ _ h => by cases h
  have hall (names : List String) : unknown [] names = names.eraseDups := by
    simp [unknown]
  rw [positions, runIn_positionsFrom env w found hk, hall]

end

/-! ## In a store at rest -/

theorem looks_resolve {d : Directory} (name : String) :
    (EventType.resolve name).Looks d fun _ => d.resolve name := by
  intro token w
  rw [runIn_resolve]
  exact ⟨rfl, rfl⟩

theorem looks_positions {d : Directory} (found : Subscription) (cursors : List Cursor) :
    (positions found cursors).Looks d fun _ => cursors.mapM (d.place found) := by
  intro token w
  rw [runIn_positions]
  exact ⟨rfl, rfl⟩

/-! ## The batch beside its cursors one by one -/

/-- **A batch is converted as its cursors are one by one**, with the positions
    of all in order, or the failure of the first that has none.  The cursors one
    by one look up an event type each, up to the first that fails; the batch
    looks up each of these event types once, in the order in which they first
    appear. -/
theorem positions_one_by_one {σ : Type} (env : Surroundings σ) (w : World σ)
    (found : Subscription) (cursors : List Cursor) :
    let batch := (positions found cursors).runIn env w
    let single := (cursors.mapM (positionIn found)).runIn env w
    let place := fun cursor => ((positionIn found cursor).runIn env w).value
    let names := (env.directory.reached found cursors).map Cursor.eventType
    batch.value = single.value ∧ batch.world = w ∧ single.world = w ∧
    single.trace = env.directory.lookups names ∧
    batch.trace = env.directory.lookups names.eraseDups ∧
    (∀ ps, batch.value = .ok ps ↔ List.Forall₂ (fun cursor p => place cursor = .ok p) cursors ps) ∧
    ∀ e, batch.value = .error e ↔ ∃ before cursor after, cursors = before ++ cursor :: after ∧
      (∀ earlier ∈ before, ∃ p, place earlier = .ok p) ∧ place cursor = .error e := by
  simp only [runIn_positions, runIn_mapM_positionIn, runIn_positionIn, true_and]
  exact ⟨fun ps => mapM_eq_ok_iff, fun e => mapM_eq_error_iff⟩

end Cursor

end CursorCommit

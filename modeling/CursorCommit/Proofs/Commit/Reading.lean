/-
  The phases of a commit that only read: validation and planning.

  `Confined` actions have events and failures of certain kinds only; a
  sequence of such actions is one.  Each phase is confined to its look-ups,
  and fails before anything was written: with an early failure
  (`Error.IsEarly`), or one that names partitions the stream does not own.
  So all of them are `ReadsOnly`: they make no compare-and-set, and name no
  written partition if they fail.
-/
import CursorCommit.Commit
import CursorCommit.Proofs.Cursor.Partition

namespace CursorCommit

variable {α β : Type}

/-! ## Kinds of events and failures -/

/-- The event looks an event type up. -/
def Event.IsLookup (e : Event) : Prop :=
  ∃ name answer, e = .eventType name answer

/-- The event reads a record. -/
def Event.IsGet (e : Event) : Prop :=
  ∃ key answer frame, e = .store (.get key) answer frame

/-- The event looks something up: an event type, a subscription or a record. -/
inductive Event.IsRead : Event → Prop
  | eventType (name : String) (answer : Except ResolutionError EventType) :
      IsRead (.eventType name answer)
  | subscription (id : String) (answer : Except ResolutionError Subscription) :
      IsRead (.subscription id answer)
  | get (key : String) (answer : Except StoreError (Option Record)) (frame : Frame) :
      IsRead (.store (.get key) answer frame)

theorem Event.IsLookup.isRead {e : Event} (h : e.IsLookup) : e.IsRead := by
  obtain ⟨name, answer, rfl⟩ := h
  exact .eventType name answer

theorem Event.IsGet.isRead {e : Event} (h : e.IsGet) : e.IsRead := by
  obtain ⟨key, answer, frame, rfl⟩ := h
  exact .get key answer frame

theorem Event.IsRead.quiet {e : Event} (h : e.IsRead) : e.isAttempt = false := by
  cases h <;> rfl

/-- A failure before anything was written, for another reason than
    ownership. -/
def Error.IsEarly : Error → Prop
  | .resolution _ | .invalidCursor _ | .invalidRequest _ | .invalidState _ => True
  | .storeUnavailable _ committed => committed = []
  | .ownership .. | .conflict .. | .writeFailed .. => False

/-- A failure before anything was written, for such a reason or as the stream
    does not own some partitions. -/
def Error.IsRefusal (stream : String) (e : Error) : Prop :=
  e.IsEarly ∨ ∃ tps, e = .ownership stream tps []

theorem Error.IsEarly.committed {e : Error} (h : e.IsEarly) : e.committed = [] := by
  cases e with
  | storeUnavailable source committed => exact h
  | ownership | conflict | writeFailed => exact h.elim
  | _ => rfl

theorem Error.IsRefusal.committed {stream : String} {e : Error} (h : e.IsRefusal stream) :
    e.committed = [] := by
  rcases h with h | ⟨tps, rfl⟩
  · exact h.committed
  · rfl

theorem Error.IsRefusal.ne_conflict {stream : String} {e : Error} (h : e.IsRefusal stream)
    (tps committed : List TopicPartition) : e ≠ .conflict tps committed := by
  rintro rfl
  rcases h with h | ⟨tps', h⟩
  · exact h.elim
  · cases h

theorem Error.isEarly_ofStore (e : StoreError) : (ofStore e).IsEarly := by
  cases e with
  | invalidState fault => trivial
  | _ => rfl

/-! ## Actions of a kind -/

/-- All events of the action are `Q`, and if it fails the failure is `P`. -/
def Action.Confined (Q : Event → Prop) (P : Error → Prop) (x : Action α) : Prop :=
  ∀ tr r, x.Traces tr r → (∀ e ∈ tr, Q e) ∧ ∀ e, r = .error e → P e

/-- The action makes no compare-and-set, and if it fails it names no
    partition as written. -/
def Action.ReadsOnly (x : Action α) : Prop :=
  x.Confined (fun e => e.isAttempt = false) (fun e => e.committed = [])

namespace Action

variable {Q : Event → Prop} {P : Error → Prop}

theorem Confined.mono {Q' : Event → Prop} {P' : Error → Prop} {x : Action α} (h : x.Confined Q P)
    (hQ : ∀ e, Q e → Q' e) (hP : ∀ e, P e → P' e) : x.Confined Q' P' := by
  intro tr r ht
  obtain ⟨hq, hp⟩ := h tr r ht
  exact ⟨fun e he => hQ e (hq e he), fun e he => hP e (hp e he)⟩

theorem confined_of {r : Except Error α} (h : ∀ e, r = .error e → P e) : (of r).Confined Q P := by
  intro tr r' ht
  obtain ⟨rfl, rfl⟩ := traces_of.1 ht
  exact ⟨by simp, h⟩

theorem confined_pure (a : α) : (pure a : Action α).Confined Q P :=
  confined_of (r := .ok a) fun _ h => by cases h

theorem confined_fail {e : Error} (h : P e) : (fail e : Action α).Confined Q P :=
  confined_of fun _ he => by cases he; exact h

theorem Confined.bind {x : Action α} {f : α → Action β} (hx : x.Confined Q P)
    (hf : ∀ a, (f a).Confined Q P) : (x >>= f).Confined Q P := by
  intro tr r ht
  rcases traces_bind.1 ht with ⟨e, h, rfl⟩ | ⟨a, t₁, t₂, h₁, h₂, rfl⟩
  · refine ⟨(hx _ _ h).1, ?_⟩
    intro e' he
    cases he; exact (hx _ _ h).2 e rfl
  · refine ⟨fun e he => ?_, (hf a _ _ h₂).2⟩
    rcases List.mem_append.1 he with he | he
    · exact (hx _ _ h₁).1 e he
    · exact (hf a _ _ h₂).1 e he

/-- An action that fails otherwise than its first part can has got through
    this part. -/
theorem Confined.traces_bind_of_not {x : Action α} {f : α → Action β} (hx : x.Confined Q P)
    {tr : List Event} {e : Error} (he : ¬ P e) (h : (x >>= f).Traces tr (.error e)) :
    ∃ a t₁ t₂, x.Traces t₁ (.ok a) ∧ (f a).Traces t₂ (.error e) ∧ tr = t₁ ++ t₂ := by
  rcases traces_bind.1 h with ⟨e', h', he'⟩ | h
  · cases he'
    exact absurd ((hx _ _ h').2 e rfl) he
  · exact h

theorem confined_mapM {f : α → Action β} (hf : ∀ a, (f a).Confined Q P) (as : List α) :
    (as.mapM f).Confined Q P := by
  induction as with
  | nil => exact confined_pure []
  | cons a as ih =>
    rw [List.mapM_cons]
    exact (hf a).bind fun b => ih.bind fun bs => confined_pure (b :: bs)

theorem confined_get (key : String) : (store (.get key)).Confined Event.IsGet Error.IsEarly := by
  intro tr r ht
  obtain ⟨answer, frame, rfl, rfl⟩ := traces_store.1 ht
  refine ⟨List.forall_mem_singleton.2 ⟨key, answer, frame, rfl⟩, ?_⟩
  intro e he
  cases answer with
  | error err => cases he; exact Error.isEarly_ofStore err
  | ok o => cases he

theorem confined_eventType (name : String) :
    (eventType name).Confined Event.IsLookup Error.IsEarly := by
  intro tr r ht
  obtain ⟨answer, rfl, rfl⟩ := traces_eventType.1 ht
  refine ⟨List.forall_mem_singleton.2 ⟨name, answer, rfl⟩, ?_⟩
  intro e he
  cases answer <;> cases he; trivial

theorem confined_subscription (id : String) :
    (subscription id).Confined Event.IsRead Error.IsEarly := by
  intro tr r ht
  obtain ⟨answer, rfl, rfl⟩ := traces_subscription.1 ht
  refine ⟨List.forall_mem_singleton.2 (.subscription id answer), ?_⟩
  intro e he
  cases answer <;> cases he; trivial

end Action

/-! ## Validation and planning -/

theorem EventType.confined_resolve (name : String) :
    (resolve name).Confined Event.IsLookup Error.IsEarly := by
  refine (Action.confined_eventType name).bind fun found => Action.confined_of fun e he => ?_
  unfold checked at he
  split at he <;> cases he; trivial

namespace Cursor

theorem confined_topicOf (known : List (String × String)) (name : String) :
    (topicOf known name).Confined Event.IsLookup Error.IsEarly := by
  unfold topicOf
  split
  · exact Action.confined_pure _
  · exact (EventType.confined_resolve name).bind fun _ => Action.confined_pure _

theorem isEarly_of_inTopic {topic : String} {cursor : Cursor} {e : Error}
    (h : cursor.inTopic topic = .error e) : e.IsEarly := by
  unfold inTopic at h
  split at h
  · cases h; trivial
  · split at h <;> cases h; trivial

theorem confined_positions (found : Subscription) (cursors : List Cursor) :
    (positions found cursors).Confined Event.IsLookup Error.IsEarly := by
  unfold positions
  generalize ([] : List (String × String)) = known
  induction cursors generalizing known with
  | nil => exact Action.confined_pure _
  | cons cursor rest ih =>
    rw [positionsFrom]
    split
    · exact (confined_topicOf known _).bind fun _ =>
        (Action.confined_of fun _ => isEarly_of_inTopic).bind fun _ =>
          (ih _).bind fun _ => Action.confined_pure _
    · exact Action.confined_fail trivial

end Cursor

theorem isEarly_of_foldPartition {c : Comparator} {tp : TopicPartition} {current : StoredOffset}
    {offsets : List String} {e : Error} (h : foldPartition c tp current offsets = .error e) :
    e.IsEarly := by
  unfold foldPartition at h
  split at h
  · cases h; trivial
  · cases hf : Fold.ofOffsets c current.offset offsets <;> rw [hf] at h <;> cases h; trivial

theorem StoredOffset.isEarly_of_ofRecord {record : Record} {e : Error}
    (h : ofRecord record = .error e) : e.IsEarly := by
  unfold ofRecord at h
  split at h <;> cases h; trivial

namespace Coordinator

variable (c : Coordinator) (stream subscription : String)

theorem confined_sight (tp : TopicPartition) :
    (c.sight subscription tp).Confined Event.IsGet Error.IsEarly :=
  (Action.confined_get _).bind fun _ => Action.confined_pure _

theorem confined_hasSession :
    (c.hasSession subscription stream).Confined Event.IsGet Error.IsEarly :=
  (Action.confined_get _).bind fun _ => Action.confined_pure _

theorem confined_owned (batches : List Batch) : (c.owned stream subscription batches).Confined
    Event.IsGet (Error.IsRefusal stream) := by
  refine ((c.confined_hasSession stream subscription).mono (fun _ => id) fun _ => .inl).bind
    fun b => ?_
  split
  · refine ((Action.confined_mapM (fun b : Batch => c.confined_sight subscription b.tp)
      batches).mono (fun _ => id) fun _ => .inl).bind fun seen => ?_
    split
    · exact Action.confined_pure _
    · exact Action.confined_fail (.inr ⟨_, rfl⟩)
  · exact Action.confined_fail (.inr ⟨_, rfl⟩)

theorem confined_plan (positions : List Position) (b : Batch) (seen : Sighting) :
    (c.plan subscription positions b seen).Confined Event.IsGet Error.IsEarly := by
  refine .bind (.bind (.bind (Action.confined_get _) fun o => ?_) fun o => ?_) fun current => ?_
  · cases o with
    | none => exact Action.confined_pure _
    | some record =>
      show (some <$> Action.of (StoredOffset.ofRecord record)).Confined _ _
      rw [← bind_pure_comp]
      exact (Action.confined_of fun _ => StoredOffset.isEarly_of_ofRecord).bind fun _ =>
        Action.confined_pure _
  · cases o with
    | none => exact Action.confined_fail trivial
    | some current => exact Action.confined_pure _
  · exact (Action.confined_of fun _ => isEarly_of_foldPartition).bind fun _ =>
      Action.confined_pure _

theorem confined_planAll (positions : List Position) (batches : List Batch)
    (seen : List Sighting) :
    (c.planAll subscription positions batches seen).Confined Event.IsGet Error.IsEarly :=
  Action.confined_mapM (fun (b, s) => c.confined_plan subscription positions b s) _

theorem confined_replan (positions : List Position) (b : Batch) :
    (c.replan stream subscription positions b).Confined Event.IsGet (Error.IsRefusal stream) := by
  refine ((c.confined_sight subscription b.tp).mono (fun _ => id) fun _ => .inl).bind
    fun seen => ?_
  split
  · exact (c.confined_plan subscription positions b seen).mono (fun _ => id) fun _ => .inl
  · exact Action.confined_fail (.inr ⟨_, rfl⟩)

theorem readsOnly_replan (positions : List Position) (b : Batch) :
    (c.replan stream subscription positions b).ReadsOnly :=
  (c.confined_replan stream subscription positions b).mono (fun _ h => h.isRead.quiet)
    fun _ => Error.IsRefusal.committed

end Coordinator

end CursorCommit

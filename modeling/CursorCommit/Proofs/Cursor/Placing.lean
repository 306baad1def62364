/-
  The position of a single cursor, with the directory at hand.

  `d.place found cursor` is the position of a cursor, or why it has none:
  `place_eq_ok_iff` says when it has one, and `cases_of_resolve_error` why an
  event type does not resolve.
-/
import CursorCommit.Proofs.Cursor.Partition

namespace CursorCommit

namespace Directory

/-- The event type under a name, if its topic may stand in a key. -/
def resolve (d : Directory) (name : String) : Except Error EventType := do
  (← (d.eventType name).mapError Error.resolution).checked name

/-- The position of a cursor, for a subscription as it was found. -/
def place (d : Directory) (found : Subscription) (cursor : Cursor) : Except Error Position :=
  if found.includes cursor.eventType then do
    cursor.inTopic (← d.resolve cursor.eventType).topic
  else .error (.resolution (.notInSubscription found.id cursor.eventType))

variable {d : Directory}

theorem resolve_eq_ok_iff {name : String} {found : EventType} :
    d.resolve name = .ok found ↔
      d.eventType name = .ok found ∧ Name.checkSegment found.topic = .ok () := by
  unfold resolve
  rw [except_bind_eq_ok_iff]
  constructor
  · rintro ⟨found', h, hc⟩
    obtain ⟨rfl, hs⟩ := EventType.checked_eq_ok_iff.1 hc
    cases he : d.eventType name <;> rw [he] at h <;> cases h
    exact ⟨rfl, hs⟩
  · rintro ⟨he, hs⟩
    exact ⟨found, by rw [he]; rfl, EventType.checked_eq_ok_iff.2 ⟨rfl, hs⟩⟩

/-- An event type does not resolve if it is not found, or has a topic that may
    not stand in a key. -/
theorem cases_of_resolve_error {name : String} {e : Error}
    (h : d.resolve name = .error e) :
    (∃ cause, d.eventType name = .error cause ∧ e = .resolution cause) ∨
      ∃ eventType fault, d.eventType name = .ok eventType ∧
        Name.checkSegment eventType.topic = .error fault ∧
          e = .invalidState (.badTopic name fault) := by
  rcases except_bind_eq_error_iff.1 h with he | ⟨eventType, he, hc⟩
  · obtain ⟨cause, hcause, rfl⟩ := except_mapError_eq_error_iff.1 he
    exact Or.inl ⟨cause, hcause, rfl⟩
  · unfold EventType.checked at hc
    split at hc
    · cases hc
    · next fault ht =>
      cases hc
      exact Or.inr ⟨eventType, fault, except_mapError_eq_ok_iff.1 he, ht, rfl⟩

/-- **A cursor has a position** iff its event type is part of the subscription
    and resolves, its partition may stand in a key, and its offset is not
    empty. -/
theorem place_eq_ok_iff {found : Subscription} {cursor : Cursor} {p : Position} :
    d.place found cursor = .ok p ↔ found.includes cursor.eventType = true ∧
      ∃ eventType, d.resolve cursor.eventType = .ok eventType ∧
        p = ⟨eventType.topic, cursor.partition, cursor.offset⟩ ∧
        Name.checkSegment cursor.partition = .ok () ∧ cursor.offset ≠ "" := by
  unfold place
  split
  · next h => simp [h, except_bind_eq_ok_iff, Cursor.inTopic_eq_ok_iff]
  · next h => simp [h]

theorem locates_of_place {found : Subscription} {cursor : Cursor} {p : Position}
    (h : d.place found cursor = .ok p) : d.Locates cursor p := by
  obtain ⟨-, eventType, hr, rfl, hp, -⟩ := place_eq_ok_iff.1 h
  obtain ⟨he, ht⟩ := resolve_eq_ok_iff.1 hr
  exact ⟨by simp [partition?, he, Position.tp], rfl, ht, hp⟩

theorem locates_of_mapM_place {found : Subscription} {cursors : List Cursor} {ps : List Position}
    (h : cursors.mapM (d.place found) = .ok ps) : List.Forall₂ d.Locates cursors ps :=
  (mapM_eq_ok_iff.1 h).imp fun _ _ => locates_of_place

end Directory

end CursorCommit

/-
  Directories: where event types and subscriptions are looked up.

  An event type is backed by a topic; a subscription lists event types, in
  ascending order and each once (`NameSet`).
-/

namespace CursorCommit

/-- A set of names, listed in ascending order. -/
structure NameSet where
  names : List String
  ascending : names.Pairwise (· < ·)

namespace NameSet

/-- The names with one more, in order. -/
def insertName (name : String) : List String → List String
  | [] => [name]
  | n :: rest =>
    if name < n then name :: n :: rest
    else if n < name then n :: insertName name rest
    else n :: rest

theorem mem_insertName {name n : String} {names : List String} :
    n ∈ insertName name names ↔ n = name ∨ n ∈ names := by
  induction names with
  | nil => simp [insertName]
  | cons m rest ih =>
    simp only [insertName]
    split
    · simp
    · next h =>
      split
      · simp only [List.mem_cons, ih]
        constructor
        · rintro (h | h | h) <;> simp [h]
        · rintro (h | h | h) <;> simp [h]
      · next h' =>
        have : name = m := String.le_antisymm (String.not_lt.1 h') (String.not_lt.1 h)
        simp [this]

theorem pairwise_insertName (name : String) {names : List String} (h : names.Pairwise (· < ·)) :
    (insertName name names).Pairwise (· < ·) := by
  induction names with
  | nil => simp [insertName]
  | cons m rest ih =>
    have hrest : ∀ n ∈ rest, m < n := (List.pairwise_cons.1 h).1
    simp only [insertName]
    split
    · next hm =>
      refine List.Pairwise.cons (fun n hn => ?_) h
      rcases List.mem_cons.1 hn with rfl | hn
      · exact hm
      · exact String.lt_trans hm (hrest n hn)
    · split
      · next hm =>
        refine List.Pairwise.cons (fun n hn => ?_) (ih h.of_cons)
        rcases mem_insertName.1 hn with rfl | hn
        · exact hm
        · exact hrest n hn
      · exact h

/-- The set without names. -/
def empty : NameSet := ⟨[], .nil⟩

/-- The set with one more name. -/
def insert (s : NameSet) (name : String) : NameSet :=
  ⟨insertName name s.names, pairwise_insertName name s.ascending⟩

/-- The set of the names in a list. -/
def ofList (names : List String) : NameSet :=
  names.foldl insert empty

/-- Whether a name is in the set. -/
def contains (s : NameSet) (name : String) : Bool :=
  s.names.contains name

theorem mem_ofList {n : String} {names : List String} : n ∈ (ofList names).names ↔ n ∈ names := by
  suffices h : ∀ s : NameSet, n ∈ (names.foldl insert s).names ↔ n ∈ s.names ∨ n ∈ names by
    simpa [ofList, empty] using h empty
  induction names with
  | nil => simp
  | cons m rest ih =>
    intro s
    rw [List.foldl_cons, ih, insert, mem_insertName, List.mem_cons]
    constructor
    · rintro ((h | h) | h) <;> simp [h]
    · rintro (h | h | h) <;> simp [h]

end NameSet

/-- An event type and the topic that backs it. -/
structure EventType where
  name : String
  topic : String
deriving DecidableEq, Repr

/-- A subscription to event types. -/
structure Subscription where
  id : String
  eventTypes : NameSet

/-- Whether an event type is part of the subscription. -/
def Subscription.includes (s : Subscription) (eventType : String) : Bool :=
  s.eventTypes.contains eventType

/-- Why a name cannot be resolved. -/
inductive ResolutionError where
  | subscriptionNotFound (id : String)
  | eventTypeNotFound (name : String)
  | notInSubscription (subscription eventType : String)
  /-- A directory failed, for the reason it gives. -/
  | directory (text : String)
deriving DecidableEq, Repr

/-- The failure in words. -/
def ResolutionError.message : ResolutionError → String
  | subscriptionNotFound id => "subscription " ++ id ++ " not found"
  | eventTypeNotFound name => "event type " ++ name ++ " not found"
  | notInSubscription subscription eventType =>
    "event type " ++ eventType ++ " is not part of subscription " ++ subscription
  | directory text => "directory lookup failed: " ++ text

/-- The directories that a coordinator asks. -/
structure Directory where
  eventType : String → Except ResolutionError EventType
  subscription : String → Except ResolutionError Subscription

end CursorCommit

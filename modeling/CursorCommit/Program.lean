/-
  Programs that ask the store, the directories and the token service.

  A program is a tree: it is done, or it makes a request and goes on with the
  answer.  Who answers, and what happens between two requests, is for a run
  to say; so one program can be run undisturbed, among other writers, and
  with failures.  `Action` is a program that may fail, and then stops.
-/
import CursorCommit.Directory
import CursorCommit.Error
import CursorCommit.Metric
import CursorCommit.Store.Basic

namespace CursorCommit

/-- A call on the store. -/
inductive StoreCall where
  | get (key : String)
  | list (start : String)
  | compareAndSet (key : String) (version : Int) (bytes : List UInt8) (guards : List Guard)
deriving DecidableEq, Repr

/-- What a call on the store answers when it succeeds. -/
abbrev StoreCall.Answer : StoreCall → Type
  | .get _ => Option Record
  | .list _ => List (String × Record)
  | .compareAndSet .. => Bool

/-- What a program may ask for. -/
inductive Request where
  | store (call : StoreCall)
  | eventType (name : String)
  | subscription (id : String)
  /-- A token that was not handed out before. -/
  | token
  /-- To count a thing once. -/
  | tick (metric : Metric)
deriving DecidableEq, Repr

/-- What a request is answered with. -/
abbrev Request.Answer : Request → Type
  | .store call => Except StoreError call.Answer
  | .eventType _ => Except ResolutionError EventType
  | .subscription _ => Except ResolutionError Subscription
  | .token => String
  | .tick _ => Unit

/-- A tree of requests with the continuations for their answers. -/
inductive Program (α : Type) where
  | done (value : α)
  | ask (request : Request) (next : request.Answer → Program α)

namespace Program

variable {α β : Type}

/-- A program, followed by the one that its value chooses. -/
def bind : Program α → (α → Program β) → Program β
  | done a, f => f a
  | ask r next, f => ask r fun answer => (next answer).bind f

instance : Monad Program where
  pure := done
  bind := bind

@[simp] theorem pure_eq_done (a : α) : (pure a : Program α) = done a := rfl

@[simp] theorem done_bind (a : α) (f : α → Program β) : done a >>= f = f a := rfl

@[simp] theorem ask_bind (r : Request) (next : r.Answer → Program α) (f : α → Program β) :
    ask r next >>= f = ask r fun answer => next answer >>= f := rfl

instance : LawfulMonad Program := LawfulMonad.mk' Program
  (fun p => by
    induction p with
    | done a => rfl
    | ask r next ih => exact congrArg (ask r) (funext ih))
  (fun _ _ => rfl)
  (fun p f g => by
    induction p with
    | done a => rfl
    | ask r next ih => exact congrArg (ask r) (funext ih))

/-- The program of a single request. -/
def request (r : Request) : Program r.Answer :=
  ask r done

/-- Counts a thing once. -/
def tick (metric : Metric) : Program Unit :=
  request (.tick metric)

end Program

/-- A program that may fail. -/
abbrev Action (α : Type) := ExceptT Error Program α

namespace Action

variable {α : Type}

/-- The action without requests that has this result. -/
def of (result : Except Error α) : Action α :=
  ExceptT.mk (.done result)

/-- The action that never fails. -/
def ofProgram (p : Program α) : Action α :=
  ExceptT.mk (Except.ok <$> p)

/-- The action that fails. -/
def fail (e : Error) : Action α :=
  of (.error e)

/-- A call on the store, whose failures become failures of the action. -/
def store (call : StoreCall) : Action call.Answer :=
  ExceptT.mk (.ask (.store call) fun answer => .done (answer.mapError Error.ofStore))

/-- Looks an event type up. -/
def eventType (name : String) : Action EventType :=
  ExceptT.mk (.ask (.eventType name) fun answer => .done (answer.mapError Error.resolution))

/-- Looks a subscription up. -/
def subscription (id : String) : Action Subscription :=
  ExceptT.mk (.ask (.subscription id) fun answer => .done (answer.mapError Error.resolution))

end Action

end CursorCommit

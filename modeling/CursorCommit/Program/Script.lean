/-
  Scripted disturbances: rules that fire on the calls of a program.

  A rule waits for calls of one kind, on one key if it names one.  It lets
  the first `skip` of them pass, acts on the next `times` ones, and then
  rests.  At each call all rules are visited in order, until one of them
  fails the call.
-/
import CursorCommit.Program.Run

namespace CursorCommit

/-- The kinds of calls on the store. -/
inductive CallKind where
  | get
  | list
  | compareAndSet
deriving DecidableEq, Repr

/-- The kind of a call. -/
def StoreCall.kind : StoreCall → CallKind
  | .get _ => .get
  | .list _ => .list
  | .compareAndSet .. => .compareAndSet

/-- The key, or the start of keys, that a call is on. -/
def StoreCall.key : StoreCall → String
  | .get key => key
  | .list start => start
  | .compareAndSet key .. => key

/-- What a rule does when it fires. -/
inductive Disturbance where
  | put (key : String) (bytes : List UInt8)
  | delete (key : String)
  | setAvailable (available : Bool)
  | fail (error : StoreError)
deriving DecidableEq, Repr

/-- A rule of a script. -/
structure Rule where
  kind : CallKind
  /-- The key that the rule waits for, any if there is none. -/
  key : Option String
  /-- How many calls it still lets pass. -/
  skip : Nat
  /-- How often it still acts, without end if there is no number. -/
  times : Option Nat
  action : Disturbance
deriving DecidableEq, Repr

namespace Rule

/-- Whether the rule waits for the call. -/
def isFor (rule : Rule) (call : StoreCall) : Bool :=
  rule.kind == call.kind && (rule.key.all (· == call.key))

/-- What the rule does at a call, if anything, and the rule from then on. -/
def step (rule : Rule) (call : StoreCall) : Option Disturbance × Rule :=
  if rule.isFor call = false then (none, rule)
  else match rule.skip, rule.times with
    | skip + 1, _ => (none, { rule with skip })
    | 0, some 0 => (none, rule)
    | 0, some (times + 1) => (some rule.action, { rule with times := some times })
    | 0, none => (some rule.action, rule)

end Rule

/-- The effect of a disturbance: an operation on the store, or the failure of
    the call.  One that needs the store fails the call while it is out of
    reach. -/
def Disturbance.effect (s : Store) : Disturbance → Except StoreError StoreOp
  | put key bytes => if s.available then .ok (.put key bytes) else .error .outOfReach
  | delete key => if s.available then .ok (.delete key) else .error .outOfReach
  | setAvailable available => .ok (.setAvailable available)
  | fail error => .error error

/-- The turn that rules make of a call, and the rules from then on. -/
def Rule.turn (call : StoreCall) : List Rule → Store → Turn × List Rule
  | [], _ => (.quiet, [])
  | rule :: rules, s =>
    match rule.step call with
    | (none, rule') =>
      let (turn, rules') := Rule.turn call rules s
      (turn, rule' :: rules')
    | (some disturbance, rule') =>
      match disturbance.effect s with
      | .error e => (⟨[], some e⟩, rule' :: rules)
      | .ok op =>
        let (turn, rules') := Rule.turn call rules (s.after op)
        ({ turn with others := op :: turn.others }, rule' :: rules')

/-- Surroundings that act by a script. -/
def Surroundings.scripted (directory : Directory) (token : Nat → String) :
    Surroundings (List Rule) :=
  ⟨directory, token, fun rules call s => Rule.turn call rules s⟩

end CursorCommit

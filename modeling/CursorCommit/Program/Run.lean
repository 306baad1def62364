/-
  Runs of programs, with a trace of all that happened.

  Before each call of a program on the store, others may act: a `Turn` has
  their operations and, if the call is to fail, the failure.  The
  surroundings choose the turns, one call at a time, from a state of their
  own, the call and the store.

  * `Program.run` answers the requests of a program and records an `Event`
    for each; a store call that fails has no effect;
  * `run_bind`: the trace of a sequence is the concatenation of the traces.
-/
import CursorCommit.Program

namespace CursorCommit

/-- What happens right before a call on the store. -/
structure Turn where
  /-- The operations of others. -/
  others : List StoreOp
  /-- The failure of the call, if it is to fail. -/
  failure : Option StoreError

/-- The turn in which nothing happens. -/
def Turn.quiet : Turn := ⟨[], none⟩

/-- All that answers a program, and all that disturbs it. -/
structure Surroundings (σ : Type) where
  directory : Directory
  /-- The tokens that are handed out, one after the other. -/
  token : Nat → String
  turn : σ → StoreCall → Store → Turn × σ

/-- Surroundings in which nobody else acts. -/
def Surroundings.undisturbed (directory : Directory) (token : Nat → String) :
    Surroundings Unit :=
  ⟨directory, token, fun _ _ _ => (.quiet, ())⟩

/-- The state of a run. -/
structure World (σ : Type) where
  store : Store
  /-- The number of tokens handed out. -/
  tokens : Nat
  /-- The state of the surroundings. -/
  disturbance : σ

/-- The stores around a call: when the program made it, after the others
    acted, and after the call. -/
structure Frame where
  opening : Store
  others : List StoreOp
  before : Store
  after : Store

/-- A request and its answer. -/
inductive Event where
  | store (call : StoreCall) (answer : Except StoreError call.Answer) (frame : Frame)
  | eventType (name : String) (answer : Except ResolutionError EventType)
  | subscription (id : String) (answer : Except ResolutionError Subscription)
  | token (text : String)
  | tick (metric : Metric)

/-- The end of a run. -/
structure Run (σ α : Type) where
  value : α
  trace : List Event
  world : World σ

/-- The answer of an available store to a call, and the store after it. -/
def Store.answer (s : Store) : (call : StoreCall) → Except StoreError call.Answer × Store
  | .get key => (s.get key, s)
  | .list start => (s.list start, s)
  | .compareAndSet key version bytes guards =>
    match s.compareAndSet key version bytes guards with
    | .ok (applied, s') => (.ok applied, s')
    | .error e => (.error e, s)

section
variable {σ : Type} (env : Surroundings σ)

/-- The answer to a request, its event and the world after it. -/
def Surroundings.respond (w : World σ) : (r : Request) → r.Answer × Event × World σ
  | .store call =>
    let (turn, d) := env.turn w.disturbance call w.store
    let before := w.store.afterAll turn.others
    let (answer, after) : Except StoreError call.Answer × Store :=
      match turn.failure with
      | some e => (.error e, before)
      | none => before.answer call
    (answer, .store call answer ⟨w.store, turn.others, before, after⟩,
      { w with store := after, disturbance := d })
  | .eventType name =>
    let answer := env.directory.eventType name
    (answer, .eventType name answer, w)
  | .subscription id =>
    let answer := env.directory.subscription id
    (answer, .subscription id answer, w)
  | .token =>
    let text := env.token w.tokens
    (text, .token text, { w with tokens := w.tokens + 1 })
  | .tick metric => ((), .tick metric, w)

/-- The run of a program from a world. -/
def Program.run {α : Type} : Program α → World σ → Run σ α
  | .done a, w => ⟨a, [], w⟩
  | .ask r next, w =>
    let (answer, event, w') := env.respond w r
    let rest := (next answer).run w'
    ⟨rest.value, event :: rest.trace, rest.world⟩

variable {α β : Type}

@[simp] theorem Program.run_done (a : α) (w : World σ) :
    (Program.done a).run env w = ⟨a, [], w⟩ := rfl

theorem Program.run_ask (r : Request) (next : r.Answer → Program α) (w : World σ) :
    (Program.ask r next).run env w =
      ⟨((next (env.respond w r).1).run env (env.respond w r).2.2).value,
        (env.respond w r).2.1 :: ((next (env.respond w r).1).run env (env.respond w r).2.2).trace,
        ((next (env.respond w r).1).run env (env.respond w r).2.2).world⟩ := rfl

/-- **A sequence runs one program after the other**, and its trace is the
    concatenation of theirs. -/
theorem Program.run_bind (p : Program α) (f : α → Program β) (w : World σ) :
    (p >>= f).run env w =
      ⟨((f (p.run env w).value).run env (p.run env w).world).value,
        (p.run env w).trace ++ ((f (p.run env w).value).run env (p.run env w).world).trace,
        ((f (p.run env w).value).run env (p.run env w).world).world⟩ := by
  induction p generalizing w with
  | done a => rfl
  | ask r next ih => rw [Program.ask_bind, Program.run_ask, ih, Program.run_ask]; rfl

/-! ## Runs of actions -/

/-- The run of an action, whose value is a result or a failure. -/
def Action.runIn (a : Action α) (w : World σ) : Run σ (Except Error α) :=
  Program.run env a.run w

@[simp] theorem Action.runIn_of (r : Except Error α) (w : World σ) :
    (Action.of r).runIn env w = ⟨r, [], w⟩ := rfl

@[simp] theorem Action.runIn_pure (a : α) (w : World σ) :
    (pure a : Action α).runIn env w = ⟨.ok a, [], w⟩ := rfl

@[simp] theorem Action.runIn_fail (e : Error) (w : World σ) :
    (Action.fail e : Action α).runIn env w = ⟨.error e, [], w⟩ := rfl

theorem Action.runIn_ofProgram (p : Program α) (w : World σ) :
    (Action.ofProgram p).runIn env w =
      ⟨.ok (p.run env w).value, (p.run env w).trace, (p.run env w).world⟩ := by
  show Program.run env (Except.ok <$> p) w = _
  rw [← bind_pure_comp, Program.run_bind]
  simp

/-- **A sequence of actions goes on while they succeed.** -/
theorem Action.runIn_bind_ok {x : Action α} {w : World σ} {a : α}
    (h : (x.runIn env w).value = .ok a) (f : α → Action β) :
    (x >>= f).runIn env w =
      ⟨((f a).runIn env (x.runIn env w).world).value,
        (x.runIn env w).trace ++ ((f a).runIn env (x.runIn env w).world).trace,
        ((f a).runIn env (x.runIn env w).world).world⟩ := by
  show Program.run env (x.run >>= ExceptT.bindCont f) w = _
  rw [Program.run_bind, show (Program.run env x.run w).value = .ok a from h]
  rfl

/-- **A failure ends a sequence of actions.** -/
theorem Action.runIn_bind_error {x : Action α} {w : World σ} {e : Error}
    (h : (x.runIn env w).value = .error e) (f : α → Action β) :
    (x >>= f).runIn env w = ⟨.error e, (x.runIn env w).trace, (x.runIn env w).world⟩ := by
  show Program.run env (x.run >>= ExceptT.bindCont f) w = _
  rw [Program.run_bind, show (Program.run env x.run w).value = .error e from h]
  show (⟨.error e, (x.runIn env w).trace ++ [], (x.runIn env w).world⟩ : Run σ (Except Error β)) = _
  rw [List.append_nil]

end

end CursorCommit

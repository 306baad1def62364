/-
  What a program may go through, whatever it is answered.

  `p.Traces tr a`: the requests of `p` with some answers are the events
  `tr`, and its value is then `a`.  The trace of a run is one of them
  (`traces_run`); so a fact about all traces of a program holds of its runs
  in all surroundings, and is proved along the program alone.

  * `traces_bind`: a trace of a sequence is cut in two;
  * `traces_mapM_ok`, `exists_of_traces_mapM_ok`: a trace of a loop over a list
    has a part for each element, and nothing else.
-/
import CursorCommit.Program.Run
import CursorCommit.Proofs.Lists

namespace CursorCommit

variable {α β : Type}

/-- The traces of a program, each with the value it leads to. -/
inductive Program.Traces : Program α → List Event → α → Prop
  | done (a : α) : Traces (.done a) [] a
  | store {call : StoreCall} {next : Request.Answer (.store call) → Program α} {tr : List Event}
      {a : α} (answer : Except StoreError call.Answer) (frame : Frame) :
      Traces (next answer) tr a →
        Traces (.ask (.store call) next) (.store call answer frame :: tr) a
  | eventType {name : String} {next : Request.Answer (.eventType name) → Program α}
      {tr : List Event} {a : α} (answer : Except ResolutionError EventType) :
      Traces (next answer) tr a →
        Traces (.ask (.eventType name) next) (.eventType name answer :: tr) a
  | subscription {id : String} {next : Request.Answer (.subscription id) → Program α}
      {tr : List Event} {a : α} (answer : Except ResolutionError Subscription) :
      Traces (next answer) tr a →
        Traces (.ask (.subscription id) next) (.subscription id answer :: tr) a
  | token {next : Request.Answer .token → Program α} {tr : List Event} {a : α} (text : String) :
      Traces (next text) tr a → Traces (.ask .token next) (.token text :: tr) a
  | tick {metric : Metric} {next : Request.Answer (.tick metric) → Program α} {tr : List Event}
      {a : α} : Traces (next ()) tr a → Traces (.ask (.tick metric) next) (.tick metric :: tr) a

namespace Program

/-- **The trace of a run is a trace of the program.** -/
theorem traces_run {σ : Type} (env : Surroundings σ) (p : Program α) (w : World σ) :
    p.Traces (p.run env w).trace (p.run env w).value := by
  induction p generalizing w with
  | done a => exact .done a
  | ask r next ih =>
    rw [run_ask]
    cases r with
    | store call => exact .store _ _ (ih _ _)
    | eventType name => exact .eventType _ (ih _ _)
    | subscription id => exact .subscription _ (ih _ _)
    | token => exact .token _ (ih _ _)
    | tick metric => exact .tick (ih _ _)

@[simp] theorem traces_done {a b : α} {tr : List Event} :
    (done a).Traces tr b ↔ tr = [] ∧ b = a := by
  constructor
  · rintro ⟨⟩; exact ⟨rfl, rfl⟩
  · rintro ⟨rfl, rfl⟩; exact .done _

theorem Traces.append {p : Program α} {f : α → Program β} {t₁ t₂ : List Event} {a : α} {b : β}
    (h₁ : p.Traces t₁ a) (h₂ : (f a).Traces t₂ b) : (p >>= f).Traces (t₁ ++ t₂) b := by
  induction h₁ with
  | done => exact h₂
  | store answer frame _ ih => exact .store answer frame (ih h₂)
  | eventType answer _ ih => exact .eventType answer (ih h₂)
  | subscription answer _ ih => exact .subscription answer (ih h₂)
  | token text _ ih => exact .token text (ih h₂)
  | tick _ ih => exact .tick (ih h₂)

/-- **A trace of a sequence** is a trace of its first part and one of the
    second. -/
theorem traces_bind {p : Program α} {f : α → Program β} {tr : List Event} {b : β} :
    (p >>= f).Traces tr b ↔ ∃ a t₁ t₂, p.Traces t₁ a ∧ (f a).Traces t₂ b ∧ tr = t₁ ++ t₂ := by
  constructor
  · intro h
    induction p generalizing tr with
    | done a => exact ⟨a, [], tr, .done a, h, rfl⟩
    | ask r next ih =>
      rw [ask_bind] at h
      cases h with
      | store answer frame h =>
        obtain ⟨a, t₁, t₂, h₁, h₂, rfl⟩ := ih _ h
        exact ⟨a, _, t₂, .store answer frame h₁, h₂, rfl⟩
      | eventType answer h =>
        obtain ⟨a, t₁, t₂, h₁, h₂, rfl⟩ := ih _ h
        exact ⟨a, _, t₂, .eventType answer h₁, h₂, rfl⟩
      | subscription answer h =>
        obtain ⟨a, t₁, t₂, h₁, h₂, rfl⟩ := ih _ h
        exact ⟨a, _, t₂, .subscription answer h₁, h₂, rfl⟩
      | token text h =>
        obtain ⟨a, t₁, t₂, h₁, h₂, rfl⟩ := ih _ h
        exact ⟨a, _, t₂, .token text h₁, h₂, rfl⟩
      | tick h =>
        obtain ⟨a, t₁, t₂, h₁, h₂, rfl⟩ := ih _ h
        exact ⟨a, _, t₂, .tick h₁, h₂, rfl⟩
  · rintro ⟨a, t₁, t₂, h₁, h₂, rfl⟩
    exact h₁.append h₂

theorem traces_map {p : Program α} {f : α → β} {tr : List Event} {b : β} :
    (f <$> p).Traces tr b ↔ ∃ a, p.Traces tr a ∧ b = f a := by
  rw [← bind_pure_comp, traces_bind]
  constructor
  · rintro ⟨a, t₁, t₂, h₁, h₂, rfl⟩
    obtain ⟨rfl, rfl⟩ := traces_done.1 h₂
    exact ⟨a, by rwa [List.append_nil], rfl⟩
  · rintro ⟨a, h, rfl⟩
    exact ⟨a, tr, [], h, .done _, (List.append_nil tr).symm⟩

theorem traces_tick {metric : Metric} {tr : List Event} {u : Unit} :
    (tick metric).Traces tr u ↔ tr = [.tick metric] := by
  constructor
  · rintro (_ | _ | _ | _ | _ | ⟨⟨⟩⟩); rfl
  · rintro rfl; exact .tick (.done _)

end Program

/-! ## Actions -/

namespace Action

/-- The traces of an action, each with the result it leads to. -/
def Traces (x : Action α) (tr : List Event) (r : Except Error α) : Prop :=
  Program.Traces x.run tr r

theorem traces_run {σ : Type} (env : Surroundings σ) (x : Action α) (w : World σ) :
    x.Traces (x.runIn env w).trace (x.runIn env w).value :=
  Program.traces_run env x.run w

@[simp] theorem traces_of {r r' : Except Error α} {tr : List Event} :
    (of r).Traces tr r' ↔ tr = [] ∧ r' = r :=
  Program.traces_done

@[simp] theorem traces_pure {a : α} {r : Except Error α} {tr : List Event} :
    (pure a : Action α).Traces tr r ↔ tr = [] ∧ r = .ok a :=
  Program.traces_done

@[simp] theorem traces_fail {e : Error} {r : Except Error α} {tr : List Event} :
    (fail e : Action α).Traces tr r ↔ tr = [] ∧ r = .error e :=
  Program.traces_done

theorem traces_ofProgram {p : Program α} {tr : List Event} {r : Except Error α} :
    (ofProgram p).Traces tr r ↔ ∃ a, p.Traces tr a ∧ r = .ok a :=
  Program.traces_map

theorem traces_store {call : StoreCall} {tr : List Event} {r : Except Error call.Answer} :
    (store call).Traces tr r ↔
      ∃ answer frame, tr = [.store call answer frame] ∧ r = answer.mapError Error.ofStore := by
  constructor
  · rintro (_ | ⟨answer, frame, ⟨⟩⟩); exact ⟨answer, frame, rfl, rfl⟩
  · rintro ⟨answer, frame, rfl, rfl⟩; exact .store answer frame (.done _)

theorem traces_eventType {name : String} {tr : List Event} {r : Except Error EventType} :
    (eventType name).Traces tr r ↔
      ∃ answer, tr = [.eventType name answer] ∧ r = answer.mapError Error.resolution := by
  constructor
  · rintro (_ | _ | ⟨answer, ⟨⟩⟩); exact ⟨answer, rfl, rfl⟩
  · rintro ⟨answer, rfl, rfl⟩; exact .eventType answer (.done _)

theorem traces_subscription {id : String} {tr : List Event} {r : Except Error Subscription} :
    (subscription id).Traces tr r ↔
      ∃ answer, tr = [.subscription id answer] ∧ r = answer.mapError Error.resolution := by
  constructor
  · rintro (_ | _ | _ | ⟨answer, ⟨⟩⟩); exact ⟨answer, rfl, rfl⟩
  · rintro ⟨answer, rfl, rfl⟩; exact .subscription answer (.done _)

/-- **A trace of a sequence of actions** ends with a failure of the first, or
    goes on after its success. -/
theorem traces_bind {x : Action α} {f : α → Action β} {tr : List Event} {r : Except Error β} :
    (x >>= f).Traces tr r ↔ (∃ e, x.Traces tr (.error e) ∧ r = .error e) ∨
      ∃ a t₁ t₂, x.Traces t₁ (.ok a) ∧ (f a).Traces t₂ r ∧ tr = t₁ ++ t₂ := by
  show Program.Traces (x.run >>= ExceptT.bindCont f) tr r ↔ _
  rw [Program.traces_bind]
  constructor
  · rintro ⟨e | a, t₁, t₂, h₁, h₂, rfl⟩
    · obtain ⟨rfl, rfl⟩ := Program.traces_done.1 h₂
      exact Or.inl ⟨e, by rwa [List.append_nil], rfl⟩
    · exact Or.inr ⟨a, t₁, t₂, h₁, h₂, rfl⟩
  · rintro (⟨e, h, rfl⟩ | ⟨a, t₁, t₂, h₁, h₂, rfl⟩)
    · exact ⟨.error e, tr, [], h, .done _, (List.append_nil tr).symm⟩
    · exact ⟨.ok a, t₁, t₂, h₁, h₂, rfl⟩

theorem traces_bind_ok {x : Action α} {f : α → Action β} {tr : List Event} {b : β} :
    (x >>= f).Traces tr (.ok b) ↔
      ∃ a t₁ t₂, x.Traces t₁ (.ok a) ∧ (f a).Traces t₂ (.ok b) ∧ tr = t₁ ++ t₂ := by
  rw [traces_bind]
  constructor
  · rintro (⟨e, -, h⟩ | h)
    · cases h
    · exact h
  · exact Or.inr

/-- **A loop over a list that succeeds** has a part of the trace for each
    element. -/
theorem traces_mapM_ok {f : α → Action β} {as : List α} {tr : List Event} {bs : List β}
    (h : (as.mapM f).Traces tr (.ok bs)) :
    List.Forall₂ (fun a b => ∃ t, t ⊆ tr ∧ (f a).Traces t (.ok b)) as bs := by
  induction as generalizing tr bs with
  | nil =>
    rw [List.mapM_nil, traces_pure] at h
    cases h.2; exact .nil
  | cons a as ih =>
    rw [List.mapM_cons] at h
    obtain ⟨b, t₁, t, h₁, h', rfl⟩ := traces_bind_ok.1 h
    obtain ⟨bs', t₂, t₃, h₂, h₃, rfl⟩ := traces_bind_ok.1 h'
    obtain ⟨rfl, h₃⟩ := traces_pure.1 h₃
    cases h₃
    refine .cons ⟨t₁, List.subset_append_left _ _, h₁⟩ ((ih h₂).imp ?_)
    intro _ _
    rintro ⟨t, ht, hf⟩
    refine ⟨t, ?_, hf⟩
    rw [List.append_nil]
    exact List.Subset.trans ht (List.subset_append_right _ _)

theorem exists_of_traces_mapM_ok {f : α → Action β} {as : List α} {tr : List Event} {bs : List β}
    (h : (as.mapM f).Traces tr (.ok bs)) {e : Event} (he : e ∈ tr) :
    ∃ q ∈ as.zip bs, ∃ t, e ∈ t ∧ (f q.1).Traces t (.ok q.2) := by
  induction as generalizing tr bs with
  | nil =>
    rw [List.mapM_nil, traces_pure] at h
    rw [h.1] at he; cases he
  | cons a as ih =>
    rw [List.mapM_cons] at h
    obtain ⟨b, t₁, t, h₁, h', rfl⟩ := traces_bind_ok.1 h
    obtain ⟨bs', t₂, t₃, h₂, h₃, rfl⟩ := traces_bind_ok.1 h'
    obtain ⟨rfl, h₃⟩ := traces_pure.1 h₃
    cases h₃
    rw [List.append_nil] at he
    rcases List.mem_append.1 he with he | he
    · exact ⟨(a, b), List.mem_cons_self, t₁, he, h₁⟩
    · obtain ⟨q, hq, ht⟩ := ih h₂ he
      exact ⟨q, List.mem_cons_of_mem _ hq, ht⟩

end Action

end CursorCommit

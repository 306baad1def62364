/-
  The events of a run as a chain of stores.

  Each event of a run takes the store from one state to the next
  (`Event.Moves`), and the whole trace links the first store of the run to
  the last (`linked_run`).  `Event.writes` are the compare-and-sets of a
  trace that were applied, each with the stores around it.

  * `Linked.between`: only operations on the store lie between a read and a
    later call;
  * `Linked.record_of_revision` and `Linked.record_of_version`: a call that
    finds a key at the revision of a record that was read finds this record;
    likewise at its version, if nobody removes the record.
-/
import CursorCommit.Proofs.Program.Traces
import CursorCommit.Proofs.Store.Succession

namespace CursorCommit

/-- A compare-and-set that was applied, with the stores before and after it. -/
structure Write where
  key : String
  bytes : List UInt8
  before : Store
  after : Store

/-- The frame is that of a call with this answer. -/
structure Frame.Fits (frame : Frame) (call : StoreCall) (answer : Except StoreError call.Answer) :
    Prop where
  before : frame.before = frame.opening.afterAll frame.others
  effect : (∃ e, answer = .error e) ∧ frame.after = frame.before ∨
    frame.before.answer call = (answer, frame.after)

namespace Event

/-- Whether the event is a compare-and-set, applied or not. -/
def isAttempt : Event → Bool
  | .store (.compareAndSet ..) _ _ => true
  | _ => false

/-- The write that the event is. -/
def write? : Event → Option Write
  | .store (.compareAndSet key _ bytes _) (.ok true) frame =>
    some ⟨key, bytes, frame.before, frame.after⟩
  | _ => none

/-- The writes of a trace, in order. -/
def writes (tr : List Event) : List Write :=
  tr.filterMap write?

/-- The operations that the store underwent in the event. -/
def ops : Event → List StoreOp
  | .store (.compareAndSet key version bytes guards) (.ok _) frame =>
    frame.others ++ [.compareAndSet key version bytes guards]
  | .store _ _ frame => frame.others
  | _ => []

/-- None of the others removes the record at the key during the event. -/
def Spares (key : String) : Event → Prop
  | .store _ _ frame => frame.opening.Spares key frame.others
  | _ => True

instance (key : String) : DecidablePred (Spares key)
  | .store _ _ frame => Store.decidableSpares key frame.opening frame.others
  | .eventType .. | .subscription .. | .token _ | .tick _ => .isTrue trivial

/-- The event takes the store `s` to `s'`; the directories are `d`. -/
inductive Moves (d : Directory) : Store → Event → Store → Prop
  | store {call : StoreCall} {answer : Except StoreError call.Answer} {frame : Frame} :
      frame.Fits call answer → Moves d frame.opening (.store call answer frame) frame.after
  | eventType (s : Store) (name : String) : Moves d s (.eventType name (d.eventType name)) s
  | subscription (s : Store) (id : String) : Moves d s (.subscription id (d.subscription id)) s
  | token (s : Store) (text : String) : Moves d s (.token text) s
  | tick (s : Store) (metric : Metric) : Moves d s (.tick metric) s

end Event

/-- The events take the store `s` to `s'`, one after the other. -/
inductive Linked (d : Directory) : Store → List Event → Store → Prop
  | nil (s : Store) : Linked d s [] s
  | cons {s s₁ s' : Store} {e : Event} {tr : List Event} :
      e.Moves d s s₁ → Linked d s₁ tr s' → Linked d s (e :: tr) s'

section
variable {σ : Type} (env : Surroundings σ)

theorem Surroundings.moves_respond (w : World σ) (r : Request) :
    (env.respond w r).2.1.Moves env.directory w.store (env.respond w r).2.2.store := by
  cases r with
  | store call =>
    have h : Frame.Fits ⟨w.store, (env.turn w.disturbance call w.store).1.others,
        w.store.afterAll (env.turn w.disturbance call w.store).1.others,
        (env.respond w (.store call)).2.2.store⟩ call (env.respond w (.store call)).1 := by
      refine ⟨rfl, ?_⟩
      dsimp only [Surroundings.respond]
      split
      · exact Or.inl ⟨⟨_, rfl⟩, rfl⟩
      · exact Or.inr rfl
    exact .store h
  | eventType name => exact .eventType _ name
  | subscription id => exact .subscription _ id
  | token => exact .token _ _
  | tick metric => exact .tick _ metric

/-- **The trace of a run links its first store to its last.** -/
theorem Program.linked_run {α : Type} (p : Program α) (w : World σ) :
    Linked env.directory w.store (p.run env w).trace (p.run env w).world.store := by
  induction p generalizing w with
  | done a => exact .nil _
  | ask r next ih => rw [run_ask]; exact .cons (env.moves_respond w r) (ih _ _)

theorem Action.linked_run {α : Type} (x : Action α) (w : World σ) :
    Linked env.directory w.store (x.runIn env w).trace (x.runIn env w).world.store :=
  Program.linked_run env x.run w

end

/-! ## Histories -/

/-- Each event of the trace stands in the relation to the events before it,
    which are the past and the earlier ones of the trace. -/
def Along (P : List Event → Event → Prop) : List Event → List Event → Prop
  | _, [] => True
  | past, e :: tr => P past e ∧ Along P (past ++ [e]) tr

namespace Along

variable {P : List Event → Event → Prop} {past : List Event}

theorem append_iff {t₁ t₂ : List Event} :
    Along P past (t₁ ++ t₂) ↔ Along P past t₁ ∧ Along P (past ++ t₁) t₂ := by
  induction t₁ generalizing past with
  | nil => simp [Along]
  | cons e t₁ ih => simp only [List.cons_append, Along, ih, List.append_assoc, and_assoc,
      List.nil_append]

theorem of_forall {tr : List Event} (h : ∀ past, ∀ e ∈ tr, P past e) : Along P past tr := by
  induction tr generalizing past with
  | nil => trivial
  | cons e tr ih =>
    exact ⟨h past e List.mem_cons_self, ih fun past e he => h past e (List.mem_cons_of_mem _ he)⟩

theorem imp {Q : List Event → Event → Prop} {tr : List Event} (hPQ : ∀ past e, P past e → Q past e)
    (h : Along P past tr) : Along Q past tr := by
  induction tr generalizing past with
  | nil => trivial
  | cons e tr ih => exact ⟨hPQ past e h.1, ih h.2⟩

end Along

namespace Event

/-- What a write puts where. -/
def entries (tr : List Event) : List (String × List UInt8) :=
  (writes tr).map fun w => (w.key, w.bytes)

theorem writes_append (t₁ t₂ : List Event) : writes (t₁ ++ t₂) = writes t₁ ++ writes t₂ :=
  List.filterMap_append

theorem entries_append (t₁ t₂ : List Event) : entries (t₁ ++ t₂) = entries t₁ ++ entries t₂ := by
  simp only [entries, writes_append, List.map_append]

theorem write?_eq_none {e : Event} (h : e.isAttempt = false) : e.write? = none := by
  unfold write?
  split
  · cases h
  · rfl

theorem entries_eq_nil {tr : List Event} (h : ∀ e ∈ tr, e.isAttempt = false) :
    entries tr = [] := by
  have : writes tr = [] := List.filterMap_eq_nil_iff.2 fun e he => write?_eq_none (h e he)
  rw [entries, this]; rfl

end Event

/-! ## Frames -/

namespace Frame.Fits

variable {frame : Frame} {key : String}

theorem of_get {o : Option Record} (h : frame.Fits (.get key) (.ok o)) :
    frame.after = frame.before ∧ frame.before.record? key = o := by
  rcases h.effect with ⟨⟨e, he⟩, -⟩ | h
  · cases he
  · simp only [Store.answer, Store.get, Store.whenAvailable, Prod.mk.injEq] at h
    obtain ⟨h, ha⟩ := h
    split at h
    · cases h; exact ⟨ha.symm, rfl⟩
    · cases h

theorem of_compareAndSet {version : Int} {bytes : List UInt8} {guards : List Guard} {b : Bool}
    (h : frame.Fits (.compareAndSet key version bytes guards) (.ok b)) :
    b = frame.before.admits key version guards ∧
      frame.after = (if b then frame.before.write key bytes else frame.before) ∧
      frame.before.available = true := by
  rcases h.effect with ⟨⟨e, he⟩, -⟩ | h
  · cases he
  · cases hv : frame.before.available with
    | false =>
      simp only [Store.answer, Store.compareAndSet, Store.whenAvailable, hv] at h
      cases h
    | true =>
      simp only [Store.answer, Store.compareAndSet, Store.whenAvailable, hv, if_true] at h
      split at h <;> simp_all

/-- **What a call does to the store**: nothing, or the write that its event
    is. -/
theorem after_cases {call : StoreCall} {answer : Except StoreError call.Answer}
    (h : frame.Fits call answer) :
    (Event.store call answer frame).write? = none ∧ frame.after = frame.before ∨
      ∃ k bytes, (Event.store call answer frame).write? =
          some ⟨k, bytes, frame.before, frame.after⟩ ∧
        frame.after = frame.before.write k bytes := by
  cases call with
  | compareAndSet k version bytes guards =>
    cases answer with
    | error err =>
      refine Or.inl ⟨rfl, ?_⟩
      rcases h.effect with ⟨-, h'⟩ | h'
      · exact h'
      · have hfst := congrArg Prod.fst h'
        have hsnd := congrArg Prod.snd h'
        simp only [Store.answer] at hfst hsnd
        split at hfst
        · cases hfst
        · next he => rw [he] at hsnd; exact hsnd.symm
    | ok b =>
      obtain ⟨-, ha, -⟩ := h.of_compareAndSet
      cases b with
      | false => exact Or.inl ⟨rfl, ha⟩
      | true => exact Or.inr ⟨k, bytes, rfl, ha⟩
  | _ =>
    refine Or.inl ⟨rfl, ?_⟩
    rcases h.effect with ⟨-, h'⟩ | h'
    exacts [h', (congrArg Prod.snd h').symm]

end Frame.Fits

/-! ## Chains -/

namespace Event.Moves

variable {d : Directory} {s s' : Store} {e : Event}

theorem eq_afterAll (h : e.Moves d s s') : s' = s.afterAll e.ops := by
  cases h with
  | @store call answer frame h =>
    cases call with
    | compareAndSet key version bytes guards =>
      cases answer with
      | error err =>
        rcases h.effect with ⟨-, h'⟩ | h'
        · rw [h', h.before]; rfl
        · have := congrArg Prod.snd h'
          have h₁ := congrArg Prod.fst h'
          simp only [Store.answer] at this h₁
          split at h₁
          · cases h₁
          · next he => rw [he] at this; rw [← this, h.before]; rfl
      | ok b =>
        obtain ⟨hb, ha, hv⟩ := h.of_compareAndSet
        rw [Event.ops, Store.afterAll_append, ← h.before, Store.afterAll_cons, Store.afterAll_nil,
          Store.after_of_available hv, ha, hb]
    | get key =>
      have ha : frame.after = frame.before := by
        rcases h.effect with ⟨-, h⟩ | h
        exacts [h, (congrArg Prod.snd h).symm]
      rw [ha, h.before]; rfl
    | list start =>
      have ha : frame.after = frame.before := by
        rcases h.effect with ⟨-, h⟩ | h
        exacts [h, (congrArg Prod.snd h).symm]
      rw [ha, h.before]; rfl
  | _ => rfl

theorem spares_ops {key : String} (h : e.Moves d s s') (hk : e.Spares key) :
    s.Spares key e.ops := by
  cases h with
  | @store call answer frame h =>
    cases call with
    | compareAndSet k version bytes guards =>
      cases answer with
      | error err => exact hk
      | ok b => exact Store.spares_append.2 ⟨hk, Store.spares_compareAndSet ..⟩
    | _ => exact hk
  | _ => trivial

end Event.Moves

namespace Linked

variable {d : Directory} {s s' : Store}

theorem split {t₁ t₂ : List Event} (h : Linked d s (t₁ ++ t₂) s') :
    ∃ m, Linked d s t₁ m ∧ Linked d m t₂ s' := by
  induction t₁ generalizing s with
  | nil => exact ⟨s, .nil s, h⟩
  | cons e t₁ ih =>
    cases h with
    | cons he h =>
      obtain ⟨m, h₁, h₂⟩ := ih h
      exact ⟨m, .cons he h₁, h₂⟩

theorem eq_afterAll {tr : List Event} (h : Linked d s tr s') :
    s' = s.afterAll (tr.flatMap Event.ops) := by
  induction h with
  | nil => rfl
  | cons he _ ih => rw [List.flatMap_cons, Store.afterAll_append, ← he.eq_afterAll, ih]

theorem spares_ops {tr : List Event} {key : String} (h : Linked d s tr s')
    (hk : ∀ e ∈ tr, e.Spares key) : s.Spares key (tr.flatMap Event.ops) := by
  induction h with
  | nil => trivial
  | cons he _ ih =>
    rw [List.flatMap_cons, Store.spares_append, ← he.eq_afterAll]
    exact ⟨he.spares_ops (hk _ List.mem_cons_self),
      ih fun e he => hk e (List.mem_cons_of_mem _ he)⟩

theorem fits {t₁ t₂ : List Event} {call : StoreCall} {answer : Except StoreError call.Answer}
    {frame : Frame} (h : Linked d s (t₁ ++ .store call answer frame :: t₂) s') :
    frame.Fits call answer := by
  obtain ⟨m, -, h⟩ := h.split
  cases h with
  | cons he _ => cases he with
    | store hf => exact hf

/-- **Between a read and a later call** the store undergoes operations only:
    the store that the call meets is the one that was read after some of
    them, and they spare what the events up to the call spare. -/
theorem between {past rest : List Event} {call : StoreCall} {answer : Except StoreError call.Answer}
    {frame : Frame} {key : String} {o : Option Record} {f : Frame}
    (h : Linked d s (past ++ .store call answer frame :: rest) s')
    (hr : .store (.get key) (.ok o) f ∈ past) :
    ∃ before ops, (s.afterAll before).record? key = o ∧
      frame.before = (s.afterAll before).afterAll ops ∧
      ∀ k, (∀ e ∈ past ++ [.store call answer frame], e.Spares k) →
        (s.afterAll before).Spares k ops := by
  obtain ⟨t₁, t₂, rfl⟩ := List.append_of_mem hr
  obtain ⟨m₂, h₁₂, hc⟩ := h.split
  obtain ⟨m₁, h₁, h₂⟩ := h₁₂.split
  cases hc with
  | cons hc _ =>
    cases h₂ with
    | cons hg h₂ =>
      cases hg with
      | store hg =>
        obtain ⟨ha, hk⟩ := hg.of_get
        have hm : s.afterAll (t₁.flatMap Event.ops ++ f.others) = f.before := by
          rw [Store.afterAll_append, ← h₁.eq_afterAll, hg.before]
        have he := h₂.eq_afterAll
        rw [ha] at he
        cases hc with
        | store hc =>
          refine ⟨_, t₂.flatMap Event.ops ++ frame.others, by rw [hm, hk], ?_, fun k hs => ?_⟩
          · rw [hm, Store.afterAll_append, ← he, hc.before]
          · rw [hm, Store.spares_append, ← he, ← ha]
            exact ⟨h₂.spares_ops fun e he => hs e (by simp [he]),
              hs (.store call answer frame) (by simp)⟩

/-- **A revision that was read is still that of the same record.** -/
theorem record_of_revision {past rest : List Event} {call : StoreCall}
    {answer : Except StoreError call.Answer} {frame : Frame} {key : String} {record : Record}
    {f : Frame} (hs : s.Reachable) (h : Linked d s (past ++ .store call answer frame :: rest) s')
    (hr : .store (.get key) (.ok (some record)) f ∈ past)
    (hv : frame.before.revisionAt key = record.revision) :
    frame.before.record? key = some record := by
  obtain ⟨before, ops, hk, he, -⟩ := h.between hr
  rw [he] at hv ⊢
  exact (hs.afterAll before).sound.record?_eq_of_revisionAt hk ops hv

/-- **A version that was read is still that of the same record**, if nobody
    removes it. -/
theorem record_of_version {past rest : List Event} {call : StoreCall}
    {answer : Except StoreError call.Answer} {frame : Frame} {key : String} {record : Record}
    {f : Frame} (h : Linked d s (past ++ .store call answer frame :: rest) s')
    (hs : ∀ e ∈ past ++ [.store call answer frame], e.Spares key)
    (hr : .store (.get key) (.ok (some record)) f ∈ past)
    (hv : frame.before.versionAt key = record.version) :
    frame.before.record? key = some record := by
  obtain ⟨before, ops, hk, he, hops⟩ := h.between hr
  rw [he] at hv ⊢
  exact (hops key hs).record?_eq_of_versionAt hk hv

end Linked

end CursorCommit

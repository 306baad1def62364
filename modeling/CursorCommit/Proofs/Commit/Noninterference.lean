/-
  What the answer of a commit depends on, while nobody else acts.

  `commit_noninterference`: two stores that agree on whether the stream has a
  session and on the bytes at the assignments and the offsets of the batch's
  partitions get the same answer, whatever else they hold and whatever their
  versions and revisions are.

  `Agree R` carries this through the phases: on both stores a phase fails with
  the same error, or succeeds with values that `R` relates.  What was seen of an
  assignment, and what was read of an offset, agrees up to its revision or
  version; what becomes of a batch is the same.
-/
import CursorCommit.Proofs.Commit.Effect
import CursorCommit.Proofs.Store.Advance

namespace CursorCommit

/-! ## Computations that agree -/

/-- Two computations fail with the same error, or both succeed with values that
    `R` relates. -/
inductive Agree {ε α β : Type} (R : α → β → Prop) : Except ε α → Except ε β → Prop
  | error (e : ε) : Agree R (.error e) (.error e)
  | ok {a : α} {b : β} : R a b → Agree R (.ok a) (.ok b)

namespace Agree

variable {ε α α' β β' : Type} {R : α → β → Prop} {S : α' → β' → Prop}

theorem bind {x : Except ε α} {y : Except ε β} {f : α → Except ε α'} {g : β → Except ε β'}
    (h : Agree R x y) (hf : ∀ a b, R a b → Agree S (f a) (g b)) : Agree S (x >>= f) (y >>= g) := by
  cases h with
  | error e => exact .error e
  | ok hr => exact hf _ _ hr

theorem bind_same {x : Except ε α} {f : α → Except ε α'} {g : α → Except ε β'}
    (hf : ∀ a, x = .ok a → Agree S (f a) (g a)) : Agree S (x >>= f) (x >>= g) := by
  cases x with
  | error e => exact .error e
  | ok a => exact hf a rfl

theorem mapM {f : α → Except ε α'} {g : β → Except ε β'} {as : List α} {bs : List β}
    (h : List.Forall₂ (fun a b => Agree S (f a) (g b)) as bs) :
    Agree (List.Forall₂ S) (as.mapM f) (bs.mapM g) := by
  induction h with
  | nil => exact .ok .nil
  | cons hx _ ih =>
    rw [List.mapM_cons, List.mapM_cons]
    exact hx.bind fun _ _ hr => ih.bind fun _ _ hrs => .ok (.cons hr hrs)

end Agree

/-! ## Records of the same bytes -/

/-- Two records, or the absence of any, hold the same bytes. -/
abbrev SameBytes : Option Record → Option Record → Prop :=
  Option.Rel fun r r' => r.bytes = r'.bytes

section
variable {s s' : Store} {key : String} {o o' : Option Record}

theorem Store.sameBytes_of_bytesAt? (h : s.bytesAt? key = s'.bytesAt? key) :
    SameBytes (s.record? key) (s'.record? key) := by
  unfold bytesAt? at h
  cases hr : s.record? key <;> cases hr' : s'.record? key <;> rw [hr, hr'] at h
  · exact .none
  · cases h
  · cases h
  · exact .some (Option.some.inj h)

theorem Store.agree_look (ha : s.available = true) (ha' : s'.available = true)
    (h : s.bytesAt? key = s'.bytesAt? key) : Agree SameBytes (s.look key) (s'.look key) := by
  rw [look_eq_ok_iff.2 ⟨ha, rfl⟩, look_eq_ok_iff.2 ⟨ha', rfl⟩]
  exact .ok (sameBytes_of_bytesAt? h)

theorem Sighting.assignment_congr (h : SameBytes o o') :
    (ofRecord? o).assignment = (ofRecord? o').assignment := by
  cases h with
  | none => rfl
  | some h => simp only [ofRecord?, Record.text_congr h]

theorem StoredOffset.agree_ofRecord? (h : SameBytes o o') (subscription : String)
    (tp : TopicPartition) :
    Agree (fun current current' => current.offset = current'.offset)
      (ofRecord? subscription tp o) (ofRecord? subscription tp o') := by
  cases h with
  | none => exact .error _
  | @some record record' h =>
    simp only [ofRecord?, ofRecord, Record.text_congr h]
    cases record'.text with
    | error fault => exact .error _
    | ok offset => exact .ok rfl

end

/-- What a plan makes of its batch. -/
def Plan.gist (p : Plan) : Batch × Fold := (p.batch, p.fold)

theorem foldPartition_congr (c : Comparator) (tp : TopicPartition) {current current' : StoredOffset}
    (h : current.offset = current'.offset) (offsets : List String) :
    foldPartition c tp current offsets = foldPartition c tp current' offsets := by
  rw [foldPartition, h, foldPartition]

namespace Coordinator

/-- Two stores that are alike to the commit of the cursors. -/
structure Alike (c : Coordinator) (stream subscription : String) (d : Directory)
    (cursors : List Cursor) (s s' : Store) : Prop where
  available : s.available = true
  available' : s'.available = true
  session : (s.record? (c.sessionKey subscription stream)).isSome =
    (s'.record? (c.sessionKey subscription stream)).isSome
  assignments : ∀ tp ∈ d.partitions cursors,
    s.bytesAt? (c.assignmentKey subscription tp) = s'.bytesAt? (c.assignmentKey subscription tp)
  offsets : ∀ tp ∈ d.partitions cursors,
    s.bytesAt? (c.offsetKey subscription tp) = s'.bytesAt? (c.offsetKey subscription tp)

variable {c : Coordinator} {stream subscription : String} {d : Directory} {cursors : List Cursor}
  {s s' : Store} {positions : List Position}

/-! ## Up to the writes -/

theorem unowned_congr {batches : List Batch} {seen seen' : List Sighting}
    (h : List.Forall₂ (fun q q' => q.assignment = q'.assignment) seen seen') :
    unowned stream batches seen = unowned stream batches seen' := by
  induction h generalizing batches with
  | nil => rfl
  | @cons q q' seen seen' hq _ ih =>
    cases batches with
    | nil => rfl
    | cons b batches =>
      have howned : q.isOwnedBy stream = q'.isOwnedBy stream := by
        rw [Sighting.isOwnedBy, hq, Sighting.isOwnedBy]
      have ih : unowned stream batches seen = unowned stream batches seen' := ih
      simp only [unowned, List.zip_cons_cons, List.filter_cons, howned] at ih ⊢
      split <;> simp only [List.map_cons, ih]

namespace Alike

variable (h : c.Alike stream subscription d cursors s s')
include h

/-- **Validation agrees**, up to the revisions of what was seen. -/
theorem agree_ownedIn {batches : List Batch} (hb : ∀ b ∈ batches, b.tp ∈ d.partitions cursors) :
    Agree (List.Forall₂ fun q q' => q.assignment = q'.assignment)
      (c.ownedIn stream subscription batches s) (c.ownedIn stream subscription batches s') := by
  unfold ownedIn
  rw [Store.look_eq_ok_iff.2 ⟨h.available, rfl⟩, Store.look_eq_ok_iff.2 ⟨h.available', rfl⟩]
  show Agree _ (if _ then _ else _) (if _ then _ else _)
  rw [h.session]
  split
  · refine (Agree.mapM (S := fun q q' : Sighting => q.assignment = q'.assignment)
      (List.forall₂_same.2 fun b hmem => ?_)).bind fun seen seen' hseen => ?_
    · exact (Store.agree_look h.available h.available' (h.assignments b.tp (hb b hmem))).bind
        fun o o' ho => .ok (Sighting.assignment_congr ho)
    · rw [unowned_congr hseen]
      split
      · exact .ok hseen
      · exact .error _
  · exact .error _

/-- **Planning agrees** on what becomes of a batch. -/
theorem agree_planIn {b : Batch} (hb : b.tp ∈ d.partitions cursors) (seen seen' : Sighting) :
    Agree (fun p p' => p.gist = p'.gist) (c.planIn subscription positions b seen s)
      (c.planIn subscription positions b seen' s') := by
  unfold planIn
  refine (Store.agree_look h.available h.available' (h.offsets b.tp hb)).bind fun o o' ho => ?_
  refine (StoredOffset.agree_ofRecord? ho subscription b.tp).bind fun current current' hoffset => ?_
  rw [foldPartition_congr _ _ hoffset]
  exact Agree.bind_same fun fold _ => .ok rfl

/-- **The phases before the writes agree** on the positions and on what becomes
    of the batches. -/
theorem agree_preparedIn :
    Agree (fun q q' => q.1 = q'.1 ∧ List.Forall₂ (fun p p' => p.gist = p'.gist) q.2 q'.2)
      (c.preparedIn stream subscription d cursors s)
      (c.preparedIn stream subscription d cursors s') := by
  unfold preparedIn
  refine Agree.bind_same fun _ _ => Agree.bind_same fun found _ => ?_
  refine Agree.bind_same fun positions hp => ?_
  have hb : ∀ b ∈ Batch.group positions, b.tp ∈ d.partitions cursors := by
    intro b hmem
    rw [Directory.partitions_eq_map_tp (Directory.locates_of_mapM_place hp)]
    exact List.mem_map_of_mem hmem
  refine (h.agree_ownedIn hb).bind fun seen seen' hseen => ?_
  -- the batches are the same, and planning makes the same of them whatever was seen
  refine (Agree.mapM ((forall₂_zip_same hseen).imp ?_)).bind fun plans plans' hplans =>
    .ok ⟨rfl, hplans⟩
  rintro ⟨b, q⟩ ⟨_, q'⟩ ⟨⟨rfl, -⟩, hmem⟩
  exact h.agree_planIn (hb b hmem) q q'

end Alike

/-! ## The whole commit -/

theorem planned_eq (count : Nat) (plans : List Plan) :
    planned count plans = ((plans.map Plan.gist).filter fun q => !q.2.advanced).foldl
      (fun all q => q.1.record q.2.outcomes all) (List.replicate count .outdated) := by
  rw [List.filter_map, List.foldl_map]
  rfl

/-- **What the writes come to** is in what the plans make of their batches. -/
theorem value_writeAll (token : Nat → String) {w : World Unit} {plans : List Plan}
    (h : c.Prepared stream subscription d cursors w.store positions plans) :
    ((c.writeAll stream subscription positions plans).run (.undisturbed d token) w).value =
      ((plans.map Plan.gist).filter fun q => q.2.advanced).map fun q =>
        (q.1, if c.attempts = 0 then .error .conflict else .ok q.2.outcomes) := by
  rw [List.filter_map, List.map_map]
  by_cases hn : c.attempts = 0
  · simp only [hn, if_true]
    exact (run_writeEach_zero stream subscription positions d token _ w hn).1
  · simp only [hn, if_false]
    exact (run_writeAll d token h (Or.inl hn)).1

section
variable (d : Directory) (token token' : Nat → String) (w w' : World Unit) (c : Coordinator)
  (stream subscription : String) (cursors : List Cursor)

/-- **A commit depends on its batch's records only**: in stores that agree on
    whether the stream has a session and on the bytes at the assignments and
    the offsets of the batch's partitions, it answers the same, with the same
    results or the same error, while nobody else acts. -/
theorem commit_noninterference
    (h : c.Alike stream subscription d cursors w.store w'.store) :
    ((c.commit stream subscription cursors).runIn (.undisturbed d token) w).value =
      ((c.commit stream subscription cursors).runIn (.undisturbed d token') w').value := by
  by_cases hc : cursors = []
  · subst hc
    rw [(runIn_commit_nil d token).1, (runIn_commit_nil d token').1]
  · have hagree := h.agree_preparedIn
    generalize hq : c.preparedIn stream subscription d cursors w.store = q,
      hq' : c.preparedIn stream subscription d cursors w'.store = q' at hagree
    cases hagree with
    | error e =>
      rw [(runIn_commit_of_error d token hc hq).1, (runIn_commit_of_error d token' hc hq').1]
    | @ok q q' hsame =>
      obtain ⟨positions, plans⟩ := q
      obtain ⟨_, plans'⟩ := q'
      obtain ⟨rfl, hplans⟩ := hsame
      have hgist : plans.map Plan.gist = plans'.map Plan.gist := by
        rw [← List.forall₂_eq_eq_eq, List.forall₂_map_left_iff, List.forall₂_map_right_iff]
        exact hplans
      have hp := preparedIn_eq_ok_iff.1 hq
      have hp' := preparedIn_eq_ok_iff.1 hq'
      rw [(runIn_commit_of_prepared d token hc hp).1, (runIn_commit_of_prepared d token' hc hp').1,
        value_writeAll token hp, value_writeAll token' hp', results, results, planned_eq,
        planned_eq, hgist]

/-- The sample store with another history: the session and an offset were
    written before, with other bytes, and there is a record of another
    subscription. -/
def Sample.rewritten : Store :=
  Store.empty.afterAll [.put (Sample.offsetAt "0") (Utf8.encode "4"),
    .put (Sample.coordinator.offsetKey "other" ⟨"t", "0"⟩) (Utf8.encode "9"),
    .put (Sample.offsetAt "0") (Utf8.encode "5"), .put (Sample.offsetAt "1") (Utf8.encode "5"),
    .put (Sample.assignmentAt "1") Sample.assigned, .put (Sample.assignmentAt "0") Sample.assigned,
    .put (Sample.coordinator.sessionKey "s" "n") (Utf8.encode "since")]

/-- The two histories get one answer. -/
theorem rewritten_answers_alike :
    Sample.store.versionAt (Sample.offsetAt "0") ≠
        Sample.rewritten.versionAt (Sample.offsetAt "0") ∧
      (Sample.atRest [Sample.cursor "0" "7"]).value.isOk = true ∧
        (Sample.atRest [Sample.cursor "0" "7"]).value =
          ((Sample.coordinator.commit "n" "s" [Sample.cursor "0" "7"]).runIn
            (.undisturbed Sample.directory toString) ⟨Sample.rewritten, 0, ()⟩).value := by
  have halike : Sample.coordinator.Alike "n" "s" Sample.directory [Sample.cursor "0" "7"]
      Sample.store Sample.rewritten :=
    ⟨rfl, rfl, by decide +kernel, by decide +kernel, by decide +kernel⟩
  exact ⟨by decide +kernel, by decide +kernel,
    commit_noninterference Sample.directory toString toString ⟨Sample.store, 0, ()⟩
      ⟨Sample.rewritten, 0, ()⟩ Sample.coordinator "n" "s" [Sample.cursor "0" "7"] halike⟩

end

end Coordinator

end CursorCommit

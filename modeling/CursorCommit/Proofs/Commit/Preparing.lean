/-
  The phases of a commit before its writes, in a store at rest.

  What they come to is a computation on the store (`looks_prepare`).
  `Prepared` says when it succeeds, in terms of the directory and the records
  (`preparedIn_eq_ok_iff`): the request and its cursors are in order, the
  stream has a session, and there is a plan for each batch that rests on the
  store (`Plan.RestsOn`).
-/
import CursorCommit.Proofs.Commit.Course
import CursorCommit.Proofs.Cursor.Lookups

namespace CursorCommit

/-- The offset of a partition, given its record or the absence of one. -/
def StoredOffset.ofRecord? (subscription : String) (tp : TopicPartition) :
    Option Record → Except Error StoredOffset
  | none => .error (.invalidState (.noOffset tp subscription))
  | some record => ofRecord record

theorem StoredOffset.ofRecord?_eq_ok_iff {subscription : String} {tp : TopicPartition}
    {o : Option Record} {current : StoredOffset} :
    ofRecord? subscription tp o = .ok current ↔
      ∃ record, o = some record ∧ ofRecord record = .ok current := by
  cases o <;> simp [ofRecord?]

/-- What a plan rests on is what the store holds. -/
structure Plan.RestsOn (c : Coordinator) (stream subscription : String) (positions : List Position)
    (s : Store) (p : Plan) : Prop where
  stored : ∃ record, s.record? (c.offsetKey subscription p.batch.tp) = some record ∧
    StoredOffset.ofRecord record = .ok p.current
  folded : foldPartition (c.order.comparator p.batch.tp.topic) p.batch.tp p.current
    (p.batch.offsets positions) = .ok p.fold
  seen : Sighting.ofRecord? (s.record? (c.assignmentKey subscription p.batch.tp)) = p.seen
  owned : p.seen.isOwnedBy stream = true

namespace Coordinator

variable (c : Coordinator) (stream subscription : String)

/-! ## What the phases make of a store -/

/-- The sightings of the batches' partitions, if the stream has a session and
    owns them. -/
def ownedIn (batches : List Batch) (s : Store) : Except Error (List Sighting) := do
  if (← s.look (c.sessionKey subscription stream)).isSome then
    let seen ← batches.mapM fun b => do
      return Sighting.ofRecord? (← s.look (c.assignmentKey subscription b.tp))
    if unowned stream batches seen = [] then return seen
    else throw (.ownership stream (unowned stream batches seen) [])
  else throw (.ownership stream (batches.map Batch.tp) [])

/-- The plan of a batch whose assignment was seen. -/
def planIn (positions : List Position) (b : Batch) (seen : Sighting) (s : Store) :
    Except Error Plan := do
  let record ← s.look (c.offsetKey subscription b.tp)
  let current ← StoredOffset.ofRecord? subscription b.tp record
  let fold ← foldPartition (c.order.comparator b.tp.topic) b.tp current (b.offsets positions)
  return ⟨b, current, fold, seen⟩

/-- The positions and the plans of a batch of cursors. -/
def preparedIn (d : Directory) (cursors : List Cursor) (s : Store) :
    Except Error (List Position × List Plan) := do
  Requested.checkCommit stream subscription
  let found ← (d.subscription subscription).mapError Error.resolution
  let positions ← cursors.mapM (d.place found)
  let seen ← c.ownedIn stream subscription (Batch.group positions) s
  let plans ← ((Batch.group positions).zip seen).mapM fun (b, seen) =>
    c.planIn subscription positions b seen s
  return (positions, plans)

variable {c stream subscription} {d : Directory}

theorem looks_sight (tp : TopicPartition) : (c.sight subscription tp).Looks d fun s => do
    return Sighting.ofRecord? (← s.look (c.assignmentKey subscription tp)) :=
  (Action.looks_get _).bind fun _ => Action.looks_pure _

theorem looks_owned (batches : List Batch) :
    (c.owned stream subscription batches).Looks d (c.ownedIn stream subscription batches) := by
  unfold owned hasSession
  simp only [bind_assoc, pure_bind]
  exact (Action.looks_get _).bind fun _ => Action.Looks.ite
    ((Action.Looks.mapM (fun b : Batch => looks_sight b.tp) batches).bind fun seen =>
      Action.Looks.ite (Action.looks_pure seen) (Action.looks_fail _))
    (Action.looks_fail _)

theorem looks_currentOffset (tp : TopicPartition) :
    (c.currentOffset subscription tp).Looks d fun s =>
      s.look (c.offsetKey subscription tp) >>= StoredOffset.ofRecord? subscription tp := by
  unfold currentOffset offset?
  rw [bind_assoc]
  refine (Action.looks_get _).bind fun o => ?_
  cases o with
  | none => exact Action.looks_fail _
  | some record =>
    show (some <$> Action.of (StoredOffset.ofRecord record) >>= _).Looks d _
    rw [map_eq_pure_bind, bind_assoc]
    refine ((Action.looks_of _).bind fun current => Action.looks_pure current).congr fun _ => ?_
    exact bind_pure (StoredOffset.ofRecord record)

theorem looks_plan (positions : List Position) (b : Batch) (seen : Sighting) :
    (c.plan subscription positions b seen).Looks d (c.planIn subscription positions b seen) := by
  refine ((looks_currentOffset b.tp).bind fun current =>
    (Action.looks_of _).bind fun fold => Action.looks_pure (Plan.mk b current fold seen)).congr
      fun s => ?_
  rw [planIn, bind_assoc]; rfl

theorem looks_prepare (cursors : List Cursor) :
    (c.prepare stream subscription cursors).Looks d
      (c.preparedIn stream subscription d cursors) :=
  (Action.looks_of _).bind fun _ =>
    (Action.looks_subscription _).bind fun found =>
      (Cursor.looks_positions found cursors).bind fun positions =>
        (looks_owned _).bind fun _ =>
          (Action.Looks.mapM (fun (b, s) => looks_plan positions b s) _).bind fun plans =>
            Action.looks_pure (positions, plans)

/-! ## When they succeed -/

theorem lookSight_eq_ok_iff {tp : TopicPartition} {s : Store} {seen : Sighting} :
    (s.look (c.assignmentKey subscription tp) >>= fun o => .ok (Sighting.ofRecord? o)) = .ok seen ↔
      s.available = true ∧
        Sighting.ofRecord? (s.record? (c.assignmentKey subscription tp)) = seen := by
  simp only [except_bind_eq_ok_iff, Store.look_eq_ok_iff, Except.ok.injEq]
  constructor
  · rintro ⟨o, ⟨ha, rfl⟩, h⟩
    exact ⟨ha, h⟩
  · rintro ⟨ha, h⟩
    exact ⟨_, ⟨ha, rfl⟩, h⟩

/-- **Validation succeeds** in a store where the stream has a session and owns
    all partitions. -/
theorem ownedIn_eq_ok_iff {batches : List Batch} {s : Store} {seen : List Sighting} :
    c.ownedIn stream subscription batches s = .ok seen ↔
      (s.available = true ∧ (s.record? (c.sessionKey subscription stream)).isSome = true) ∧
        List.Forall₂ (fun b q =>
          Sighting.ofRecord? (s.record? (c.assignmentKey subscription b.tp)) = q ∧
            q.isOwnedBy stream = true) batches seen := by
  unfold ownedIn
  constructor
  · intro h
    obtain ⟨o, ho, h⟩ := except_bind_eq_ok_iff.1 h
    obtain ⟨ha, rfl⟩ := Store.look_eq_ok_iff.1 ho
    split at h
    · next hsession =>
      obtain ⟨seen', hseen, h⟩ := except_bind_eq_ok_iff.1 h
      split at h
      · next hu =>
        cases h
        have hf := mapM_eq_ok_iff.1 hseen
        refine ⟨⟨ha, hsession⟩, List.forall₂_iff_zip.2 ⟨hf.length_eq, fun {b q} hbq => ?_⟩⟩
        have hq := (List.forall₂_iff_zip.1 hf).2 hbq
        exact ⟨(lookSight_eq_ok_iff.1 hq).2, unowned_eq_nil_iff.1 hu _ hbq⟩
      · cases h
    · cases h
  · rintro ⟨⟨ha, hsession⟩, hf⟩
    refine except_bind_eq_ok_iff.2 ⟨_, Store.look_eq_ok_iff.2 ⟨ha, rfl⟩, ?_⟩
    have hseen : (batches.mapM fun b =>
        s.look (c.assignmentKey subscription b.tp) >>= fun o => .ok (Sighting.ofRecord? o)) =
          .ok seen :=
      mapM_eq_ok_iff.2 (hf.imp fun b q hq => lookSight_eq_ok_iff.2 ⟨ha, hq.1⟩)
    rw [if_pos hsession]
    refine except_bind_eq_ok_iff.2 ⟨seen, hseen, if_pos ?_⟩
    exact unowned_eq_nil_iff.2 fun q hq => ((List.forall₂_iff_zip.1 hf).2 hq).2

/-- **Planning succeeds** with a plan that rests on the store. -/
theorem planIn_eq_ok_iff {positions : List Position} {b : Batch} {seen : Sighting} {s : Store}
    {p : Plan} (hs : s.available = true)
    (hseen : Sighting.ofRecord? (s.record? (c.assignmentKey subscription b.tp)) = seen)
    (ho : seen.isOwnedBy stream = true) :
    c.planIn subscription positions b seen s = .ok p ↔
      (p.batch = b ∧ p.seen = seen) ∧ p.RestsOn c stream subscription positions s := by
  unfold planIn
  constructor
  · intro h
    obtain ⟨o, hlook, h⟩ := except_bind_eq_ok_iff.1 h
    obtain ⟨current, hcurrent, h⟩ := except_bind_eq_ok_iff.1 h
    obtain ⟨fold, hfold, h⟩ := except_bind_eq_ok_iff.1 h
    cases h
    obtain ⟨-, rfl⟩ := Store.look_eq_ok_iff.1 hlook
    exact ⟨⟨rfl, rfl⟩, StoredOffset.ofRecord?_eq_ok_iff.1 hcurrent, hfold, hseen, ho⟩
  · rintro ⟨⟨rfl, rfl⟩, h⟩
    refine except_bind_eq_ok_iff.2 ⟨_, Store.look_eq_ok_iff.2 ⟨hs, rfl⟩, ?_⟩
    refine except_bind_eq_ok_iff.2 ⟨_, StoredOffset.ofRecord?_eq_ok_iff.2 h.stored, ?_⟩
    exact except_bind_eq_ok_iff.2 ⟨_, h.folded, rfl⟩

/-- **Planning all batches succeeds** with their plans in order. -/
theorem planEachIn_eq_ok_iff {positions : List Position} {batches : List Batch}
    {seen : List Sighting} {s : Store} {plans : List Plan} (hs : s.available = true)
    (hf : List.Forall₂ (fun b q =>
      Sighting.ofRecord? (s.record? (c.assignmentKey subscription b.tp)) = q ∧
        q.isOwnedBy stream = true) batches seen) :
    ((batches.zip seen).mapM fun (b, seen) => c.planIn subscription positions b seen s) =
        .ok plans ↔
      plans.map (fun p => (p.batch, p.seen)) = batches.zip seen ∧
        ∀ p ∈ plans, p.RestsOn c stream subscription positions s := by
  rw [mapM_eq_ok_iff]
  constructor
  · intro hp
    have hrests : List.Forall₂ (fun q p => (p.batch, p.seen) = q ∧
        p.RestsOn c stream subscription positions s) (batches.zip seen) plans := by
      refine List.forall₂_iff_zip.2 ⟨hp.length_eq, fun {q p} hqp => ?_⟩
      obtain ⟨hq, ho⟩ := (List.forall₂_iff_zip.1 hf).2 (List.of_mem_zip hqp).1
      obtain ⟨⟨hb, hsaw⟩, hr⟩ :=
        (planIn_eq_ok_iff hs hq ho).1 ((List.forall₂_iff_zip.1 hp).2 hqp)
      exact ⟨Prod.ext hb hsaw, hr⟩
    refine ⟨?_, fun p hm => ?_⟩
    · rw [← List.forall₂_eq_eq_eq, List.forall₂_map_left_iff]
      exact hrests.flip.imp fun _ _ h => h.1
    · obtain ⟨q, -, -, hr⟩ := forall₂_mem_right hrests hm
      exact hr
  · rintro ⟨hmap, hrests⟩
    rw [← hmap, List.forall₂_map_left_iff, List.forall₂_same]
    intro p hp
    have hr := hrests p hp
    exact (planIn_eq_ok_iff hs hr.seen hr.owned).2 ⟨⟨rfl, rfl⟩, hr⟩

variable (c stream subscription) in
/-- The commit of a batch can go on to its writes, with these positions and
    plans. -/
structure Prepared (d : Directory) (cursors : List Cursor) (s : Store) (positions : List Position)
    (plans : List Plan) : Prop where
  requested : Requested.checkCommit stream subscription = .ok ()
  placed : ∃ found, d.subscription subscription = .ok found ∧
    cursors.mapM (d.place found) = .ok positions
  available : s.available = true
  session : (s.record? (c.sessionKey subscription stream)).isSome = true
  planned : plans.map Plan.batch = Batch.group positions
  rests : ∀ p ∈ plans, p.RestsOn c stream subscription positions s

/-- **What a commit needs** to go on to its writes. -/
theorem preparedIn_eq_ok_iff {cursors : List Cursor} {s : Store} {positions : List Position}
    {plans : List Plan} : c.preparedIn stream subscription d cursors s = .ok (positions, plans) ↔
      c.Prepared stream subscription d cursors s positions plans := by
  unfold preparedIn
  constructor
  · intro h
    obtain ⟨u, hrequested, h⟩ := except_bind_eq_ok_iff.1 h
    obtain ⟨found, hfound, h⟩ := except_bind_eq_ok_iff.1 h
    obtain ⟨ps, hplaced, h⟩ := except_bind_eq_ok_iff.1 h
    obtain ⟨seen, hseen, h⟩ := except_bind_eq_ok_iff.1 h
    obtain ⟨plans', hplans, h⟩ := except_bind_eq_ok_iff.1 h
    cases h
    obtain ⟨⟨ha, hsession⟩, hf⟩ := ownedIn_eq_ok_iff.1 hseen
    obtain ⟨hmap, hrests⟩ := (planEachIn_eq_ok_iff ha hf).1 hplans
    have hfound : d.subscription subscription = .ok found := by
      cases hd : d.subscription subscription <;> rw [hd] at hfound <;> cases hfound
      rfl
    have hplanned : plans.map Plan.batch = Batch.group positions := by
      have hfst := congrArg (List.map Prod.fst) hmap
      rwa [List.map_map, List.map_fst_zip hf.length_eq.le] at hfst
    exact ⟨hrequested, ⟨found, hfound, hplaced⟩, ha, hsession, hplanned, hrests⟩
  · intro h
    obtain ⟨found, hfound, hplaced⟩ := h.placed
    have hf : List.Forall₂ (fun b q =>
        Sighting.ofRecord? (s.record? (c.assignmentKey subscription b.tp)) = q ∧
          q.isOwnedBy stream = true) (Batch.group positions) (plans.map Plan.seen) := by
      rw [← h.planned, List.forall₂_map_left_iff, List.forall₂_map_right_iff, List.forall₂_same]
      exact fun p hp => ⟨(h.rests p hp).seen, (h.rests p hp).owned⟩
    have hmap : plans.map (fun p => (p.batch, p.seen)) =
        (Batch.group positions).zip (plans.map Plan.seen) := by
      rw [← h.planned, List.zip_map']
    refine except_bind_eq_ok_iff.2 ⟨(), h.requested, ?_⟩
    refine except_bind_eq_ok_iff.2 ⟨found, by rw [hfound]; rfl, ?_⟩
    refine except_bind_eq_ok_iff.2 ⟨positions, hplaced, ?_⟩
    refine except_bind_eq_ok_iff.2 ⟨_, ownedIn_eq_ok_iff.2 ⟨⟨h.available, h.session⟩, hf⟩, ?_⟩
    exact except_bind_eq_ok_iff.2
      ⟨plans, (planEachIn_eq_ok_iff h.available hf).2 ⟨hmap, h.rests⟩, rfl⟩

end Coordinator

end CursorCommit

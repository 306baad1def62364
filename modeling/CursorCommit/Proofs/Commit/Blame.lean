/-
  Who is to blame for a commit that cannot be planned.

  Once the request, its cursors, the session and the assignments are in order
  (`Cleared`), a commit that may attempt its writes, while nobody else acts,
  fails only over offsets: a record that cannot be used (`RecordFault`) is the
  store's fault, and else a reported offset that cannot be compared with the
  stored one is the client's.  `Blames` says so of one partition, and
  `commit_blames_first` that the first partition at fault decides.
-/
import CursorCommit.Proofs.Commit.Acceptance
import CursorCommit.Proofs.Offset.RunningMaxima

namespace CursorCommit

/-- The first of the offsets that cannot be compared with the stored one, and
    what is wrong when it is compared with that one or an offset before it. -/
def Comparator.FirstFault (c : Comparator) (stored : String) (offsets : List String)
    (fault : OffsetFault) : Prop :=
  ∃ before x after, offsets = before ++ x :: after ∧
    (∀ y ∈ before, ∃ o, c.compare y stored = .ok o) ∧ (¬ ∃ o, c.compare x stored = .ok o) ∧
      ∃ reached ∈ stored :: before, c.compare x reached = .error fault

theorem Fold.firstFault_of_error {c : Comparator} {stored : String} {offsets : List String}
    {fault : OffsetFault} (h : ofOffsets c stored offsets = .error fault) :
    c.FirstFault stored offsets fault := by
  obtain ⟨before, x, after, fold, rfl, hfold, hx⟩ := ofOffsets_eq_error_iff.1 h
  obtain ⟨hbefore, hno⟩ := compare_start_of_compare_highWater hfold (x := x) (by simp [hx])
  exact ⟨before, x, after, rfl, hbefore, hno, fold.highWater, highWater_mem hfold, hx⟩

namespace Coordinator

/-- All that the commit of the cursors checks before it reads offsets holds in
    the store. -/
structure Cleared (c : Coordinator) (stream subscription : String) (d : Directory)
    (cursors : List Cursor) (s : Store) : Prop where
  requested : Requested.checkCommit stream subscription = .ok ()
  placed : ∃ found, d.subscription subscription = .ok found ∧
    ∀ cursor ∈ cursors, ∃ p, d.place found cursor = .ok p
  available : s.available = true
  session : (s.record? (c.sessionKey subscription stream)).isSome = true
  assigned : ∀ tp ∈ d.partitions cursors,
    Assigns stream (s.record? (c.assignmentKey subscription tp))

section
variable (c : Coordinator) (subscription : String) (d : Directory) (cursors : List Cursor)
  (s : Store) (tp : TopicPartition)

/-- The record of the partition's offset cannot be used, for this reason. -/
inductive RecordFault : StateFault → Prop
  | absent : s.record? (c.offsetKey subscription tp) = none →
      RecordFault (.noOffset tp subscription)
  | undecodable {record : Record} {fault : StoreFault} :
      s.record? (c.offsetKey subscription tp) = some record → record.text = .error fault →
        RecordFault (.stored fault)
  | unreadable {offset : String} {fault : OffsetFault} :
      s.textAt? (c.offsetKey subscription tp) = some offset →
        (c.order.comparator tp.topic).validate offset = .error fault →
          RecordFault (.unreadableOffset offset tp fault)

/-- Some offset that is reported for the partition cannot be compared with the
    stored one. -/
def HasIncomparable : Prop :=
  ∃ stored, s.textAt? (c.offsetKey subscription tp) = some stored ∧
    ∃ x ∈ d.offsetsIn tp cursors, ¬ ∃ o, (c.order.comparator tp.topic).compare x stored = .ok o

/-- The partition cannot be planned. -/
def AtFault : Prop :=
  (∃ fault, c.RecordFault subscription s tp fault) ∨
    c.HasIncomparable subscription d cursors s tp

/-- What a partition that cannot be planned is refused with. -/
inductive Blames : Error → Prop
  | record {fault : StateFault} : c.RecordFault subscription s tp fault →
      Blames (.invalidState fault)
  | cursor {stored : String} {fault : OffsetFault} :
      s.textAt? (c.offsetKey subscription tp) = some stored →
        (c.order.comparator tp.topic).validate stored = .ok () →
          (c.order.comparator tp.topic).FirstFault stored (d.offsetsIn tp cursors) fault →
            Blames (.invalidCursor (.offset fault))

end

variable {c : Coordinator} {stream subscription : String} {d : Directory} {cursors : List Cursor}
  {s : Store} {tp : TopicPartition} {e : Error}

/-! ## One partition -/

theorem Blames.atFault (h : c.Blames subscription d cursors s tp e) :
    c.AtFault subscription d cursors s tp := by
  cases h with
  | record h => exact Or.inl ⟨_, h⟩
  | cursor htext _ hfirst =>
    obtain ⟨before, x, after, hsplit, -, hx, -⟩ := hfirst
    exact Or.inr ⟨_, htext, x, by simp [hsplit], hx⟩

theorem not_recordFault {stored : String} (h : s.textAt? (c.offsetKey subscription tp) = some stored)
    (hform : (c.order.comparator tp.topic).validate stored = .ok ()) (fault : StateFault) :
    ¬ c.RecordFault subscription s tp fault := by
  obtain ⟨record, hrecord, htext⟩ := Store.textAt?_eq_some_iff.1 h
  intro hfault
  cases hfault with
  | absent hnone => rw [hnone] at hrecord; cases hrecord
  | undecodable hrecord' hbad =>
    rw [hrecord] at hrecord'
    cases hrecord'
    rw [htext] at hbad
    cases hbad
  | unreadable h' hbad =>
    rw [h] at h'
    cases h'
    rw [hform] at hbad
    cases hbad

theorem hasIncomparable_iff {stored : String}
    (h : s.textAt? (c.offsetKey subscription tp) = some stored)
    (hform : (c.order.comparator tp.topic).validate stored = .ok ()) :
    c.HasIncomparable subscription d cursors s tp ↔ ∃ x ∈ d.offsetsIn tp cursors,
      (c.order.comparator tp.topic).validate x ≠ .ok () ∨
        (c.order.comparator tp.topic).fieldCount x ≠
          (c.order.comparator tp.topic).fieldCount stored := by
  simp only [HasIncomparable, h, Option.some.injEq, exists_eq_left', Comparator.exists_compare_iff,
    hform, not_and_or, not_true, false_or, ne_eq]

/-- **A cursor is blamed only where the record can be used.** -/
theorem Blames.recordFault_iff (h : c.Blames subscription d cursors s tp e) :
    (∃ fault, c.RecordFault subscription s tp fault) ↔ ∃ fault, e = .invalidState fault := by
  cases h with
  | @record fault hfault => exact ⟨fun _ => ⟨fault, rfl⟩, fun _ => ⟨fault, hfault⟩⟩
  | cursor htext hform _ =>
    constructor
    · rintro ⟨fault, hfault⟩
      exact absurd hfault (not_recordFault htext hform fault)
    · rintro ⟨fault, hf⟩
      cases hf

variable {positions : List Position} {b : Batch} {seen : Sighting}

theorem exists_of_ofRecord_eq_error {record : Record} (h : StoredOffset.ofRecord record = .error e) :
    ∃ fault, record.text = .error fault ∧ e = .invalidState (.stored fault) := by
  unfold StoredOffset.ofRecord at h
  split at h
  · cases h
  · next fault htext =>
    cases h
    exact ⟨fault, htext, rfl⟩

theorem foldPartition_eq_error_iff {cmp : Comparator} {current : StoredOffset}
    {offsets : List String} : foldPartition cmp tp current offsets = .error e ↔
      (∃ fault, cmp.validate current.offset = .error fault ∧
        e = .invalidState (.unreadableOffset current.offset tp fault)) ∨
      cmp.validate current.offset = .ok () ∧
        ∃ fault, Fold.ofOffsets cmp current.offset offsets = .error fault ∧
          e = .invalidCursor (.offset fault) := by
  unfold foldPartition
  cases cmp.validate current.offset with
  | error fault => simp [eq_comm]
  | ok _ => simp [except_mapError_eq_error_iff]

/-- **What planning a partition fails with.** -/
theorem blames_of_planIn (hs : s.available = true) (hloc : List.Forall₂ d.Locates cursors positions)
    (hb : b ∈ Batch.group positions)
    (h : c.planIn subscription positions b seen s = .error e) :
    c.Blames subscription d cursors s b.tp e := by
  rcases except_bind_eq_error_iff.1 h with hlook | ⟨o, hlook, hafter⟩
  · rw [Store.look_eq_ok_iff.2 ⟨hs, rfl⟩] at hlook
    cases hlook
  obtain ⟨-, hrecord⟩ := Store.look_eq_ok_iff.1 hlook
  rcases except_bind_eq_error_iff.1 hafter with hcurrent | ⟨current, hcurrent, hplanned⟩
  · cases o with
    | none =>
      cases hcurrent
      exact .record (.absent hrecord)
    | some record =>
      obtain ⟨fault, htext, rfl⟩ := exists_of_ofRecord_eq_error hcurrent
      exact .record (.undecodable hrecord htext)
  obtain ⟨record, rfl, hvalue⟩ := StoredOffset.ofRecord?_eq_ok_iff.1 hcurrent
  have htext := Store.textAt?_eq hrecord (StoredOffset.ofRecord_eq_ok hvalue).1
  rcases except_bind_eq_error_iff.1 hplanned with hfold | ⟨_, -, hdone⟩
  · rw [offsets_of_locates hloc hb] at hfold
    rcases foldPartition_eq_error_iff.1 hfold with ⟨fault, hbad, rfl⟩ | ⟨hform, fault, hbad, rfl⟩
    · exact .record (.unreadable htext hbad)
    · exact .cursor htext hform (Fold.firstFault_of_error hbad)
  · cases hdone

/-- **A partition that has a plan is not at fault.** -/
theorem not_atFault_of_restsOn {p : Plan} (hloc : List.Forall₂ d.Locates cursors positions)
    (hb : p.batch ∈ Batch.group positions) (h : p.RestsOn c stream subscription positions s) :
    ¬ c.AtFault subscription d cursors s p.batch.tp := by
  obtain ⟨record, hrecord, hcurrent⟩ := h.stored
  have htext := Store.textAt?_eq hrecord (StoredOffset.ofRecord_eq_ok hcurrent).1
  obtain ⟨hself, hfold⟩ := foldPartition_eq_ok_iff.1 h.folded
  rintro (⟨fault, hfault⟩ | ⟨stored, hstored, x, hx, hno⟩)
  · exact not_recordFault htext (Comparator.validate_eq_ok_iff.2 hself) fault hfault
  · rw [htext] at hstored
    cases hstored
    rw [offsets_of_locates hloc hb] at hfold
    exact hno (Fold.exists_ofOffsets_iff.1 ⟨_, hfold⟩ x hx)

/-! ## The whole batch -/

/-- **The planning of a commit that is cleared** is a loop over its partitions,
    which fails at those at fault, over what they are blamed for. -/
theorem Cleared.exists_loop (h : c.Cleared stream subscription d cursors s) :
    ∃ (positions : List Position) (qs : List (Batch × Sighting)),
      c.preparedIn stream subscription d cursors s =
        (qs.mapM (fun (b, seen) => c.planIn subscription positions b seen s) >>=
          fun plans => .ok (positions, plans)) ∧
      d.partitions cursors = qs.map (fun q => q.1.tp) ∧
      ∀ q ∈ qs, (∀ p, c.planIn subscription positions q.1 q.2 s = .ok p →
          ¬ c.AtFault subscription d cursors s q.1.tp) ∧
        ∀ e, c.planIn subscription positions q.1 q.2 s = .error e →
          c.Blames subscription d cursors s q.1.tp e := by
  obtain ⟨found, hfound, hplaced⟩ := h.placed
  obtain ⟨positions, hp⟩ := exists_mapM_eq_ok_iff.2 hplaced
  have hloc := Directory.locates_of_mapM_place hp
  have hparts : d.partitions cursors = (Batch.group positions).map Batch.tp :=
    Directory.partitions_eq_map_tp hloc
  obtain ⟨seen, hseen⟩ : ∃ seen, List.Forall₂ (fun b q =>
      Sighting.ofRecord? (s.record? (c.assignmentKey subscription b.tp)) = q ∧
        q.isOwnedBy stream = true) (Batch.group positions) seen := by
    refine exists_forall₂ fun b hb => ⟨_, rfl, Sighting.isOwnedBy_ofRecord?_iff.2 ?_⟩
    exact h.assigned b.tp (hparts ▸ List.mem_map_of_mem hb)
  refine ⟨positions, (Batch.group positions).zip seen, ?_, ?_, fun q hq => ⟨fun p hplan => ?_, ?_⟩⟩
  · rw [preparedIn, h.requested, hfound, except_mapError_ok]
    show cursors.mapM (d.place found) >>= _ = _
    rw [hp]
    show c.ownedIn stream subscription (Batch.group positions) s >>= _ = _
    rw [ownedIn_eq_ok_iff.2 ⟨⟨h.available, h.session⟩, hseen⟩]
    rfl
  · rw [hparts, map_tp_zip hseen.length_eq]
  · obtain ⟨hsaw, howned⟩ := (List.forall₂_iff_zip.1 hseen).2 hq
    obtain ⟨⟨hb, -⟩, hrests⟩ := (planIn_eq_ok_iff h.available hsaw howned).1 hplan
    rw [← hb]
    exact not_atFault_of_restsOn hloc (hb ▸ (List.of_mem_zip hq).1) hrests
  · exact fun e he => blames_of_planIn h.available hloc (List.of_mem_zip hq).1 he

/-- **Planning fails** at the first partition at fault. -/
theorem blames_of_preparedIn (h : c.Cleared stream subscription d cursors s)
    (he : c.preparedIn stream subscription d cursors s = .error e) :
    ∃ before tp after, d.partitions cursors = before ++ tp :: after ∧
      (∀ tp' ∈ before, ¬ c.AtFault subscription d cursors s tp') ∧
        c.Blames subscription d cursors s tp e := by
  obtain ⟨positions, qs, heq, hparts, hqs⟩ := h.exists_loop
  rw [heq, except_bind_eq_error_iff] at he
  obtain ⟨before, q, after, rfl, hbefore, hq⟩ := mapM_eq_error_iff.1 (he.resolve_right (by simp))
  refine ⟨before.map (·.1.tp), q.1.tp, after.map (·.1.tp), ?_, ?_, (hqs q (by simp)).2 e hq⟩
  · rw [hparts, List.map_append, List.map_cons]
  · intro tp' htp
    obtain ⟨q', hq', rfl⟩ := List.mem_map.1 htp
    obtain ⟨p, hp⟩ := hbefore q' hq'
    exact (hqs q' (by simp [hq'])).1 p hp

theorem exists_preparedIn_iff (h : c.Cleared stream subscription d cursors s) :
    (∃ q, c.preparedIn stream subscription d cursors s = .ok q) ↔
      ∀ tp ∈ d.partitions cursors, ¬ c.AtFault subscription d cursors s tp := by
  constructor
  · rintro ⟨r, hr⟩ tp htp
    obtain ⟨positions, qs, heq, hparts, hqs⟩ := h.exists_loop
    rw [hparts] at htp
    obtain ⟨q, hq, rfl⟩ := List.mem_map.1 htp
    obtain ⟨plans, hplans, -⟩ := except_bind_eq_ok_iff.1 (heq.symm.trans hr)
    obtain ⟨p, hp⟩ := exists_mapM_eq_ok_iff.1 ⟨plans, hplans⟩ q hq
    exact (hqs q hq).1 p hp
  · intro hno
    cases hr : c.preparedIn stream subscription d cursors s with
    | ok q => exact ⟨q, rfl⟩
    | error e =>
      obtain ⟨before, tp, after, hsplit, -, hblames⟩ := blames_of_preparedIn h hr
      exact absurd hblames.atFault (hno tp (by simp [hsplit]))

/-! ## The commit -/

section
variable {token : Nat → String} {w : World Unit}

/-- A commit that is cleared fails iff it cannot be planned, and then over the
    same. -/
theorem value_eq_error_iff (h : c.Cleared stream subscription d cursors w.store)
    (hn : c.attempts ≠ 0) :
    ((c.commit stream subscription cursors).runIn (.undisturbed d token) w).value = .error e ↔
      c.preparedIn stream subscription d cursors w.store = .error e := by
  by_cases hc : cursors = []
  · -- no partition can be at fault
    subst hc
    obtain ⟨q, hq⟩ := (exists_preparedIn_iff h).2 fun tp htp => by cases htp
    obtain ⟨found, hfound, -⟩ := h.placed
    simp [(runIn_commit_nil d token).1, emptyIn_eq_ok h.requested hfound, hq]
  · cases hr : c.preparedIn stream subscription d cursors w.store with
    | error e' => simp [(runIn_commit_of_error d token hc hr).1]
    | ok q =>
      obtain ⟨rs, hrs, -⟩ :=
        completed_of_prepared d token hc (preparedIn_eq_ok_iff.1 hr) (Or.inl hn)
      simp [hrs]

/-- **The first partition at fault is to blame.**  Once the request, its cursors,
    the session and the assignments are in order, a commit that may attempt its
    writes fails, while nobody else acts, iff some partition is at fault.  The
    failure is then what the first such partition is blamed for, an unusable
    record before a cursor, and the store is as it was.  Where the record can
    be used, a cursor is at fault iff it is not of the comparator's form or has
    another number of fields. -/
theorem commit_blames_first (token : Nat → String) (w : World Unit)
    (h : c.Cleared stream subscription d cursors w.store)
    (hn : c.attempts ≠ 0) :
    let run := (c.commit stream subscription cursors).runIn (.undisturbed d token) w
    ((∃ e, run.value = .error e) ↔
      ∃ tp ∈ d.partitions cursors, c.AtFault subscription d cursors w.store tp) ∧
    (∀ e, run.value = .error e → run.world.store = w.store ∧
      ∃ before tp after, d.partitions cursors = before ++ tp :: after ∧
        (∀ tp' ∈ before, ¬ c.AtFault subscription d cursors w.store tp') ∧
          c.Blames subscription d cursors w.store tp e ∧
            ((∃ fault, c.RecordFault subscription w.store tp fault) ↔
              ∃ fault, e = .invalidState fault)) ∧
    ∀ tp stored, w.store.textAt? (c.offsetKey subscription tp) = some stored →
      (c.order.comparator tp.topic).validate stored = .ok () →
        (c.HasIncomparable subscription d cursors w.store tp ↔ ∃ x ∈ d.offsetsIn tp cursors,
          (c.order.comparator tp.topic).validate x ≠ .ok () ∨
            (c.order.comparator tp.topic).fieldCount x ≠
              (c.order.comparator tp.topic).fieldCount stored) := by
  intro run
  have hblames : ∀ e, run.value = .error e → ∃ before tp after,
      d.partitions cursors = before ++ tp :: after ∧
        (∀ tp' ∈ before, ¬ c.AtFault subscription d cursors w.store tp') ∧
          c.Blames subscription d cursors w.store tp e :=
    fun e he => blames_of_preparedIn h ((value_eq_error_iff h hn).1 he)
  refine ⟨⟨?_, ?_⟩, fun e he => ⟨congrArg World.store (world_of_error he), ?_⟩,
    fun tp stored htext hform => hasIncomparable_iff htext hform⟩
  · rintro ⟨e, he⟩
    obtain ⟨before, tp, after, hsplit, -, htp⟩ := hblames e he
    exact ⟨tp, by simp [hsplit], htp.atFault⟩
  · rintro ⟨tp, htp, hfault⟩
    cases hr : c.preparedIn stream subscription d cursors w.store with
    | ok q => exact absurd hfault ((exists_preparedIn_iff h).1 ⟨q, hr⟩ tp htp)
    | error e => exact ⟨e, (value_eq_error_iff h hn).2 hr⟩
  · obtain ⟨before, tp, after, hsplit, hbefore, htp⟩ := hblames e he
    exact ⟨before, tp, after, hsplit, hbefore, htp, htp.recordFault_iff⟩

/-- A store in which the offset of one partition is no number. -/
def Sample.unreadable : Store :=
  Sample.store.after (.put (Sample.offsetAt "1") (Utf8.encode "old"))

/-- A cursor that is no number itself does not draw the blame from the stored
    offset, or from a partition before its own. -/
theorem unreadable_offset_blamed :
    let cursors := [Sample.cursor "1" "x", Sample.cursor "0" "y"]
    let run := (Sample.coordinator.commit "n" "s" cursors).runIn
      (.undisturbed Sample.directory toString) ⟨Sample.unreadable, 0, ()⟩
    run.value = .error (.invalidState (.unreadableOffset "old" ⟨"t", "1"⟩ (.notUnsigned "old"))) ∧
      Sample.coordinator.Cleared "n" "s" Sample.directory cursors Sample.unreadable ∧
        Sample.coordinator.Blames "s" Sample.directory cursors Sample.unreadable ⟨"t", "1"⟩
          (.invalidState (.unreadableOffset "old" ⟨"t", "1"⟩ (.notUnsigned "old"))) := by
  intro cursors run
  have hcleared : Sample.coordinator.Cleared "n" "s" Sample.directory cursors
      Sample.unreadable := by
    refine ⟨by decide +kernel, ⟨⟨"s", .ofList ["orders"]⟩, rfl, fun cursor hc => ?_⟩,
      by decide +kernel, by decide +kernel, fun tp htp => ?_⟩
    · refine except_isOk_iff.1 ?_
      revert cursor
      decide +kernel
    · rw [← Sighting.isOwnedBy_ofRecord?_iff]
      revert tp
      decide +kernel
  have hvalue : run.value = .error (.invalidState
      (.unreadableOffset "old" ⟨"t", "1"⟩ (.notUnsigned "old"))) := by decide +kernel
  have hfault : Sample.coordinator.RecordFault "s" Sample.unreadable ⟨"t", "1"⟩
      (.unreadableOffset "old" ⟨"t", "1"⟩ (.notUnsigned "old")) :=
    .unreadable (by decide +kernel) (by decide +kernel)
  obtain ⟨-, hfirst, -⟩ := commit_blames_first toString ⟨_, 0, ()⟩ hcleared (by decide)
  obtain ⟨-, before, tp, after, hsplit, hbefore, hblames, -⟩ := hfirst _ hvalue
  have hparts : Sample.directory.partitions cursors = [⟨"t", "1"⟩, ⟨"t", "0"⟩] := by
    decide +kernel
  rw [hparts, List.cons_eq_append_iff] at hsplit
  rcases hsplit with ⟨-, htp⟩ | ⟨_, rfl, -⟩
  · cases htp
    exact ⟨hvalue, hcleared, hblames⟩
  · exact absurd (Or.inl ⟨_, hfault⟩) (hbefore _ List.mem_cons_self)

end

end Coordinator

end CursorCommit

/-
  Committing back the cursors that a read answered, while nobody else acts.

  `Returnable` says what it takes: a stream with a session and all partitions
  that have an offset, comparators that compare numbers, and stored offsets of
  their form.  Then the commit finds every cursor outdated and leaves the store
  as it was, iff no offset has a sign where padding puts zeros
  (`padding_keeps_positions`); `padded_sign_refused` is the case of a sign.
-/
import CursorCommit.Proofs.Commit.Acceptance
import CursorCommit.Proofs.Commit.Footprint
import CursorCommit.Proofs.Offset.Padding
import CursorCommit.Proofs.Read.Exactness

namespace CursorCommit.Coordinator

/-- The subscription has this offset in the store, for a topic of its event
    types. -/
structure HasOffset (c : Coordinator) (d : Directory) (subscription : String) (s : Store)
    (tp : TopicPartition) (offset : String) : Prop where
  level : Key.IsLevel tp.partition
  stored : s.textAt? (c.offsetKey subscription tp) = some offset
  topic : ∃ found name eventType, d.subscription subscription = .ok found ∧
    name ∈ found.eventTypes.names ∧ d.resolve name = .ok eventType ∧ eventType.topic = tp.topic

/-- The stream may report what a read of the subscription finds: it owns all
    of it, and the stored offsets are of the form of comparators that compare
    numbers. -/
structure Returnable (c : Coordinator) (d : Directory) (stream subscription : String) (s : Store) :
    Prop where
  named : Name.checkIdentifier stream = .ok ()
  session : (s.record? (c.sessionKey subscription stream)).isSome = true
  /-- The name with which the directory answers leads to the same topic. -/
  names : ∀ found, d.subscription subscription = .ok found → ∀ name ∈ found.eventTypes.names,
    ∀ eventType, d.resolve name = .ok eventType → found.includes eventType.name = true ∧
      ∃ again, d.resolve eventType.name = .ok again ∧ again.topic = eventType.topic
  assigned : ∀ tp offset, c.HasOffset d subscription s tp offset →
    Assigns stream (s.record? (c.assignmentKey subscription tp))
  partition : ∀ tp offset, c.HasOffset d subscription s tp offset →
    Name.checkSegment tp.partition = .ok ()
  byNumbers : ∀ tp offset, c.HasOffset d subscription s tp offset →
    (c.order.comparator tp.topic).ByNumbers
  accepted : ∀ tp offset, c.HasOffset d subscription s tp offset →
    (c.order.comparator tp.topic).validate offset = .ok ()

/-- All offsets that the subscription has in the store can be padded. -/
def AllPaddable (c : Coordinator) (d : Directory) (subscription : String) (s : Store) : Prop :=
  ∀ tp offset, c.HasOffset d subscription s tp offset → IsPaddable c.offsetWidth offset

variable {c : Coordinator} {stream subscription : String} {d : Directory} {token : Nat → String}
  {w : World Unit} {cursors : List Cursor}

/-! ## What was read -/

/-- **A cursor that was read** stands for an offset of the subscription. -/
theorem exists_hasOffset_of_ok {found : Subscription}
    (hread : ((c.cursors subscription).runIn (.undisturbed d token) w).value = .ok cursors)
    (hfound : d.subscription subscription = .ok found) {cursor : Cursor} (hc : cursor ∈ cursors) :
    ∃ name eventType offset, name ∈ found.eventTypes.names ∧ d.resolve name = .ok eventType ∧
      cursor.eventType = eventType.name ∧ cursor.offset = padOffset c.offsetWidth offset ∧
        c.HasOffset d subscription w.store ⟨eventType.topic, cursor.partition⟩ offset := by
  obtain ⟨⟨found', lists, hfound', rfl, hlists⟩, -⟩ := exists_lists_of_ok hread
  rw [hfound] at hfound'
  cases hfound'
  obtain ⟨list, hl, hc⟩ := List.mem_flatten.1 hc
  obtain ⟨name, hname, eventType, hr, hlist⟩ := forall₂_mem_right hlists hl
  obtain ⟨offset, hstored, hoffset⟩ := hlist.stored cursor hc
  have hlevel := ((hlist.complete cursor.partition).1 (List.mem_map_of_mem hc)).1
  exact ⟨name, eventType, offset, hname, hr, hlist.named cursor hc, hoffset, hlevel, hstored,
    found, name, eventType, hfound, hname, hr, rfl⟩

theorem found_of_ok
    (hread : ((c.cursors subscription).runIn (.undisturbed d token) w).value = .ok cursors) :
    Name.checkIdentifier subscription = .ok () ∧
      (∃ found, d.subscription subscription = .ok found) ∧
        (cursors ≠ [] → w.store.available = true) := by
  obtain ⟨bare, hbare, rfl⟩ := handsOut_cursors.exists_of_ok hread
  obtain ⟨_, hs, h⟩ := except_bind_eq_ok_iff.1 hbare
  obtain ⟨found, hfound, h⟩ := except_bind_eq_ok_iff.1 h
  obtain ⟨lists, hlists, h⟩ := except_bind_eq_ok_iff.1 h
  cases h
  refine ⟨except_mapError_eq_ok_iff.1 hs, ⟨found, except_mapError_eq_ok_iff.1 hfound⟩, ?_⟩
  intro hne
  by_contra ha
  -- out of reach nothing is listed, so the subscription has no event types
  have hnames : found.eventTypes.names = [] := by
    by_contra hn
    obtain ⟨name, hname⟩ := List.exists_mem_of_ne_nil _ hn
    obtain ⟨list, -, hof⟩ := forall₂_mem_left (mapM_eq_ok_iff.1 hlists) hname
    obtain ⟨eventType, -, hof⟩ := except_bind_eq_ok_iff.1 hof
    obtain ⟨offsets, ho, -⟩ := except_bind_eq_ok_iff.1 hof
    obtain ⟨entries, he, -⟩ := except_bind_eq_ok_iff.1 ho
    rw [Store.lookAll_eq, if_neg ha] at he
    cases he
  rw [hnames] at hlists
  cases hlists
  exact hne rfl

/-- **Each offset of the subscription is read.** -/
theorem exists_cursor_of_hasOffset
    (hread : ((c.cursors subscription).runIn (.undisturbed d token) w).value = .ok cursors)
    {tp : TopicPartition} {offset : String} (h : c.HasOffset d subscription w.store tp offset) :
    ∃ cursor ∈ cursors, cursor.partition = tp.partition ∧
      cursor.offset = padOffset c.offsetWidth offset ∧
        ∃ found name eventType, d.subscription subscription = .ok found ∧
          name ∈ found.eventTypes.names ∧ d.resolve name = .ok eventType ∧
            eventType.topic = tp.topic ∧ cursor.eventType = eventType.name := by
  obtain ⟨topic, partition⟩ := tp
  obtain ⟨hlevel, hstored, found, name, eventType, hfound, hname, hr, rfl⟩ := h
  obtain ⟨⟨found', lists, hfound', rfl, hlists⟩, -⟩ := exists_lists_of_ok hread
  rw [hfound] at hfound'
  cases hfound'
  obtain ⟨list, hl, eventType', hr', hlist⟩ := forall₂_mem_left hlists hname
  rw [hr] at hr'
  cases hr'
  obtain ⟨cursor, hc, hpartition, hoffset⟩ := hlist.exists_of_stored hlevel hstored
  exact ⟨cursor, List.mem_flatten.2 ⟨list, hl, hc⟩, hpartition, hoffset, found, name,
    eventType, hfound, hname, hr, rfl, hlist.named cursor hc⟩

namespace Returnable

variable (h : c.Returnable d stream subscription w.store)
  (hread : ((c.cursors subscription).runIn (.undisturbed d token) w).value = .ok cursors)
include h hread

theorem exists_place {found : Subscription} (hfound : d.subscription subscription = .ok found)
    {cursor : Cursor} (hc : cursor ∈ cursors) :
    ∃ p tp offset, d.place found cursor = .ok p ∧ d.partition? cursor = some tp ∧
      cursor.offset = padOffset c.offsetWidth offset ∧
        c.HasOffset d subscription w.store tp offset := by
  obtain ⟨name, eventType, offset, hname, hr, he, hoffset, hhas⟩ :=
    exists_hasOffset_of_ok hread hfound hc
  obtain ⟨hincluded, again, hagain, htopic⟩ := h.names found hfound name hname eventType hr
  rw [← he] at hincluded hagain
  have hne : cursor.offset ≠ "" := by
    rw [hoffset]
    exact padOffset_ne_empty (Comparator.ne_empty_of_validate (h.byNumbers _ _ hhas)
      (h.accepted _ _ hhas)) _
  have hplace := Directory.place_eq_ok_iff.2 ⟨hincluded, again, hagain, rfl,
    h.partition _ _ hhas, hne⟩
  refine ⟨_, ⟨eventType.topic, cursor.partition⟩, offset, hplace, ?_, hoffset, hhas⟩
  rw [Directory.partition?, (Directory.resolve_eq_ok_iff.1 hagain).1, ← htopic]

/-- **What is read was reached**: each partition's offset is at least each that
    the cursors report there. -/
theorem hasReached (hpad : c.AllPaddable d subscription w.store) {tp : TopicPartition}
    (htp : tp ∈ d.partitions cursors) :
    (∃ offset, c.HasOffset d subscription w.store tp offset) ∧
      c.HasReached subscription d cursors w.store tp := by
  obtain ⟨-, ⟨found, hfound⟩, -⟩ := found_of_ok hread
  obtain ⟨cursor, hc, hin⟩ := Directory.mem_partitions_iff.1 htp
  have hat : ∀ cursor ∈ cursors, d.isIn tp cursor = true → ∃ offset,
      cursor.offset = padOffset c.offsetWidth offset ∧
        c.HasOffset d subscription w.store tp offset := by
    intro cursor hc hin
    obtain ⟨p, tp', offset, -, htp', hoffset, hhas⟩ := h.exists_place hread hfound hc
    rw [of_decide_eq_true hin] at htp'
    cases htp'
    exact ⟨offset, hoffset, hhas⟩
  obtain ⟨offset, -, hhas⟩ := hat cursor hc hin
  refine ⟨⟨offset, hhas⟩, offset, hhas.stored, fun cursor hc hin => ?_⟩
  obtain ⟨offset', hoffset, hhas'⟩ := hat cursor hc hin
  have hsame : offset' = offset :=
    Option.some.inj (hhas'.stored.symm.trans hhas.stored)
  have hspec := padOffset_spec (h.byNumbers tp offset hhas) (h.accepted tp offset hhas)
    c.offsetWidth
  rw [if_pos (hpad tp offset hhas)] at hspec
  rw [hoffset, hsame]
  exact Comparator.reaches_of_not_gt hspec (by decide)

/-- **What is read is accepted** when it is committed back. -/
theorem accepts (hpad : c.AllPaddable d subscription w.store) (hne : cursors ≠ []) :
    c.Accepts stream subscription d cursors w.store := by
  obtain ⟨hs, ⟨found, hfound⟩, ha⟩ := found_of_ok hread
  refine ⟨Requested.checkCommit_eq_ok_iff.2 ⟨hs, h.named⟩, ⟨found, hfound, fun cursor hc => ?_⟩,
    ha hne, h.session, fun tp htp => ?_, fun tp htp => ?_⟩
  · obtain ⟨p, _, _, hp, -⟩ := h.exists_place hread hfound hc
    exact ⟨p, hp⟩
  · obtain ⟨⟨offset, hhas⟩, -⟩ := h.hasReached hread hpad htp
    exact h.assigned tp offset hhas
  · obtain ⟨⟨offset, hhas⟩, text, htext, hall⟩ := h.hasReached hread hpad htp
    obtain rfl : offset = text := Option.some.inj (hhas.stored.symm.trans htext)
    refine ⟨offset, _, htext, Comparator.validate_eq_ok_iff.1 (h.accepted tp offset hhas),
      Fold.ofOffsets_of_reaches fun x hx => ?_⟩
    obtain ⟨cursor, hc, rfl⟩ := List.mem_map.1 hx
    obtain ⟨hc, hin⟩ := List.mem_filter.1 hc
    exact hall cursor hc hin

theorem filter_advanced (hpad : c.AllPaddable d subscription w.store)
    {positions : List Position} {plans : List Plan}
    (hp : c.Prepared stream subscription d cursors w.store positions plans) :
    plans.filter (·.fold.advanced) = [] := by
  refine List.filter_eq_nil_iff.2 fun p hmem => ?_
  have hreached := (h.hasReached hread hpad (hp.tp_mem_partitions hmem)).2
  rw [hp.fold_of_hasReached hmem hreached, Fold.advanced_replicate]
  exact Bool.false_ne_true

end Returnable

theorem eq_map_outdated {rs : List CommitResult} (h : ∀ r ∈ rs, r.outcome = .outdated) :
    rs = (rs.map CommitResult.cursor).map (CommitResult.mk · .outdated) := by
  have hsame : rs.map ((CommitResult.mk · .outdated) ∘ CommitResult.cursor) = rs.map id :=
    List.map_congr_left fun r hr => by rw [Function.comp_apply, ← h r hr, id]
  rw [List.map_map, hsame, List.map_id]

/-- The commit of the cursors that a read answered, right after the read. -/
def commitBack (c : Coordinator) (d : Directory) (token : Nat → String)
    (stream subscription : String) (cursors : List Cursor) (w : World Unit) :
    Run Unit (Except Error (List CommitResult)) :=
  (c.commit stream subscription cursors).runIn (.undisturbed d token)
    ((c.cursors subscription).runIn (.undisturbed d token) w).world

/-- **What is read can be committed back**, if all of it can be padded: every
    cursor is outdated, and the store stays as it was. -/
theorem Returnable.committed_back (h : c.Returnable d stream subscription w.store)
    (hpad : c.AllPaddable d subscription w.store)
    (hread : ((c.cursors subscription).runIn (.undisturbed d token) w).value = .ok cursors) :
    (c.commitBack d token stream subscription cursors w).value =
        .ok (cursors.map (CommitResult.mk · .outdated)) ∧
      (c.commitBack d token stream subscription cursors w).world.store = w.store := by
  obtain ⟨hs, ⟨found, hfound⟩, -⟩ := found_of_ok hread
  have hstore : ((c.cursors subscription).runIn (.undisturbed d token) w).world.store = w.store :=
    handsOut_cursors.store token w
  by_cases hne : cursors = []
  · subst hne
    rw [commitBack, (runIn_commit_nil d token).1, (runIn_commit_nil d token).2, emptyIn,
      Requested.checkCommit_eq_ok_iff.2 ⟨hs, h.named⟩, hfound]
    exact ⟨rfl, hstore⟩
  · obtain ⟨positions, plans, hprepared⟩ := (h.accepts hread hpad hne).exists_prepared
    have hidle := h.filter_advanced hread hpad hprepared
    rw [← hstore] at hprepared
    obtain ⟨rs, hrs, hdone⟩ := completed_of_prepared d token hne hprepared (Or.inr hidle)
    have houtdated : ∀ r ∈ rs, r.outcome = .outdated := by
      intro r hr
      have hc : r.cursor ∈ cursors := hdone.ordered ▸ List.mem_map_of_mem hr
      obtain ⟨tp, htp, hin⟩ := Directory.exists_isIn_of_locates hprepared.located hc
      have hreached := (h.hasReached hread hpad htp).2
      rw [← hstore] at hreached
      exact (hdone.outdated_of_hasReached htp hreached).1 r hr hin
    refine ⟨?_, ?_⟩
    · rw [commitBack, hrs, eq_map_outdated houtdated, hdone.ordered]
    · show (commitBack c d token stream subscription cursors w).world.store = _
      rw [commitBack, hdone.store, entriesOf, hidle, ← hstore]
      rfl

/-- **Only what can be padded is committed back**: zeros before a sign leave an
    offset that the comparator refuses. -/
theorem Returnable.allPaddable (h : c.Returnable d stream subscription w.store)
    (hread : ((c.cursors subscription).runIn (.undisturbed d token) w).value = .ok cursors)
    {rs : List CommitResult}
    (hback : (c.commitBack d token stream subscription cursors w).value = .ok rs) :
    c.AllPaddable d subscription w.store := by
  intro tp offset hhas
  by_contra hp
  have hspec := padOffset_spec (h.byNumbers tp offset hhas) (h.accepted tp offset hhas)
    c.offsetWidth
  rw [if_neg hp] at hspec
  obtain ⟨cursor, hc, hpartition, hoffset, found, name, eventType, hfound, hname, hr, htopic, he⟩ :=
    exists_cursor_of_hasOffset hread hhas
  obtain ⟨-, again, hagain, hsame⟩ := h.names found hfound name hname eventType hr
  have hin : d.partition? cursor = some tp := by
    rw [Directory.partition?, he, (Directory.resolve_eq_ok_iff.1 hagain).1, hpartition]
    simp only [hsame, htopic]
  -- the fold of the commit compared the padded offset
  have heffect := effect_of_ok hback
  have hmem : tp ∈ d.partitions cursors :=
    Directory.mem_partitions_iff.2 ⟨cursor, hc, decide_eq_true hin⟩
  obtain ⟨stored, hstored, -⟩ := heffect.stored tp hmem
  obtain ⟨fold, hfold, -, -⟩ := heffect.folded tp (heffect.checked tp hmem) stored hstored
  have hx : cursor.offset ∈ d.offsetsIn tp cursors :=
    List.mem_map_of_mem (List.mem_filter.2 ⟨hc, decide_eq_true hin⟩)
  obtain ⟨o, ho, -⟩ := Comparator.reaches_iff.1 (Fold.highWater_reaches hfold hx)
  rw [hoffset] at ho
  exact hspec (Comparator.validate_eq_ok_iff.2
    (Comparator.reaches_self (Comparator.compare_swap ho)))

section
variable (d : Directory) (token : Nat → String) (w : World Unit) (c : Coordinator)
  (stream subscription : String)

/-- **Padding keeps the position of an offset** iff it puts no zeros before a
    sign, for every comparator that compares numbers.  Hence what is read can be
    committed back by the stream that owns it, with every cursor outdated and
    the store as it was, iff this holds for all offsets of the subscription. -/
theorem padding_keeps_positions :
    (∀ cmp : Comparator, cmp.ByNumbers → ∀ width offset, cmp.validate offset = .ok () →
      (cmp.validate (padOffset width offset) = .ok () ∧
        cmp.compare (padOffset width offset) offset = .ok .eq ↔ IsPaddable width offset)) ∧
    (c.Returnable d stream subscription w.store → ∀ cursors,
      ((c.cursors subscription).runIn (.undisturbed d token) w).value = .ok cursors →
        ((c.commitBack d token stream subscription cursors w).value =
            .ok (cursors.map (CommitResult.mk · .outdated)) ∧
          (c.commitBack d token stream subscription cursors w).world.store = w.store ↔
            c.AllPaddable d subscription w.store)) := by
  refine ⟨fun cmp hcmp width offset ho => ?_, fun h cursors hread =>
    ⟨fun hback => h.allPaddable hread hback.1, fun hpad => h.committed_back hpad hread⟩⟩
  have hspec := padOffset_spec hcmp ho width
  constructor
  · rintro ⟨hvalid, -⟩
    by_contra hp
    rw [if_neg hp] at hspec
    exact hspec hvalid
  · intro hp
    rw [if_pos hp] at hspec
    exact ⟨Comparator.validate_eq_ok_iff.2 (Comparator.reaches_self hspec), hspec⟩

theorem Sample.hasOffset_cases {tp : TopicPartition} {offset : String}
    (h : Sample.coordinator.HasOffset Sample.directory "s" Sample.store tp offset) :
    (tp = ⟨"t", "0"⟩ ∨ tp = ⟨"t", "1"⟩) ∧ offset = "5" := by
  obtain ⟨topic, partition⟩ := tp
  obtain ⟨hlevel, hstored, found, name, eventType, hfound, hname, hr, htopic⟩ := h
  cases hfound
  obtain rfl : name = "orders" := List.mem_singleton.1 (NameSet.mem_ofList.1 hname)
  cases hr
  obtain rfl : "t" = topic := htopic
  have hlisted : Sample.coordinator.Listed "s" "t" Sample.store [("0", "5"), ("1", "5")] :=
    listed_of_offsetsIn (by decide +kernel)
  obtain ⟨record, hrecord, -⟩ := Store.textAt?_eq_some_iff.1 hstored
  have hp : partition = "0" ∨ partition = "1" := by
    simpa using (hlisted.complete partition).2 ⟨hlevel, by rw [hrecord]; rfl⟩
  have hfive : Sample.store.textAt? (Sample.coordinator.offsetKey "s" ⟨"t", partition⟩) =
      some "5" := by
    rcases hp with rfl | rfl
    · exact hlisted.stored ("0", "5") (by simp)
    · exact hlisted.stored ("1", "5") (by simp)
  refine ⟨?_, Option.some.inj (hstored.symm.trans hfive)⟩
  rcases hp with rfl | rfl
  · exact Or.inl rfl
  · exact Or.inr rfl

/-- What is read of the sample can be committed back. -/
theorem sample_committed_back :
    let read := (Sample.coordinator.cursors "s").runIn (.undisturbed Sample.directory toString)
      ⟨Sample.store, 0, ()⟩
    (Comparator.numeric.validate (padOffset 18 "5") = .ok () ∧
      Comparator.numeric.compare (padOffset 18 "5") "5" = .ok .eq) ∧
    Sample.coordinator.Returnable Sample.directory "n" "s" Sample.store ∧
      ∃ cursors, read.value = .ok cursors ∧ cursors.length = 2 ∧
        (Sample.coordinator.commitBack Sample.directory toString "n" "s" cursors
            ⟨Sample.store, 0, ()⟩).value = .ok (cursors.map (CommitResult.mk · .outdated)) ∧
          (Sample.coordinator.commitBack Sample.directory toString "n" "s" cursors
            ⟨Sample.store, 0, ()⟩).world.store = Sample.store := by
  intro read
  have hassigned : ∀ tp ∈ [TopicPartition.mk "t" "0", ⟨"t", "1"⟩], (Sighting.ofRecord?
      (Sample.store.record? (Sample.coordinator.assignmentKey "s" tp))).isOwnedBy "n" = true := by
    decide +kernel
  have hreturn : Sample.coordinator.Returnable Sample.directory "n" "s" Sample.store := by
    refine ⟨by decide +kernel, by decide +kernel, ?_, fun tp offset h => ?_, fun tp offset h => ?_,
      fun tp offset h => ?_, fun tp offset h => ?_⟩
    · intro found hfound name hname eventType hr
      cases hfound
      obtain rfl : name = "orders" := List.mem_singleton.1 (NameSet.mem_ofList.1 hname)
      cases hr
      exact ⟨by decide +kernel, ⟨"orders", "t"⟩, rfl, rfl⟩
    · have hp := (Sample.hasOffset_cases h).1
      exact Sighting.isOwnedBy_ofRecord?_iff.1 (hassigned tp (by simpa using hp))
    · obtain ⟨rfl | rfl, -⟩ := Sample.hasOffset_cases h <;> decide +kernel
    · obtain ⟨rfl | rfl, -⟩ := Sample.hasOffset_cases h <;> trivial
    · obtain ⟨rfl | rfl, rfl⟩ := Sample.hasOffset_cases h <;> decide +kernel
  have hpad : Sample.coordinator.AllPaddable Sample.directory "s" Sample.store := by
    intro tp offset h
    obtain ⟨-, rfl⟩ := Sample.hasOffset_cases h
    decide +kernel
  obtain ⟨hpadding, hback⟩ := padding_keeps_positions Sample.directory toString
    ⟨Sample.store, 0, ()⟩ Sample.coordinator "n" "s"
  have hlength : read.value.toOption.map List.length = some 2 := by decide +kernel
  refine ⟨(hpadding .numeric trivial 18 "5" (by decide +kernel)).2 (by decide), hreturn, ?_⟩
  cases hread : read.value with
  | error e => rw [hread] at hlength; cases hlength
  | ok cursors =>
    rw [hread] at hlength
    exact ⟨cursors, rfl, Option.some.inj hlength, (hback hreturn cursors hread).2 hpad⟩

/-- An offset with a sign is accepted, and may be stored; but it is handed out
    with zeros before the sign, which the same comparator refuses, and so does
    a commit of the cursor that was read. -/
theorem padded_sign_refused :
    let s := Sample.store.afterAll [.put (Sample.offsetAt "0") (Utf8.encode "+5")]
    let read := (Sample.coordinator.cursors "s").runIn (.undisturbed Sample.directory toString)
      ⟨s, 0, ()⟩
    (Comparator.numeric.validate "+5" = .ok () ∧
      Comparator.numeric.validate (padOffset 3 "+5") = .error (.notUnsigned "0+5")) ∧
    ((Comparator.segmented '-').validate "+5-3" = .ok () ∧
      (Comparator.segmented '-').validate (padOffset 5 "+5-3") = .error (.notUnsigned "0+5")) ∧
    ∃ cursors, read.value = .ok cursors ∧
      (Sample.coordinator.commitBack Sample.directory toString "n" "s" cursors
        ⟨s, 0, ()⟩).value =
          .error (.invalidCursor (.offset (.notUnsigned "0000000000000000+5"))) := by
  intro s read
  have hback : (read.value.toOption.map fun cursors =>
      (Sample.coordinator.commitBack Sample.directory toString "n" "s" cursors
        ⟨s, 0, ()⟩).value) =
          some (.error (.invalidCursor (.offset (.notUnsigned "0000000000000000+5")))) := by
    decide +kernel
  refine ⟨by decide +kernel, by decide +kernel, ?_⟩
  cases hread : read.value with
  | error e => rw [hread] at hback; cases hback
  | ok cursors =>
    rw [hread] at hback
    exact ⟨cursors, rfl, Option.some.inj hback⟩

end

end CursorCommit.Coordinator

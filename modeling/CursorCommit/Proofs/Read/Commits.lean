/-
  A read right after a commit, while nobody else acts.

  A commit writes an offset at the key of its partition, and a read finds it by
  the keys below the topic.  `cursors_reflect_commit`: the read answers each
  partition of the batch once, with the last offset that the commit reported as
  committed there, through whichever event type, or with the offset that was
  stored before.
-/
import CursorCommit.Proofs.Commit.Effect
import CursorCommit.Proofs.Offset.Maximum
import CursorCommit.Proofs.Read.Exactness

namespace CursorCommit

/-! ## What the directory tells -/

namespace Directory

/-- The directory answers with the name that it was asked for. -/
def AnswersByName (d : Directory) : Prop :=
  ∀ name found, d.eventType name = .ok found → found.name = name

/-- The last offset that was committed in the partition, going by the
    results. -/
def lastCommitted (d : Directory) (tp : TopicPartition) (rs : List CommitResult) : Option String :=
  ((rs.filter fun r => r.isCommitted && d.isIn tp r.cursor).map fun r => r.cursor.offset).getLast?

theorem lastCommitted_eq (d : Directory) (tp : TopicPartition) (rs : List CommitResult) :
    d.lastCommitted tp rs =
      Fold.lastCommitted (d.offsetsIn tp (rs.map CommitResult.cursor)) (d.outcomesIn tp rs) := by
  have hoffsets : d.offsetsIn tp (rs.map CommitResult.cursor) =
      (rs.filter fun r => d.isIn tp r.cursor).map fun r => r.cursor.offset := by
    rw [offsetsIn, List.filter_map, List.map_map]
    rfl
  rw [Fold.lastCommitted, hoffsets, outcomesIn, List.zip_map', List.filter_map, List.map_map,
    List.filter_filter, lastCommitted]
  rfl

end Directory

/-! ## Cursors of one partition -/

namespace Coordinator

variable {c : Coordinator} {stream subscription : String} {d : Directory} {s : Store}

theorem lists_filter_eventType (hd : d.AnswersByName) {names : List String}
    {lists : List (List Cursor)}
    (h : List.Forall₂ (fun name list => ∃ eventType, d.resolve name = .ok eventType ∧
      c.Lists subscription eventType s list) names lists) (hnd : names.Nodup) {name : String}
    (hname : name ∈ names) : ∃ eventType, d.resolve name = .ok eventType ∧
      c.Lists subscription eventType s (lists.flatten.filter (·.eventType = name)) := by
  have hnamed : List.Forall₂ (fun name list => ∀ cursor ∈ list, cursor.eventType = name)
      names lists := by
    refine h.imp fun name list ⟨eventType, hr, hlist⟩ cursor hc => ?_
    rw [hlist.named cursor hc]
    exact hd name eventType (Directory.resolve_eq_ok_iff.1 hr).1
  have hfilter := filter_flatten_eq hnamed hnd
  obtain ⟨list, hmem, hlist⟩ : ∃ list, (name, list) ∈ names.zip lists ∧
      ∃ eventType, d.resolve name = .ok eventType ∧ c.Lists subscription eventType s list := by
    rw [← List.map_fst_zip h.length_eq.le] at hname
    obtain ⟨⟨_, list⟩, hmem, rfl⟩ := List.mem_map.1 hname
    exact ⟨list, hmem, (List.forall₂_iff_zip.1 h).2 hmem⟩
  rwa [(List.forall₂_iff_zip.1 hfilter).2 hmem]

theorem Lists.filter_partition {eventType : EventType} {cursors : List Cursor}
    (h : c.Lists subscription eventType s cursors) {partition offset : String}
    (hp : Key.IsLevel partition)
    (ho : s.textAt? (c.offsetKey subscription ⟨eventType.topic, partition⟩) = some offset) :
    ∃ cursor, cursors.filter (·.partition = partition) = [cursor] ∧
      cursor.offset = padOffset c.offsetWidth offset := by
  obtain ⟨cursor, hc, rfl, hoffset⟩ := h.exists_of_stored hp ho
  exact ⟨cursor, filter_eq_singleton h.once hc, hoffset⟩

theorem Prepared.exists_eventType {cursors : List Cursor} {positions : List Position}
    {plans : List Plan}
    (h : c.Prepared stream subscription d cursors s positions plans) {found : Subscription}
    (hfound : d.subscription subscription = .ok found) {cursor : Cursor} (hc : cursor ∈ cursors) :
    cursor.eventType ∈ found.eventTypes.names ∧ ∃ eventType,
      d.resolve cursor.eventType = .ok eventType ∧
        d.partition? cursor = some ⟨eventType.topic, cursor.partition⟩ ∧
          Name.checkSegment cursor.partition = .ok () := by
  obtain ⟨found', hfound', hplaced⟩ := h.placed
  rw [hfound] at hfound'
  cases hfound'
  obtain ⟨p, -, hp⟩ := forall₂_mem_left (mapM_eq_ok_iff.1 hplaced) hc
  obtain ⟨hincluded, eventType, hr, rfl, hpartition, -⟩ := Directory.place_eq_ok_iff.1 hp
  refine ⟨List.contains_iff_mem.1 hincluded, eventType, hr, ?_, hpartition⟩
  rw [Directory.partition?, (Directory.resolve_eq_ok_iff.1 hr).1]

section
variable (d : Directory) (token : Nat → String) (w : World Unit) (c : Coordinator)
  (stream subscription : String) (cursors : List Cursor)

/-- **A read reflects the commit before it**, if the directory answers each
    look-up with the name asked for: for each cursor that was reported, the read
    has exactly one with its event type and partition, and the offset of this
    one is the last that was committed in the partition, or the one stored
    before if none was. -/
theorem cursors_reflect_commit (hd : d.AnswersByName) :
    let commit := (c.commit stream subscription cursors).runIn (.undisturbed d token) w
    let read := (c.cursors subscription).runIn (.undisturbed d token) commit.world
    ∀ rs, commit.value = .ok rs → ∀ all, read.value = .ok all → ∀ cursor ∈ cursors,
      ∃ tp stored answer, d.partition? cursor = some tp ∧
        w.store.textAt? (c.offsetKey subscription tp) = some stored ∧
        (all.filter fun x => x.eventType = cursor.eventType ∧ x.partition = cursor.partition) =
          [answer] ∧
        answer.offset = padOffset c.offsetWidth ((d.lastCommitted tp rs).getD stored) := by
  intro commit read rs hrs all hall cursor hc
  obtain ⟨⟨found, lists, hfound, rfl, hlists⟩, -⟩ := exists_lists_of_ok hall
  have heffect : c.Effect subscription d cursors w.store commit.world.store rs := effect_of_ok hrs
  rcases completed_of_ok hrs with ⟨rfl, -⟩ | ⟨-, positions, plans, hdone⟩
  · cases hc
  obtain ⟨hname, eventType, hr, htp, hpartition⟩ := hdone.prepared.exists_eventType hfound hc
  -- what the commit leaves in the partition
  have hmem : ⟨eventType.topic, cursor.partition⟩ ∈ d.partitions cursors :=
    Directory.mem_partitions_iff.2 ⟨cursor, hc, decide_eq_true htp⟩
  obtain ⟨stored, hstored, -⟩ := heffect.stored _ hmem
  obtain ⟨fold, hfold, houtcomes, hend⟩ :=
    heffect.folded _ (Directory.resolve_eq_ok_iff.1 hr).2 stored hstored
  rw [Fold.highWater_eq_lastCommitted hfold, ← houtcomes, ← heffect.ordered,
    ← Directory.lastCommitted_eq] at hend
  -- what the read finds there
  obtain ⟨eventType', hr', hlist⟩ :=
    lists_filter_eventType hd hlists found.eventTypes.ascending.nodup hname
  rw [hr] at hr'
  cases hr'
  obtain ⟨answer, hanswer, hoffset⟩ :=
    hlist.filter_partition (Key.isLevel_of_checkSegment hpartition) hend
  refine ⟨_, stored, answer, htp, hstored, ?_, hoffset⟩
  rw [← hanswer, List.filter_filter]
  simp only [Bool.decide_and, Bool.and_comm]

/-- A directory with two event types that share a topic. -/
def Sample.sharedTopic : Directory where
  eventType name :=
    if name = "orders" ∨ name = "returns" then .ok ⟨name, "t"⟩
    else .error (.eventTypeNotFound name)
  subscription id := .ok ⟨id, .ofList ["orders", "returns"]⟩

/-- What is committed through one event type is read through both. -/
theorem shared_topic_reflected :
    let cursors := [Sample.cursor "0" "7", { Sample.cursor "0" "9" with eventType := "returns" }]
    let commit := (Sample.coordinator.commit "n" "s" cursors).runIn
      (.undisturbed Sample.sharedTopic toString) ⟨Sample.store, 0, ()⟩
    let read := (Sample.coordinator.cursors "s").runIn
      (.undisturbed Sample.sharedTopic toString) commit.world
    Sample.sharedTopic.AnswersByName ∧ ∃ rs all, commit.value = .ok rs ∧ read.value = .ok all ∧
      all.map Cursor.report = [("orders", "0", "000000000000000009"),
        ("orders", "1", "000000000000000005"), ("returns", "0", "000000000000000009"),
        ("returns", "1", "000000000000000005")] ∧
      ∀ cursor ∈ cursors, ∃ tp stored answer, Sample.sharedTopic.partition? cursor = some tp ∧
        Sample.store.textAt? (Sample.coordinator.offsetKey "s" tp) = some stored ∧
        (all.filter fun x => x.eventType = cursor.eventType ∧ x.partition = cursor.partition) =
          [answer] ∧
        answer.offset = padOffset Sample.coordinator.offsetWidth
          ((Sample.sharedTopic.lastCommitted tp rs).getD stored) := by
  intro cursors commit read
  have hd : Sample.sharedTopic.AnswersByName := by
    intro name found h
    simp only [Sample.sharedTopic] at h
    split at h <;> cases h
    rfl
  have hcommit : commit.value.isOk = true := by decide +kernel
  have hread : read.value.toOption.map (List.map Cursor.report) =
      some [("orders", "0", "000000000000000009"), ("orders", "1", "000000000000000005"),
        ("returns", "0", "000000000000000009"), ("returns", "1", "000000000000000005")] := by
    decide +kernel
  obtain ⟨rs, hrs⟩ := except_isOk_iff.1 hcommit
  cases hall : read.value with
  | error e => rw [hall] at hread; cases hread
  | ok all =>
    rw [hall] at hread
    exact ⟨hd, rs, all, hrs, rfl, Option.some.inj hread,
      cursors_reflect_commit _ _ _ _ _ _ _ hd rs hrs all hall⟩

end

end Coordinator

end CursorCommit

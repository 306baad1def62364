/-
  What a read of cursors answers, while nobody else acts.

  `cursors_exact`: a read that succeeds answers, for each event type of the
  subscription, one cursor per offset that is stored for the topic, and no
  other (`Lists`); one that fails has met one of the causes of `ReadFault`, and
  among the records only an offset that is no text.
-/
import CursorCommit.Proofs.Read.AtRest

namespace CursorCommit

namespace Coordinator

/-- The cursors of an event type that a read answers: for each partition of one
    level whose offset is in the store one cursor with this offset, padded, and
    none for what any other key stands for. -/
structure Lists (c : Coordinator) (subscription : String) (eventType : EventType) (s : Store)
    (cursors : List Cursor) : Prop where
  named : ∀ cursor ∈ cursors, cursor.eventType = eventType.name
  once : (cursors.map Cursor.partition).Nodup
  complete : ∀ partition, partition ∈ cursors.map Cursor.partition ↔ Key.IsLevel partition ∧
    (s.record? (c.offsetKey subscription ⟨eventType.topic, partition⟩)).isSome = true
  stored : ∀ cursor ∈ cursors, ∃ offset,
    s.textAt? (c.offsetKey subscription ⟨eventType.topic, cursor.partition⟩) = some offset ∧
      cursor.offset = padOffset c.offsetWidth offset
  own : ∀ cursor ∈ cursors, ∀ k : Key, k.Checked →
    k.resolve c.root = c.offsetKey subscription ⟨eventType.topic, cursor.partition⟩ →
      k = .offset subscription eventType.topic cursor.partition

/-- Why a read of the subscription's cursors fails in a store at rest. -/
inductive ReadFault (c : Coordinator) (d : Directory) (subscription : String) (s : Store) :
    Error → Prop where
  | request {fault : NameFault} (h : Name.checkIdentifier subscription = .error fault) :
      ReadFault c d subscription s (.invalidRequest (.subscription fault))
  | subscription {cause : ResolutionError} (h : d.subscription subscription = .error cause) :
      ReadFault c d subscription s (.resolution cause)
  | eventType {found : Subscription} {name : String} {cause : ResolutionError}
      (hfound : d.subscription subscription = .ok found) (hname : name ∈ found.eventTypes.names)
      (h : d.eventType name = .error cause) : ReadFault c d subscription s (.resolution cause)
  | topic {found : Subscription} {name : String} {eventType : EventType} {fault : NameFault}
      (hfound : d.subscription subscription = .ok found) (hname : name ∈ found.eventTypes.names)
      (he : d.eventType name = .ok eventType)
      (h : Name.checkSegment eventType.topic = .error fault) :
      ReadFault c d subscription s (.invalidState (.badTopic name fault))
  | unavailable (h : s.available = false) :
      ReadFault c d subscription s (.storeUnavailable .outOfReach [])
  | notUtf8 {found : Subscription} {name partition : String} {eventType : EventType}
      {record : Record} {fault : Utf8Fault}
      (hfound : d.subscription subscription = .ok found) (hname : name ∈ found.eventTypes.names)
      (he : d.resolve name = .ok eventType) (hp : Key.IsLevel partition)
      (hr : s.record? (c.offsetKey subscription ⟨eventType.topic, partition⟩) = some record)
      (h : Utf8.decode record.bytes = .error fault) :
      ReadFault c d subscription s (.invalidState (.stored (.notUtf8 fault)))

variable {c : Coordinator} {d : Directory} {subscription : String} {s : Store}

/-! ## One event type -/

theorem Lists.of_listed {eventType : EventType} {offsets : List (String × String)}
    (hs : Name.checkIdentifier subscription = .ok ())
    (ht : Name.checkSegment eventType.topic = .ok ())
    (h : c.Listed subscription eventType.topic s offsets) :
    c.Lists subscription eventType s (offsets.map (c.bare eventType)) := by
  have hpartitions : (offsets.map (c.bare eventType)).map Cursor.partition =
      offsets.map Prod.fst := by
    rw [List.map_map]; rfl
  refine ⟨fun cursor hc => ?_, ?_, fun partition => ?_, fun cursor hc => ?_,
    fun cursor hc k hk he => ?_⟩
  · obtain ⟨o, -, rfl⟩ := List.mem_map.1 hc
    rfl
  · rw [hpartitions]
    exact h.nodup
  · rw [hpartitions]
    exact h.complete partition
  · obtain ⟨o, ho, rfl⟩ := List.mem_map.1 hc
    exact ⟨o.2, h.stored o ho, rfl⟩
  · obtain ⟨o, ho, rfl⟩ := List.mem_map.1 hc
    have hlevel := ((h.complete o.1).1 (List.mem_map_of_mem ho)).1
    exact Key.eq_offset_of_resolve_eq hs ht hlevel hk he

theorem Lists.exists_of_stored {eventType : EventType} {cursors : List Cursor}
    (h : c.Lists subscription eventType s cursors) {partition offset : String}
    (hp : Key.IsLevel partition)
    (ho : s.textAt? (c.offsetKey subscription ⟨eventType.topic, partition⟩) = some offset) :
    ∃ cursor ∈ cursors, cursor.partition = partition ∧
      cursor.offset = padOffset c.offsetWidth offset := by
  obtain ⟨record, hrecord, -⟩ := Store.textAt?_eq_some_iff.1 ho
  have hmem : partition ∈ cursors.map Cursor.partition :=
    (h.complete partition).2 ⟨hp, by rw [hrecord]; rfl⟩
  obtain ⟨cursor, hc, rfl⟩ := List.mem_map.1 hmem
  obtain ⟨offset', ho', he⟩ := h.stored cursor hc
  rw [ho] at ho'
  cases ho'
  exact ⟨cursor, hc, rfl, he⟩

theorem Lists.stamp {eventType : EventType} {cursors : List Cursor}
    (h : c.Lists subscription eventType s cursors) (token : Nat → String) (n : Nat) :
    c.Lists subscription eventType s (Cursor.stamp token n cursors) := by
  have hbare : ∀ cursor ∈ Cursor.stamp token n cursors, ∃ bare ∈ cursors,
      bare.partition = cursor.partition ∧ bare.offset = cursor.offset ∧
        bare.eventType = cursor.eventType := by
    intro cursor hc
    have hreport : cursor.report ∈ (Cursor.stamp token n cursors).map Cursor.report :=
      List.mem_map_of_mem hc
    rw [Cursor.map_stamp fun _ _ => rfl] at hreport
    obtain ⟨bare, hb, he⟩ := List.mem_map.1 hreport
    simp only [Cursor.report, Prod.mk.injEq] at he
    exact ⟨bare, hb, he.2.1, he.2.2, he.1⟩
  have hpartitions : (Cursor.stamp token n cursors).map Cursor.partition =
      cursors.map Cursor.partition := Cursor.map_stamp fun _ _ => rfl
  refine ⟨fun cursor hc => ?_, by rw [hpartitions]; exact h.once,
    by rw [hpartitions]; exact h.complete, fun cursor hc => ?_, fun cursor hc => ?_⟩ <;>
    obtain ⟨bare, hb, hp, ho, he⟩ := hbare cursor hc
  · rw [← he]
    exact h.named bare hb
  · rw [← hp, ← ho]
    exact h.stored bare hb
  · rw [← hp]
    exact h.own bare hb

theorem exists_lists_of_cursorsOfIn {name : String} {cursors : List Cursor}
    (hs : Name.checkIdentifier subscription = .ok ())
    (h : c.cursorsOfIn d subscription name s = .ok cursors) :
    ∃ eventType, d.resolve name = .ok eventType ∧ c.Lists subscription eventType s cursors := by
  obtain ⟨eventType, hr, h⟩ := except_bind_eq_ok_iff.1 h
  obtain ⟨offsets, ho, h⟩ := except_bind_eq_ok_iff.1 h
  cases h
  have ht := (Directory.resolve_eq_ok_iff.1 hr).2
  exact ⟨eventType, hr, .of_listed hs ht (listed_of_offsetsIn ho)⟩

theorem readFault_of_cursorsOfIn {found : Subscription} {name : String} {e : Error}
    (hfound : d.subscription subscription = .ok found) (hname : name ∈ found.eventTypes.names)
    (h : c.cursorsOfIn d subscription name s = .error e) : c.ReadFault d subscription s e := by
  rcases except_bind_eq_error_iff.1 h with hr | ⟨eventType, hr, h⟩
  · rcases Directory.cases_of_resolve_error hr with ⟨cause, he, rfl⟩ | ⟨_, fault, he, ht, rfl⟩
    · exact .eventType hfound hname he
    · exact .topic hfound hname he ht
  · rcases except_bind_eq_error_iff.1 h with ho | ⟨offsets, -, h⟩
    · rcases cases_of_offsetsIn_error ho with ⟨ha, rfl⟩ | ⟨_, _, _, hp, hrecord, hfault, rfl⟩
      · exact .unavailable ha
      · exact .notUtf8 hfound hname hr hp hrecord hfault
    · cases h

/-! ## The read -/

theorem exists_lists_of_cursorsIn {cursors : List Cursor}
    (h : c.cursorsIn d subscription s = .ok cursors) :
    ∃ found lists, d.subscription subscription = .ok found ∧ cursors = lists.flatten ∧
      List.Forall₂ (fun name list => ∃ eventType, d.resolve name = .ok eventType ∧
        c.Lists subscription eventType s list) found.eventTypes.names lists := by
  obtain ⟨_, hs, h⟩ := except_bind_eq_ok_iff.1 h
  obtain ⟨found, hfound, h⟩ := except_bind_eq_ok_iff.1 h
  obtain ⟨lists, hlists, h⟩ := except_bind_eq_ok_iff.1 h
  cases h
  refine ⟨found, lists, except_mapError_eq_ok_iff.1 hfound, rfl, ?_⟩
  exact (mapM_eq_ok_iff.1 hlists).imp fun name list h =>
    exists_lists_of_cursorsOfIn (except_mapError_eq_ok_iff.1 hs) h

theorem readFault_of_cursorsIn {e : Error} (h : c.cursorsIn d subscription s = .error e) :
    c.ReadFault d subscription s e := by
  rcases except_bind_eq_error_iff.1 h with hs | ⟨_, -, h⟩
  · obtain ⟨fault, hf, rfl⟩ := except_mapError_eq_error_iff.1 hs
    exact .request hf
  · rcases except_bind_eq_error_iff.1 h with hd | ⟨found, hfound, h⟩
    · obtain ⟨cause, hc, rfl⟩ := except_mapError_eq_error_iff.1 hd
      exact .subscription hc
    · rcases except_bind_eq_error_iff.1 h with hlists | ⟨lists, -, h⟩
      · obtain ⟨name, hname, hof⟩ := exists_of_mapM_eq_error hlists
        exact readFault_of_cursorsOfIn (except_mapError_eq_ok_iff.1 hfound) hname hof
      · cases h

/-- **A read that succeeds** lists the cursors of each event type, with tokens
    one after the other. -/
theorem exists_lists_of_ok {token : Nat → String} {w : World Unit} {cursors : List Cursor}
    (h : ((c.cursors subscription).runIn (.undisturbed d token) w).value = .ok cursors) :
    (∃ found lists, d.subscription subscription = .ok found ∧ cursors = lists.flatten ∧
      List.Forall₂ (fun name list => ∃ eventType, d.resolve name = .ok eventType ∧
        c.Lists subscription eventType w.store list) found.eventTypes.names lists) ∧
      cursors.map Cursor.token = (List.range' w.tokens cursors.length).map token := by
  obtain ⟨bare, hbare, rfl⟩ := handsOut_cursors.exists_of_ok h
  obtain ⟨found, lists, hfound, rfl, hlists⟩ := exists_lists_of_cursorsIn hbare
  obtain ⟨stamped, he, hstamped⟩ := Cursor.exists_stamp_flatten hlists
    (fun _ _ m ⟨eventType, hr, h⟩ => ⟨eventType, hr, h.stamp token m⟩) w.tokens
  refine ⟨⟨found, stamped, hfound, he, hstamped⟩, ?_⟩
  rw [Cursor.map_token_stamp, Cursor.length_stamp]

section
variable (d : Directory) (token : Nat → String) (w : World Unit) (c : Coordinator)
  (subscription : String)

/-- **A read is complete and exact**, whatever the store holds.  If it
    succeeds, then it answers, in the order of the subscription's event types,
    one cursor for each offset of the topic and none for any other record, each
    cursor with a token of its own; if it fails, then among the stored values
    only an offset that is no text can be the cause. -/
theorem cursors_exact :
    let run := (c.cursors subscription).runIn (.undisturbed d token) w
    (∀ cursors, run.value = .ok cursors →
      (∃ found lists, d.subscription subscription = .ok found ∧ cursors = lists.flatten ∧
        List.Forall₂ (fun name list => ∃ eventType, d.resolve name = .ok eventType ∧
          c.Lists subscription eventType w.store list) found.eventTypes.names lists) ∧
      cursors.map Cursor.token = (List.range' w.tokens cursors.length).map token) ∧
    ∀ e, run.value = .error e → c.ReadFault d subscription w.store e := by
  intro run
  exact ⟨fun cursors h => exists_lists_of_ok h,
    fun e h => readFault_of_cursorsIn (handsOut_cursors.of_error h)⟩

/-- A store in which other keys lie between those of the sample: below the
    topic an empty partition, one that is named as the ending is, and a key of
    more levels, and the offset of a topic with a longer name. -/
def Sample.odd : Store :=
  Sample.store.afterAll [.put (Sample.offsetAt "") (Utf8.encode "1"),
    .put (Sample.offsetAt "offset") (Utf8.encode "7"), .put (Sample.offsetAt "0/1") [255],
    .put (Sample.coordinator.offsetKey "s" ⟨"t2", "0"⟩) (Utf8.encode "2")]

/-- Odd keys neither add cursors nor hide any, nor does a value there that is
    no text. -/
theorem odd_keys_read_exactly :
    let run := (Sample.coordinator.cursors "s").runIn (.undisturbed Sample.directory toString)
      ⟨Sample.odd, 0, ()⟩
    ∃ cursors, run.value = .ok cursors ∧
      cursors.map Cursor.report = [("orders", "0", "000000000000000005"),
        ("orders", "1", "000000000000000005"), ("orders", "offset", "000000000000000007")] ∧
      (∃ found lists, Sample.directory.subscription "s" = .ok found ∧ cursors = lists.flatten ∧
        List.Forall₂ (fun name list => ∃ eventType,
          Sample.directory.resolve name = .ok eventType ∧
            Sample.coordinator.Lists "s" eventType Sample.odd list)
          found.eventTypes.names lists) ∧
      cursors.map Cursor.token = (List.range' 0 cursors.length).map toString := by
  intro run
  have hreports : run.value.toOption.map (List.map Cursor.report) =
      some [("orders", "0", "000000000000000005"), ("orders", "1", "000000000000000005"),
        ("orders", "offset", "000000000000000007")] := by decide +kernel
  cases h : run.value with
  | error e => rw [h] at hreports; cases hreports
  | ok cursors =>
    rw [h] at hreports
    refine ⟨cursors, rfl, Option.some.inj hreports, ?_⟩
    exact (cursors_exact Sample.directory toString ⟨Sample.odd, 0, ()⟩ Sample.coordinator "s").1
      cursors h

end

end Coordinator

end CursorCommit

/-
  Who owns a partition, by the bytes of its assignment.

  Any bytes may stand at the key of an assignment: no text, a text that is no
  assignment, or one to a stream that could not be read back.  Exactly one
  sequence of bytes gives the partition to a stream with a checked name
  (`assigns_iff_bytes`); so two such streams never own it at once
  (`owns_iff_bytes`).
-/
import CursorCommit.Proofs.Assignment
import CursorCommit.Proofs.Commit.Effect
import CursorCommit.Proofs.Commit.Gate
import CursorCommit.Proofs.Key.Levels

namespace CursorCommit

theorem Utf8.encode_injective : Function.Injective Utf8.encode := by
  intro text text' h
  have h := congrArg decode h
  rw [decode_encode, decode_encode] at h
  exact Except.ok.inj h

/-- An identifier has no colons, and so no separator begins in it. -/
theorem Assignment.readable_of_checkIdentifier {name : String}
    (h : Name.checkIdentifier name = .ok ()) : Readable name :=
  have hcolon : ':' ∉ name.toList := Name.notMem_of_checkIdentifier h (by decide)
  ⟨fun hin => hcolon (hin.subset List.mem_cons_self),
    fun hend => hcolon (hend.subset List.mem_cons_self)⟩

/-- **The bytes that assign a partition** to a stream are those of one text. -/
theorem assigns_iff_bytes {stream : String} (h : Assignment.Readable stream) {o : Option Record} :
    Assigns stream o ↔ o.map Record.bytes = some (Utf8.encode (stream ++ ": :ASSIGNED")) := by
  have hencode : Assignment.encode ⟨stream, .assigned⟩ = stream ++ ": :ASSIGNED" := by
    rw [Assignment.encode, String.append_assoc]
    rfl
  simp only [Assigns, Assignment.parse_eq_ok_iff, Record.text_eq_ok_iff, hencode,
    Option.map_eq_some_iff, h, and_true]
  constructor
  · rintro ⟨record, text, rfl, hbytes, rfl⟩
    exact ⟨record, rfl, hbytes⟩
  · rintro ⟨record, rfl, hbytes⟩
    exact ⟨record, _, rfl, hbytes, rfl⟩

namespace Sighting

variable {s : Store} {key : String}

theorem isOwnedBy_iff_bytes {stream : String} (h : Name.checkIdentifier stream = .ok ()) :
    (ofRecord? (s.record? key)).isOwnedBy stream = true ↔
      s.bytesAt? key = some (Utf8.encode (stream ++ ": :ASSIGNED")) := by
  rw [isOwnedBy_ofRecord?_iff, assigns_iff_bytes (Assignment.readable_of_checkIdentifier h),
    Store.bytesAt?]

theorem revision_ofRecord?_eq_zero_iff (hs : s.Sound) :
    (ofRecord? (s.record? key)).revision = 0 ↔ s.record? key = none := by
  cases h : s.record? key with
  | none => exact iff_of_true rfl rfl
  | some record =>
    have hversion := hs.version_pos key record h
    have hle := hs.version_le key record h
    refine iff_of_false ?_ nofun
    show record.revision ≠ 0
    omega

end Sighting

namespace Coordinator

variable {c : Coordinator} {stream subscription : String} {tp : TopicPartition} {d : Directory}
  {token : Nat → String} {w : World Unit}

theorem sight_of_available (ha : w.store.available = true) :
    ((c.sight subscription tp).runIn (.undisturbed d token) w).value =
      .ok (Sighting.ofRecord? (w.store.record? (c.assignmentKey subscription tp))) := by
  rw [(looks_sight tp token w).1]
  exact lookSight_eq_ok_iff.2 ⟨ha, rfl⟩

theorem owns_of_available (ha : w.store.available = true) :
    ((c.owns stream subscription tp).runIn (.undisturbed d token) w).value =
      .ok ((Sighting.ofRecord? (w.store.record? (c.assignmentKey subscription tp))).isOwnedBy
        stream) := by
  unfold owns
  rw [Action.runIn_bind_ok _ (sight_of_available ha), Action.runIn_pure]

/-- **Ownership is decided by the bytes of the assignment**, in every reachable
    store within reach: the answer is never a failure, and a stream with a
    checked name owns a partition iff the record is the one text that says so;
    at most one such stream does.  A sighting has the revision `0` iff there is
    no record. -/
theorem owns_iff_bytes (c : Coordinator) (subscription : String) (tp : TopicPartition)
    (d : Directory) (token : Nat → String) (w : World Unit) (hw : w.store.Reachable)
    (ha : w.store.available = true) :
    let owns stream := ((c.owns stream subscription tp).runIn (.undisturbed d token) w).value
    (∀ stream, Name.checkIdentifier stream = .ok () → ∃ owned, owns stream = .ok owned ∧
      (owned = true ↔ w.store.bytesAt? (c.assignmentKey subscription tp) =
        some (Utf8.encode (stream ++ ": :ASSIGNED")))) ∧
    (∀ stream stream', Name.checkIdentifier stream = .ok () →
      Name.checkIdentifier stream' = .ok () → owns stream = .ok true → owns stream' = .ok true →
        stream = stream') ∧
    ∃ seen, ((c.sight subscription tp).runIn (.undisturbed d token) w).value = .ok seen ∧
      (seen.revision = 0 ↔ w.store.record? (c.assignmentKey subscription tp) = none) := by
  intro owns
  refine ⟨fun stream hstream => ?_, fun stream stream' hstream hstream' h h' => ?_, ?_⟩
  · exact ⟨_, owns_of_available ha, Sighting.isOwnedBy_iff_bytes hstream⟩
  · simp only [owns, owns_of_available ha, Except.ok.injEq] at h h'
    rw [Sighting.isOwnedBy_iff_bytes hstream] at h
    rw [Sighting.isOwnedBy_iff_bytes hstream', h, Option.some.injEq] at h'
    exact (String.append_left_inj _).1 (Utf8.encode_injective h')
  · exact ⟨_, sight_of_available ha, Sighting.revision_ofRecord?_eq_zero_iff hw.sound⟩

/-- One byte after an assignment, which no text has, takes the partition from
    its stream. -/
theorem torn_assignment_disowned :
    let torn := Sample.store.afterAll
      [.put (Sample.assignmentAt "1") (Sample.assigned ++ [0xFF])]
    let owns stream partition := ((Sample.coordinator.owns stream "s" ⟨"t", partition⟩).runIn
      (.undisturbed Sample.directory toString) ⟨torn, 0, ()⟩).value
    owns "n" "0" = .ok true ∧ owns "n" "1" = .ok false ∧
      ∀ stream, Name.checkIdentifier stream = .ok () → owns stream "0" = .ok true →
        stream = "n" := by
  intro torn owns
  have htorn : torn.Reachable := (Store.Reachable.empty.afterAll _).afterAll _
  have ha : torn.available = true := by decide +kernel
  have decided (partition : String) := owns_iff_bytes Sample.coordinator "s" ⟨"t", partition⟩
    Sample.directory toString ⟨torn, 0, ()⟩ htorn ha
  have hn : Name.checkIdentifier "n" = .ok () := by decide
  obtain ⟨hexact, honly, -⟩ := decided "0"
  obtain ⟨owned, howns, hiff⟩ := hexact "n" hn
  obtain ⟨owned', howns', hiff'⟩ := (decided "1").1 "n" hn
  have howned : owned = true := hiff.2 (by decide +kernel)
  have howned' : owned' = false := by
    rw [← Bool.not_eq_true, hiff']
    decide +kernel
  rw [howned] at howns
  rw [howned'] at howns'
  exact ⟨howns, howns', fun stream hstream h => honly stream "n" hstream hn h howns⟩

end Coordinator

end CursorCommit

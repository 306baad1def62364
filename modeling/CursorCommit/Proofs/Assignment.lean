/-
  Assignments as they are stored, and read back.

  A record is read at its first separator.  The separator overlaps itself, so
  the first one of a record may begin in the stream and end behind it.  Hence
  a stream is read back iff it holds no separator and does not end with all
  but the last character of one (`Readable`).  What is read is what was stored
  (`parse_eq_ok_iff`), and different assignments are stored differently
  (`encode_injective`), so no record is read as another assignment
  (`records_read_back`).
-/
import CursorCommit.Assignment
import CursorCommit.Proofs.Key
import CursorCommit.Proofs.Lists

namespace CursorCommit

namespace AssignmentStatus

theorem ofWord_word (status : AssignmentStatus) : ofWord status.word = .ok status := by
  cases status <;> decide

theorem word_injective : Function.Injective word := by
  intro status status' h
  have h := congrArg ofWord h
  rw [ofWord_word, ofWord_word] at h
  exact Except.ok.inj h

theorem ofWord_eq_ok_iff {text : String} {status : AssignmentStatus} :
    ofWord text = .ok status ↔ text = status.word := by
  constructor
  · intro h
    unfold ofWord at h
    split_ifs at h
    all_goals cases h; assumption
  · rintro rfl
    exact ofWord_word status

theorem colon_notMem_word (status : AssignmentStatus) : ':' ∉ status.word.toList := by
  cases status <;> decide

end AssignmentStatus

/-! ## Reading a record -/

namespace Assignment

/-- A stream that can be read back from a record: it has no separator, and
    none begins in it that the separator behind it completes. -/
def Readable (stream : String) : Prop :=
  ¬ ": :".toList <:+: stream.toList ∧ ¬ ": ".toList <:+ stream.toList

instance (stream : String) : Decidable (Readable stream) :=
  inferInstanceAs (Decidable (_ ∧ _))

/-- A separator that ends behind the stream ends with the colon that follows
    it: no separator ends with the blank after that. -/
theorem readable_iff {stream : String} : Readable stream ↔
    ¬ separator.toList <:+: stream.toList ++ separator.toList.dropLast := by
  have hsep : separator.toList = [':', ' '] ++ [':'] := rfl
  have hend : separator.toList.dropLast = [':'] ++ [' '] := rfl
  have hcolon : separator.toList <:+ stream.toList ++ [':'] ↔ [':', ' '] <:+ stream.toList := by
    rw [hsep, List.suffix_append_inj_of_length_eq rfl, and_iff_left rfl]
  have hblank : ¬ separator.toList <:+ stream.toList ++ [':'] ++ [' '] := by
    rw [hsep, List.suffix_concat_iff]
    rintro (h | ⟨rest, h, -⟩)
    · cases h
    · exact absurd (List.append_inj_right' h rfl) (by decide)
  rw [hend, ← List.append_assoc, List.infix_concat_iff, or_iff_right hblank, List.infix_concat_iff,
    hcolon, not_or, and_comm]
  rfl

theorem toList_encode (a : Assignment) :
    a.encode.toList = a.stream.toList ++ separator.toList ++ a.status.word.toList := by
  simp only [encode, String.toList_append]

/-- **Different assignments are stored differently**: a status word has no
    colon, so the last one of a record is the end of the separator. -/
theorem encode_injective : Function.Injective encode := by
  intro a a' h
  have hsep : separator.toList.reverse = [':', ' ', ':'] := rfl
  have h := congrArg (fun text => text.toList.reverse) h
  simp only [toList_encode, List.reverse_append, hsep, List.cons_append] at h
  obtain ⟨hword, hstream⟩ := Text.eq_and_eq_of_append_cons
    (by simpa using a.status.colon_notMem_word) (by simpa using a'.status.colon_notMem_word) h
  have hstatus : a.status = a'.status :=
    AssignmentStatus.word_injective (String.toList_injective (List.reverse_injective hword))
  have hstream : a.stream = a'.stream := by simpa [String.toList_inj] using hstream
  cases a; cases a'
  exact mk.injEq .. ▸ ⟨hstream, hstatus⟩

variable {text : String} {a : Assignment}

/-- **What is read is what was stored**, and all that is readable is read. -/
theorem parse_eq_ok_iff : parse text = .ok a ↔ text = a.encode ∧ Readable a.stream := by
  have hsep : separator.toList ≠ [] := List.cons_ne_nil _ _
  rw [readable_iff, ← String.toList_inj, toList_encode, ← Text.partAtFirst_eq_some_iff hsep]
  unfold parse
  constructor
  · intro h
    cases hparts : Text.partAtFirst separator.toList text.toList with
    | none => rw [hparts] at h; cases h
    | some parts =>
      cases hstatus : AssignmentStatus.ofWord (String.ofList parts.2) with
      | error fault => simp only [hparts, hstatus] at h; cases h
      | ok status =>
        simp only [hparts, hstatus] at h
        cases h
        rw [AssignmentStatus.ofWord_eq_ok_iff] at hstatus
        simp [← hstatus]
  · intro h
    simp only [h, String.ofList_toList, AssignmentStatus.ofWord_word]
    rfl

/-- **A record is read as the assignment that was stored, or not at all**: it
    is read iff its stream is readable, and whatever is read is stored as the
    record again. -/
theorem records_read_back (stream : String) (status : AssignmentStatus) :
    (parse (encode ⟨stream, status⟩) = .ok ⟨stream, status⟩ ∨
      ∃ fault, parse (encode ⟨stream, status⟩) = .error fault) ∧
    ((∃ a, parse (encode ⟨stream, status⟩) = .ok a) ↔ Readable stream) ∧
    ∀ text a, parse text = .ok a → encode a = text := by
  refine ⟨?_, ⟨?_, fun hr => ⟨_, parse_eq_ok_iff.2 ⟨rfl, hr⟩⟩⟩, ?_⟩
  · cases h : parse (encode ⟨stream, status⟩) with
    | ok a => rw [← encode_injective (parse_eq_ok_iff.1 h).1]; exact Or.inl rfl
    | error fault => exact Or.inr ⟨fault, rfl⟩
  · rintro ⟨a, h⟩
    obtain ⟨he, hr⟩ := parse_eq_ok_iff.1 h
    rwa [← encode_injective he] at hr
  · intro text a h
    exact (parse_eq_ok_iff.1 h).1.symm

/-- Colons at the end of a stream are told from the separator; a blank behind
    them makes a separator too early. -/
theorem colons_read_back :
    (parse "a::: :ASSIGNED" = .ok ⟨"a::", .assigned⟩ ∧
      encode ⟨"a::", .assigned⟩ = "a::: :ASSIGNED") ∧
    ¬ ∃ a, parse (encode ⟨"a: ", .assigned⟩) = .ok a := by
  have h : parse "a::: :ASSIGNED" = .ok ⟨"a::", .assigned⟩ := by decide +kernel
  obtain ⟨-, -, hencode⟩ := records_read_back "a::" .assigned
  obtain ⟨-, hread, -⟩ := records_read_back "a: " .assigned
  exact ⟨⟨h, hencode _ _ h⟩, fun ha => absurd (hread.1 ha) (by decide)⟩

end Assignment

end CursorCommit

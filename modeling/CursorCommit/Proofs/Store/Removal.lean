/-
  Listing and removing the records whose keys start with a text.

  A listing begins where the text itself would stand and ends at the first key
  that starts otherwise; a removal looks at every key.  Both mean the same
  records: what is removed is what was listed (`removes_what_it_lists`).
-/
import CursorCommit.Proofs.Store.Revisions
import CursorCommit.Proofs.Store.Scan

namespace CursorCommit.Store

variable {s : Store} {keep : String → Bool} {key : String} {record : Record}

/-- **What a removal leaves** are the records at the keys to keep, as they
    were. -/
theorem record?_retain_eq_some_iff :
    (s.retain keep).record? key = some record ↔
      s.record? key = some record ∧ keep key = true := by
  rw [record?_retain]
  split
  · next hkeep => rw [and_iff_left hkeep]
  · next hkeep => exact iff_of_false nofun fun h => hkeep h.2

/-- **A removal that removes something** is one more revision. -/
theorem revision_retain (h : s.record? key = some record) (hkeep : keep key = false) :
    (s.retain keep).revision = s.revision + 1 := by
  have hlt : (s.records.filter keep).entries.length < s.records.entries.length :=
    List.length_filter_lt_length_iff_exists.2
      ⟨(key, record), s.records.mem_entries_iff.2 h, by simp [hkeep]⟩
  exact if_neg hlt.ne

/-- **A removal takes the records that are listed**, and no others: a listing
    has the records whose keys start with the text, once each and in the order
    of the keys; after the removal all others are as they were, and the store
    is at the next revision iff something was listed. -/
theorem removes_what_it_lists (s : Store) (start : String) :
    ∃ listed s', s.list start = s.whenAvailable listed ∧
      s.deletePrefix start = s.whenAvailable s' ∧
      (∀ key record, (key, record) ∈ listed ↔
        s.record? key = some record ∧ Text.startsWith start key = true) ∧
      (listed.Pairwise fun a b => a.1 < b.1) ∧
      (∀ key record, s'.record? key = some record ↔
        s.record? key = some record ∧ (key, record) ∉ listed) ∧
      (listed = [] → s' = s) ∧ (listed ≠ [] → s'.revision = s.revision + 1) := by
  have hlisted : ∀ key record, (key, record) ∈ s.records.scan start ↔
      s.record? key = some record ∧ Text.startsWith start key = true :=
    fun _ _ => Table.mem_scan_iff
  refine ⟨_, _, rfl, rfl, hlisted, s.records.pairwise_scan start, fun key record => ?_,
    fun hnone => retain_eq_self fun key record h => ?_, fun hsome => ?_⟩
  · rw [record?_retain_eq_some_iff, hlisted]
    simp +contextual
  · have := hlisted key record
    simpa [hnone, h] using this
  · obtain ⟨⟨key, record⟩, he⟩ := List.exists_mem_of_ne_nil _ hsome
    obtain ⟨hrecord, hstart⟩ := (hlisted key record).1 he
    exact revision_retain hrecord (by simp [hstart])

/-- The start is a key itself, and a longer key goes on with a letter that is
    not ASCII. -/
theorem start_itself_removed :
    let s := empty.afterAll [.put "a" [1], .put "b" [2], .put "aé" [3]]
    ∃ listed s', s.list "a" = .ok listed ∧ s.deletePrefix "a" = .ok s' ∧
      ("a", ⟨[1], 1, 1⟩) ∈ listed ∧ ("aé", ⟨[3], 1, 3⟩) ∈ listed ∧
        s'.record? "b" = some ⟨[2], 1, 2⟩ ∧ s'.revision = 4 := by
  intro s
  have havailable : s.available = true := by decide +kernel
  have hrevision : s.revision = 3 := by decide +kernel
  obtain ⟨listed, s', hlist, hdelete, hlisted, -, hleft, -, hnext⟩ := removes_what_it_lists s "a"
  rw [whenAvailable, if_pos havailable] at hlist hdelete
  have ha : ("a", ⟨[1], 1, 1⟩) ∈ listed := (hlisted _ _).2 (by decide +kernel)
  refine ⟨listed, s', hlist, hdelete, ha, (hlisted _ _).2 (by decide +kernel),
    (hleft _ _).2 ⟨by decide +kernel, ?_⟩, ?_⟩
  · rw [hlisted]
    decide +kernel
  · rw [hnext (List.ne_nil_of_mem ha), hrevision]

end CursorCommit.Store

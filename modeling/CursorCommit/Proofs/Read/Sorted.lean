/-
  The order of the cursors that a read answers, while nobody else acts.

  A read goes by event types, and within an event type by the keys of the
  offsets.  In such a key a slash follows the partition.  So a partition that
  goes on after the name of another with a character below the slash comes
  before it, though as a name it comes after it (`Key.overtakes`).

  `cursors_sorted_iff`: the cursors are sorted by their partitions iff no
  partition that has an offset overtakes another of its topic;
  `overtaking_partition_first` is a read in which one does.
-/
import CursorCommit.Proofs.Read.Commits
import CursorCommit.Proofs.Read.Return

namespace CursorCommit

/-! ## Partitions and their keys -/

theorem Text.append_lt_append_iff {start a b : String} : start ++ a < start ++ b ↔ a < b := by
  simp only [String.lt_iff, String.toList_append]
  induction start.toList with
  | nil => rfl
  | cons c cs ih => simpa [List.cons_lt_cons_iff] using ih

namespace Key

variable {p q : String}

/-- Whether the name `q` goes on after `p` with a character below the
    slash. -/
def overtakes (q p : String) : Bool :=
  Text.startsWith p q && (Text.afterStart p q).toList.head?.any (· < '/')

theorem overtakes_iff : overtakes q p = true ↔
    ∃ a rest, q.toList = p.toList ++ a :: rest ∧ a < '/' := by
  simp only [overtakes, Bool.and_eq_true, Text.startsWith_iff, Option.any_eq_true,
    decide_eq_true_eq, List.head?_eq_some_iff]
  constructor
  · rintro ⟨⟨rest, rfl⟩, a, ⟨as, has⟩, ha⟩
    rw [Text.afterStart_append] at has
    exact ⟨a, as, by rw [String.toList_append, has], ha⟩
  · rintro ⟨a, rest, hq, ha⟩
    obtain rfl : q = p ++ String.ofList (a :: rest) := String.toList_inj.1 (by simp [hq])
    exact ⟨⟨_, rfl⟩, a, ⟨rest, by simp⟩, ha⟩

/-- **A partition that overtakes another** comes after it as a name, and before
    it by its key. -/
theorem lt_of_overtakes (h : overtakes q p = true) :
    p < q ∧ q ++ offsetEnding < p ++ offsetEnding := by
  obtain ⟨a, rest, hq, ha⟩ := overtakes_iff.1 h
  simp only [String.lt_iff, String.toList_append, hq]
  constructor
  · have hlonger : p.toList ++ [] < p.toList ++ a :: rest :=
      List.append_left_lt (List.nil_lt_cons a rest)
    rwa [List.append_nil] at hlonger
  · rw [List.append_assoc]
    exact List.append_left_lt (List.cons_lt_cons_iff.2 (Or.inl ha))

theorem overtakes_self (p : String) : overtakes p p = false :=
  Bool.eq_false_iff.2 fun h => String.lt_irrefl p (lt_of_overtakes h).1

/-- **What comes first by its key** comes first as a name, or overtakes. -/
theorem lt_or_overtakes (hp : IsLevel p) (hq : IsLevel q)
    (h : p ++ offsetEnding < q ++ offsetEnding) : p < q ∨ overtakes p q = true := by
  rw [overtakes_iff]
  replace hp := hp.2
  replace hq := hq.2
  simp only [String.lt_iff, String.toList_append] at h ⊢
  have hending : offsetEnding.toList = '/' :: "offset".toList := rfl
  rw [hending] at h
  generalize p.toList = as, q.toList = bs at *
  induction as generalizing bs with
  | nil =>
    cases bs with
    | nil => exact absurd h (List.lt_irrefl _)
    | cons b bs => exact Or.inl (List.nil_lt_cons b bs)
  | cons a as ih =>
    rw [List.mem_cons, not_or] at hp
    cases bs with
    | nil =>
      rcases List.cons_lt_cons_iff.1 h with ha | ⟨ha, -⟩
      · exact Or.inr ⟨a, as, rfl, ha⟩
      · exact absurd ha.symm hp.1
    | cons b bs =>
      rw [List.mem_cons, not_or] at hq
      rcases List.cons_lt_cons_iff.1 h with hab | ⟨rfl, hrest⟩
      · exact Or.inl (List.cons_lt_cons_iff.2 (Or.inl hab))
      · rcases ih bs hp.2 hq.2 hrest with hlt | ⟨x, rest, rfl, hx⟩
        · exact Or.inl (List.cons_lt_cons_iff.2 (Or.inr ⟨rfl, hlt⟩))
        · exact Or.inr ⟨x, rest, rfl, hx⟩

end Key

/-! ## Cursors in order -/

namespace Cursor

/-- The cursor `a` comes before `b`, by event types and then by what `key`
    makes of the partitions. -/
def Before (key : String → String) (a b : Cursor) : Prop :=
  a.eventType < b.eventType ∨ a.eventType = b.eventType ∧ key a.partition < key b.partition

instance (key : String → String) : DecidableRel (Before key) := fun _ _ =>
  inferInstanceAs (Decidable (_ ∨ _))

variable {key : String → String} {cursors : List Cursor}

theorem Before.of_eq {a b : Cursor} (h : Before key a b) (he : a.eventType = b.eventType) :
    key a.partition < key b.partition := by
  rcases h with hlt | ⟨-, hlt⟩
  · exact absurd (he ▸ hlt) (String.lt_irrefl _)
  · exact hlt

theorem pairwise_before_stamp {token : Nat → String} {n : Nat} :
    (stamp token n cursors).Pairwise (Before key) ↔ cursors.Pairwise (Before key) := by
  have hmap (cs : List Cursor) : (cs.map fun a => (a.eventType, a.partition)).Pairwise
      (fun x y => x.1 < y.1 ∨ x.1 = y.1 ∧ key x.2 < key y.2) ↔ cs.Pairwise (Before key) :=
    List.pairwise_map
  rw [← hmap, map_stamp fun _ _ => rfl, hmap]

/-- **Cursors in the order of the keys** are in the order of the partitions iff
    none overtakes another of its event type. -/
theorem pairwise_before_iff (hlevel : ∀ a ∈ cursors, Key.IsLevel a.partition)
    (h : cursors.Pairwise (Before (· ++ Key.offsetEnding))) :
    cursors.Pairwise (Before id) ↔ ∀ a ∈ cursors, ∀ b ∈ cursors, a.eventType = b.eventType →
      Key.overtakes b.partition a.partition = false := by
  constructor
  · intro hnames
    refine List.Pairwise.forall_of_forall_of_flip (fun a _ _ => Key.overtakes_self _) ?_ ?_
    · refine h.imp fun {a b} hab he => Bool.eq_false_iff.2 fun ho => ?_
      exact String.lt_asymm (hab.of_eq he) (Key.lt_of_overtakes ho).2
    · refine hnames.imp fun {a b} hab he => Bool.eq_false_iff.2 fun ho => ?_
      exact String.lt_asymm (hab.of_eq he.symm) (Key.lt_of_overtakes ho).1
  · intro hno
    refine h.imp_of_mem fun {a b} ha hb hab => hab.imp_right fun ⟨he, hlt⟩ => ⟨he, ?_⟩
    rcases Key.lt_or_overtakes (hlevel a ha) (hlevel b hb) hlt with hlt | ho
    · exact hlt
    · rw [hno b hb a ha he.symm] at ho
      cases ho

end Cursor

/-! ## The read -/

namespace Coordinator

variable {c : Coordinator} {d : Directory} {subscription : String} {s : Store}
  {cursors : List Cursor}

theorem pairwise_of_cursorsOfIn (hd : d.AnswersByName) {name : String}
    (h : c.cursorsOfIn d subscription name s = .ok cursors) :
    (∀ a ∈ cursors, a.eventType = name) ∧
      cursors.Pairwise (Cursor.Before (· ++ Key.offsetEnding)) := by
  obtain ⟨eventType, hr, h⟩ := except_bind_eq_ok_iff.1 h
  obtain ⟨offsets, ho, h⟩ := except_bind_eq_ok_iff.1 h
  cases h
  obtain rfl := hd name eventType (Directory.resolve_eq_ok_iff.1 hr).1
  refine ⟨?_, List.pairwise_map.2 ((listed_of_offsetsIn ho).ordered.imp fun {o o'} hlt => ?_)⟩
  · intro a ha
    obtain ⟨o, -, rfl⟩ := List.mem_map.1 ha
    rfl
  · rw [offsetKey_eq, offsetKey_eq] at hlt
    exact Or.inr ⟨rfl, Text.append_lt_append_iff.1 hlt⟩

/-- Two partitions of one topic that have an offset are read through one event
    type. -/
theorem exists_cursors_of_hasOffset {token : Nat → String} {w : World Unit} {topic p q : String}
    {offset offset' : String}
    (hread : ((c.cursors subscription).runIn (.undisturbed d token) w).value = .ok cursors)
    (hp : c.HasOffset d subscription w.store ⟨topic, p⟩ offset)
    (hq : c.HasOffset d subscription w.store ⟨topic, q⟩ offset') :
    ∃ a ∈ cursors, a.partition = p ∧ ∃ b ∈ cursors, b.partition = q ∧
      a.eventType = b.eventType := by
  obtain ⟨found, name, eventType, hfound, hname, hr, rfl⟩ := hp.topic
  obtain ⟨⟨found', lists, hfound', rfl, hlists⟩, -⟩ := exists_lists_of_ok hread
  rw [hfound] at hfound'
  cases hfound'
  obtain ⟨list, hl, eventType', hr', hlist⟩ := forall₂_mem_left hlists hname
  rw [hr] at hr'
  cases hr'
  obtain ⟨a, ha, hpa, -⟩ := hlist.exists_of_stored hp.level hp.stored
  obtain ⟨b, hb, hqb, -⟩ := hlist.exists_of_stored hq.level hq.stored
  exact ⟨a, List.mem_flatten.2 ⟨list, hl, ha⟩, hpa, b, List.mem_flatten.2 ⟨list, hl, hb⟩, hqb,
    (hlist.named a ha).trans (hlist.named b hb).symm⟩

/-- **A read goes by event types, and then by the keys of the offsets.** -/
theorem pairwise_of_cursorsIn (hd : d.AnswersByName)
    (h : c.cursorsIn d subscription s = .ok cursors) :
    cursors.Pairwise (Cursor.Before (· ++ Key.offsetEnding)) := by
  obtain ⟨_, -, h⟩ := except_bind_eq_ok_iff.1 h
  obtain ⟨found, -, h⟩ := except_bind_eq_ok_iff.1 h
  obtain ⟨lists, hlists, h⟩ := except_bind_eq_ok_iff.1 h
  cases h
  have hparts := (mapM_eq_ok_iff.1 hlists).imp fun name list h =>
    pairwise_of_cursorsOfIn hd h
  refine List.pairwise_flatten.2 ⟨fun list hl => ?_, ?_⟩
  · obtain ⟨name, -, -, hlist⟩ := forall₂_mem_right hparts hl
    exact hlist
  · refine pairwise_of_forall₂ hparts found.eventTypes.ascending ?_
    intro name name' list list' hlt hlist hlist' a ha b hb
    refine Or.inl ?_
    rwa [hlist.1 a ha, hlist'.1 b hb]

section
variable (d : Directory) (token : Nat → String) (w : World Unit) (c : Coordinator)
  (subscription : String)

/-- **The order of a read**, if the directory answers each look-up with the
    name asked for: the cursors are in strictly ascending order by event types
    and then by what the partitions are in a key.  They are so by the names of
    the partitions iff of those that have an offset in one topic none overtakes
    another. -/
theorem cursors_sorted_iff (hd : d.AnswersByName) :
    let run := (c.cursors subscription).runIn (.undisturbed d token) w
    ∀ cursors, run.value = .ok cursors →
      cursors.Pairwise (Cursor.Before (· ++ Key.offsetEnding)) ∧
        (cursors.Pairwise (Cursor.Before id) ↔
          ∀ topic p q offset offset', c.HasOffset d subscription w.store ⟨topic, p⟩ offset →
            c.HasOffset d subscription w.store ⟨topic, q⟩ offset' →
              Key.overtakes q p = false) := by
  intro run cursors hread
  have hsorted : cursors.Pairwise (Cursor.Before (· ++ Key.offsetEnding)) := by
    obtain ⟨bare, hbare, rfl⟩ := handsOut_cursors.exists_of_ok hread
    exact Cursor.pairwise_before_stamp.2 (pairwise_of_cursorsIn hd hbare)
  obtain ⟨-, ⟨found, hfound⟩, -⟩ := found_of_ok hread
  refine ⟨hsorted, (Cursor.pairwise_before_iff ?_ hsorted).trans ⟨?_, ?_⟩⟩
  · intro a ha
    obtain ⟨_, _, _, -, -, -, -, hhas⟩ := exists_hasOffset_of_ok hread hfound ha
    exact hhas.level
  · intro hno topic p q offset offset' hp hq
    obtain ⟨a, ha, rfl, b, hb, rfl, he⟩ := exists_cursors_of_hasOffset hread hp hq
    exact hno a ha b hb he
  · intro hno a ha b hb he
    obtain ⟨name, eventType, offset, -, hr, hname, -, hhas⟩ :=
      exists_hasOffset_of_ok hread hfound ha
    obtain ⟨name', eventType', offset', -, hr', hname', -, hhas'⟩ :=
      exists_hasOffset_of_ok hread hfound hb
    -- the event type leads both cursors to one topic
    have hsame : eventType = eventType' := by
      rw [hname, hname', hd _ _ (Directory.resolve_eq_ok_iff.1 hr).1,
        hd _ _ (Directory.resolve_eq_ok_iff.1 hr').1] at he
      rw [he, hr'] at hr
      cases hr
      rfl
    subst hsame
    exact hno _ _ _ _ _ hhas hhas'

theorem Sample.answersByName_directory : Sample.directory.AnswersByName := by
  intro name found h
  simp only [Sample.directory] at h
  split at h
  · next hname => cases h; exact hname.symm
  · cases h

/-- A read in the order of the partitions, so none of them overtakes another. -/
theorem odd_keys_read_sorted :
    let run := (Sample.coordinator.cursors "s").runIn (.undisturbed Sample.directory toString)
      ⟨Sample.odd, 0, ()⟩
    Sample.directory.AnswersByName ∧ ∃ cursors, run.value = .ok cursors ∧
      cursors.Pairwise (Cursor.Before (· ++ Key.offsetEnding)) ∧
      cursors.map Cursor.partition = ["0", "1", "offset"] ∧
      ∀ topic p q offset offset',
        Sample.coordinator.HasOffset Sample.directory "s" Sample.odd ⟨topic, p⟩ offset →
          Sample.coordinator.HasOffset Sample.directory "s" Sample.odd ⟨topic, q⟩ offset' →
            Key.overtakes q p = false := by
  intro run
  have hread : run.value.toOption.any (fun cursors =>
      decide (cursors.map Cursor.partition = ["0", "1", "offset"] ∧
        cursors.Pairwise (Cursor.Before id))) = true := by decide +kernel
  cases hvalue : run.value with
  | error e => rw [hvalue] at hread; cases hread
  | ok cursors =>
    rw [hvalue] at hread
    obtain ⟨hpartitions, hnames⟩ := of_decide_eq_true hread
    obtain ⟨hsorted, hiff⟩ := cursors_sorted_iff Sample.directory toString ⟨Sample.odd, 0, ()⟩
      Sample.coordinator "s" Sample.answersByName_directory cursors hvalue
    exact ⟨Sample.answersByName_directory, cursors, rfl, hsorted, hpartitions, hiff.1 hnames⟩

/-- A store with the offsets of two partitions, of which one goes on after the
    other with a dash. -/
def Sample.dashed : Store :=
  Store.empty.afterAll [.put (Sample.offsetAt "0") (Utf8.encode "1"),
    .put (Sample.offsetAt "0-1") (Utf8.encode "2")]

/-- The dash is below the slash, so `0-1` is read before `0`. -/
theorem overtaking_partition_first :
    let run := (Sample.coordinator.cursors "s").runIn (.undisturbed Sample.directory toString)
      ⟨Sample.dashed, 0, ()⟩
    Sample.directory.AnswersByName ∧ ∃ cursors, run.value = .ok cursors ∧
      cursors.map Cursor.partition = ["0-1", "0"] ∧ ¬ cursors.Pairwise (Cursor.Before id) := by
  intro run
  have hread : run.value.toOption.any (fun cursors =>
      decide (cursors.map Cursor.partition = ["0-1", "0"] ∧
        ¬ cursors.Pairwise (Cursor.Before id))) = true := by decide +kernel
  cases hvalue : run.value with
  | error e => rw [hvalue] at hread; cases hread
  | ok cursors =>
    rw [hvalue] at hread
    exact ⟨Sample.answersByName_directory, cursors, rfl, of_decide_eq_true hread⟩

end

end Coordinator

end CursorCommit

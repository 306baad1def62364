/-
  When a commit succeeds, while nobody else acts.

  `Accepts` says it in terms of the directory and the records alone: the
  request and its cursors are in order, the stream has a session and all
  partitions of the batch, and in each of them the reported offsets fold
  against the stored one.  A commit that may attempt its writes succeeds iff
  this holds (`isOk_iff_accepts`).
-/
import CursorCommit.Proofs.Commit.Effect
import CursorCommit.Proofs.Commit.Gate

namespace CursorCommit.Coordinator

/-- The offsets of the cursors in the partition fold against the stored
    one. -/
def Folds (c : Coordinator) (subscription : String) (d : Directory) (cursors : List Cursor)
    (s : Store) (tp : TopicPartition) : Prop :=
  ∃ offset fold, s.textAt? (c.offsetKey subscription tp) = some offset ∧
    (c.order.comparator tp.topic).reaches offset offset = true ∧
      Fold.ofOffsets (c.order.comparator tp.topic) offset (d.offsetsIn tp cursors) = .ok fold

/-- All that the commit of the cursors checks holds in the store. -/
structure Accepts (c : Coordinator) (stream subscription : String) (d : Directory)
    (cursors : List Cursor) (s : Store) : Prop where
  requested : Requested.checkCommit stream subscription = .ok ()
  placed : ∃ found, d.subscription subscription = .ok found ∧
    ∀ cursor ∈ cursors, ∃ p, d.place found cursor = .ok p
  available : s.available = true
  session : (s.record? (c.sessionKey subscription stream)).isSome = true
  assigned : ∀ tp ∈ d.partitions cursors,
    Assigns stream (s.record? (c.assignmentKey subscription tp))
  folds : ∀ tp ∈ d.partitions cursors, c.Folds subscription d cursors s tp

variable {c : Coordinator} {stream subscription : String} {d : Directory} {cursors : List Cursor}
  {s : Store} {tp : TopicPartition}

theorem Prepared.accepts {positions : List Position} {plans : List Plan}
    (h : c.Prepared stream subscription d cursors s positions plans) :
    c.Accepts stream subscription d cursors s where
  requested := h.requested
  placed := by
    obtain ⟨found, hfound, hplaced⟩ := h.placed
    refine ⟨found, hfound, fun cursor hc => ?_⟩
    obtain ⟨p, -, hp⟩ := forall₂_mem_left (mapM_eq_ok_iff.1 hplaced) hc
    exact ⟨p, hp⟩
  available := h.available
  session := h.session
  assigned tp htp := by
    obtain ⟨p, hp, rfl⟩ := h.exists_plan htp
    rw [← Sighting.isOwnedBy_ofRecord?_iff, (h.rests p hp).seen]
    exact (h.rests p hp).owned
  folds tp htp := by
    obtain ⟨p, hp, rfl⟩ := h.exists_plan htp
    obtain ⟨hstored, hfold⟩ := h.folds hp
    exact ⟨p.current.offset, p.fold, hstored,
      (foldPartition_eq_ok_iff.1 (h.rests p hp).folded).1, hfold⟩

namespace Accepts

variable (h : c.Accepts stream subscription d cursors s)
include h

theorem exists_positions : ∃ found positions, d.subscription subscription = .ok found ∧
    cursors.mapM (d.place found) = .ok positions := by
  obtain ⟨found, hfound, hplaced⟩ := h.placed
  obtain ⟨positions, hp⟩ := exists_mapM_eq_ok_iff.2 hplaced
  exact ⟨found, positions, hfound, hp⟩

theorem checked (htp : tp ∈ d.partitions cursors) :
    Name.checkSegment tp.topic = .ok () ∧ Name.checkSegment tp.partition = .ok () := by
  obtain ⟨found, positions, -, hp⟩ := h.exists_positions
  exact Directory.checked_of_locates (Directory.locates_of_mapM_place hp) htp

theorem exists_plan {positions : List Position} (hloc : List.Forall₂ d.Locates cursors positions)
    {b : Batch} (hb : b ∈ Batch.group positions) :
    ∃ p : Plan, p.batch = b ∧ p.RestsOn c stream subscription positions s := by
  have htp : b.tp ∈ d.partitions cursors := by
    rw [Directory.partitions_eq_map_tp hloc]
    exact List.mem_map_of_mem hb
  obtain ⟨offset, fold, hoffset, hself, hfold⟩ := h.folds b.tp htp
  obtain ⟨record, hrecord, htext⟩ := Store.textAt?_eq_some_iff.1 hoffset
  rw [← offsets_of_locates hloc hb] at hfold
  let seen := Sighting.ofRecord? (s.record? (c.assignmentKey subscription b.tp))
  refine ⟨⟨b, ⟨offset, record.version⟩, fold, seen⟩, rfl, ⟨record, hrecord, ?_⟩, ?_, rfl, ?_⟩
  · rw [StoredOffset.ofRecord, htext]
  · exact foldPartition_eq_ok_iff.2 ⟨hself, hfold⟩
  · exact Sighting.isOwnedBy_ofRecord?_iff.2 (h.assigned b.tp htp)

theorem exists_prepared : ∃ positions plans,
    c.Prepared stream subscription d cursors s positions plans := by
  obtain ⟨found, positions, hfound, hp⟩ := h.exists_positions
  have hloc := Directory.locates_of_mapM_place hp
  obtain ⟨plans, hplans⟩ := exists_forall₂ fun b hb => h.exists_plan hloc (b := b) hb
  refine ⟨positions, plans, h.requested, ⟨found, hfound, hp⟩, h.available, h.session, ?_, ?_⟩
  · rw [← List.forall₂_eq_eq_eq, List.forall₂_map_left_iff]
    exact hplans.flip.imp fun _ _ h => h.1
  · intro p hmem
    obtain ⟨b, -, -, hrests⟩ := forall₂_mem_right hplans hmem
    exact hrests

end Accepts

section
variable {token : Nat → String} {w : World Unit}

/-- **A commit succeeds iff it is accepted**, while nobody else acts, if it may
    attempt its writes. -/
theorem isOk_iff_accepts (hn : c.attempts ≠ 0) (hc : cursors ≠ []) :
    ((c.commit stream subscription cursors).runIn (.undisturbed d token) w).value.isOk = true ↔
      c.Accepts stream subscription d cursors w.store := by
  rw [except_isOk_iff]
  constructor
  · rintro ⟨rs, hrs⟩
    rcases completed_of_ok hrs with ⟨hnil, -⟩ | ⟨-, _, _, hdone⟩
    · exact absurd hnil hc
    · exact hdone.prepared.accepts
  · intro h
    obtain ⟨positions, plans, hprepared⟩ := h.exists_prepared
    obtain ⟨rs, hrs, -⟩ := completed_of_prepared d token hc hprepared (Or.inl hn)
    exact ⟨rs, hrs⟩

/-- Where a commit succeeds, so does that of no cursors, in every world. -/
theorem runIn_commit_nil_of_isOk
    (h : ((c.commit stream subscription cursors).runIn (.undisturbed d token) w).value.isOk = true)
    (w' : World Unit) :
    ((c.commit stream subscription []).runIn (.undisturbed d token) w').value = .ok [] := by
  obtain ⟨rs, hrs⟩ := except_isOk_iff.1 h
  rw [(runIn_commit_nil d token).1]
  rcases completed_of_ok hrs with ⟨rfl, rfl, -⟩ | ⟨-, _, _, hdone⟩
  · rw [← hrs, (runIn_commit_nil d token).1]
  · obtain ⟨found, hfound, -⟩ := hdone.prepared.placed
    exact emptyIn_eq_ok hdone.prepared.requested hfound

end

end CursorCommit.Coordinator

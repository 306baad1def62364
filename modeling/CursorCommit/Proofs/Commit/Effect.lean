/-
  What commits make of the stored offsets, as texts.

  `Effect` relates the stores before and after one commit that succeeds, or
  several of them, while nobody else acts: in each partition the reported
  offsets are folded from the stored one on, and all else stays as it was.
  Versions and revisions are left out, so that

  * the effects of commits add up (`Effect.append`), as the fold of the later
    offsets goes on where that of the earlier ones ended;
  * the cursors and the store determine the results, and the bytes at every
    key (`Effect.unique`).
-/
import CursorCommit.Proofs.Commit.Retry

namespace CursorCommit

/-! ## Stored bytes -/

namespace Store

variable {s s' : Store} {key text : String}

/-- The bytes at a key. -/
def bytesAt? (s : Store) (key : String) : Option (List UInt8) :=
  (s.record? key).map Record.bytes

theorem textAt?_congr (h : s'.record? key = s.record? key) : s'.textAt? key = s.textAt? key := by
  rw [textAt?, h, textAt?]

theorem bytesAt?_eq_encode (h : s.textAt? key = some text) :
    s.bytesAt? key = some (Utf8.encode text) := by
  obtain ⟨record, hr, ht⟩ := textAt?_eq_some_iff.1 h
  rw [bytesAt?, hr, Option.map_some, Record.text_eq_ok_iff.1 ht]

end Store

namespace Coordinator

/-- What commits that report these cursors make of the store `s`: the store
    `s'` and the results. -/
structure Effect (c : Coordinator) (subscription : String) (d : Directory) (cursors : List Cursor)
    (s s' : Store) (rs : List CommitResult) : Prop where
  ordered : rs.map CommitResult.cursor = cursors
  located : ∀ cursor ∈ cursors, ∃ tp ∈ d.partitions cursors, d.isIn tp cursor = true
  checked : ∀ tp ∈ d.partitions cursors, Name.checkSegment tp.topic = .ok ()
  stored : ∀ tp ∈ d.partitions cursors, ∃ offset,
    s.textAt? (c.offsetKey subscription tp) = some offset ∧
      (c.order.comparator tp.topic).reaches offset offset = true
  folded : ∀ tp, Name.checkSegment tp.topic = .ok () → ∀ offset,
    s.textAt? (c.offsetKey subscription tp) = some offset → ∃ fold,
      Fold.ofOffsets (c.order.comparator tp.topic) offset (d.offsetsIn tp cursors) = .ok fold ∧
        d.outcomesIn tp rs = fold.outcomes ∧
          s'.textAt? (c.offsetKey subscription tp) = some fold.highWater
  elsewhere : ∀ key, (∀ tp ∈ d.partitions cursors, key ≠ c.offsetKey subscription tp) →
    s'.record? key = s.record? key
  available : s'.available = s.available

namespace Effect

variable {c : Coordinator} {subscription : String} {d : Directory} {cursors cursors' : List Cursor}
  {s s₁ s₂ : Store} {rs rs' : List CommitResult} {tp : TopicPartition}

theorem nil (c : Coordinator) (subscription : String) (d : Directory) (s : Store) :
    c.Effect subscription d [] s s [] where
  ordered := rfl
  located _ h := by cases h
  checked _ h := by cases h
  stored _ h := by cases h
  folded _ _ offset h := ⟨⟨offset, []⟩, rfl, rfl, h⟩
  elsewhere _ _ := rfl
  available := rfl

section
variable (h : c.Effect subscription d cursors s s₁ rs)
include h

theorem record?_of_notMem (ht : Name.checkSegment tp.topic = .ok ())
    (htp : tp ∉ d.partitions cursors) : s₁.record? (c.offsetKey subscription tp) =
      s.record? (c.offsetKey subscription tp) := by
  refine h.elsewhere _ fun tp' htp' he => htp ?_
  rw [offsetKey_inj ht (h.checked tp' htp') he]
  exact htp'

/-- **The effects of commits add up.** -/
theorem append (h' : c.Effect subscription d cursors' s₁ s₂ rs') :
    c.Effect subscription d (cursors ++ cursors') s s₂ (rs ++ rs') where
  ordered := by rw [List.map_append, h.ordered, h'.ordered]
  located cursor hc := by
    rcases List.mem_append.1 hc with hc | hc
    · obtain ⟨tp, htp, hin⟩ := h.located cursor hc
      exact ⟨tp, Directory.mem_partitions_append.2 (Or.inl htp), hin⟩
    · obtain ⟨tp, htp, hin⟩ := h'.located cursor hc
      exact ⟨tp, Directory.mem_partitions_append.2 (Or.inr htp), hin⟩
  checked tp htp := (Directory.mem_partitions_append.1 htp).elim (h.checked tp) (h'.checked tp)
  stored tp htp := by
    by_cases hfirst : tp ∈ d.partitions cursors
    · exact h.stored tp hfirst
    · have hsecond := (Directory.mem_partitions_append.1 htp).resolve_left hfirst
      rw [← Store.textAt?_congr (h.record?_of_notMem (h'.checked tp hsecond) hfirst)]
      exact h'.stored tp hsecond
  folded tp ht offset hoffset := by
    obtain ⟨first, hfirst, ho, hmid⟩ := h.folded tp ht offset hoffset
    obtain ⟨second, hsecond, ho', hend⟩ := h'.folded tp ht first.highWater hmid
    refine ⟨⟨second.highWater, first.outcomes ++ second.outcomes⟩, ?_, ?_, hend⟩
    · rw [Directory.offsetsIn_append]
      exact Fold.ofOffsets_append_eq_ok_iff.2 ⟨first, second, hfirst, hsecond, rfl⟩
    · rw [Directory.outcomesIn_append, ho, ho']
  elsewhere key hk := by
    rw [h'.elsewhere key fun tp htp => hk tp (Directory.mem_partitions_append.2 (Or.inr htp)),
      h.elsewhere key fun tp htp => hk tp (Directory.mem_partitions_append.2 (Or.inl htp))]
  available := h'.available.trans h.available

/-- **In each partition the offset ends at a maximum** of the stored one and of
    those that were reported. -/
theorem isMaximum (htp : tp ∈ d.partitions cursors) : ∃ offset offset',
    s.textAt? (c.offsetKey subscription tp) = some offset ∧
      s₁.textAt? (c.offsetKey subscription tp) = some offset' ∧
        (c.order.comparator tp.topic).IsMaximum offset' (offset :: d.offsetsIn tp cursors) := by
  obtain ⟨offset, hoffset, hself⟩ := h.stored tp htp
  obtain ⟨fold, hfold, -, hend⟩ := h.folded tp (h.checked tp htp) offset hoffset
  exact ⟨offset, fold.highWater, hoffset, hend, Fold.isMaximum_highWater hfold hself⟩

/-- **The cursors and the store determine the effect**, up to versions and
    revisions. -/
theorem unique (h' : c.Effect subscription d cursors s s₂ rs') :
    rs = rs' ∧ ∀ key, s₁.bytesAt? key = s₂.bytesAt? key := by
  have hsame : ∀ tp ∈ d.partitions cursors, d.outcomesIn tp rs = d.outcomesIn tp rs' ∧
      s₁.bytesAt? (c.offsetKey subscription tp) = s₂.bytesAt? (c.offsetKey subscription tp) := by
    intro tp htp
    obtain ⟨offset, hoffset, -⟩ := h.stored tp htp
    obtain ⟨fold, hfold, ho, hend⟩ := h.folded tp (h.checked tp htp) offset hoffset
    obtain ⟨fold', hfold', ho', hend'⟩ := h'.folded tp (h.checked tp htp) offset hoffset
    rw [hfold] at hfold'
    cases hfold'
    rw [ho, ho', Store.bytesAt?_eq_encode hend, Store.bytesAt?_eq_encode hend']
    exact ⟨rfl, rfl⟩
  have hin : ∀ r ∈ rs, ∃ tp, d.isIn tp r.cursor = true := by
    intro r hr
    obtain ⟨tp, -, hin⟩ := h.located r.cursor (h.ordered ▸ List.mem_map_of_mem hr)
    exact ⟨tp, hin⟩
  constructor
  · refine Directory.eq_of_outcomesIn (h.ordered.trans h'.ordered.symm) hin fun tp => ?_
    by_cases htp : tp ∈ d.partitions cursors
    · exact (hsame tp htp).1
    · rw [Directory.outcomesIn_eq_nil (by rwa [h.ordered]),
        Directory.outcomesIn_eq_nil (by rwa [h'.ordered])]
  · intro key
    by_cases hk : ∃ tp ∈ d.partitions cursors, key = c.offsetKey subscription tp
    · obtain ⟨tp, htp, rfl⟩ := hk
      exact (hsame tp htp).2
    · have hno : ∀ tp ∈ d.partitions cursors, key ≠ c.offsetKey subscription tp :=
        fun tp htp he => hk ⟨tp, htp, he⟩
      rw [Store.bytesAt?, Store.bytesAt?, h.elsewhere key hno, h'.elsewhere key hno]

end

end Effect

/-! ## The effect of one commit -/

section
variable {c : Coordinator} {stream subscription : String} {d : Directory} {cursors : List Cursor}
  {s s' : Store} {positions : List Position} {plans : List Plan} {rs : List CommitResult}

/-- **A commit that is completed has its effect.** -/
theorem Completed.effect (h : c.Completed stream subscription d cursors s s' positions plans rs) :
    c.Effect subscription d cursors s s' rs where
  ordered := h.ordered
  located _ hc := Directory.exists_isIn_of_locates h.prepared.located hc
  checked _ htp := (Directory.checked_of_locates h.prepared.located htp).1
  stored tp htp := by
    obtain ⟨p, hp, rfl⟩ := h.prepared.exists_plan htp
    exact ⟨p.current.offset, (h.prepared.folds hp).1,
      (foldPartition_eq_ok_iff.1 (h.prepared.rests p hp).folded).1⟩
  folded tp ht offset hoffset := by
    by_cases htp : tp ∈ d.partitions cursors
    · obtain ⟨p, hp, rfl⟩ := h.prepared.exists_plan htp
      obtain ⟨hstored, hfold⟩ := h.prepared.folds hp
      rw [hoffset] at hstored
      cases hstored
      obtain ⟨record, hrecord, hend⟩ := (h.restsOn_again hp).stored
      exact ⟨p.fold, hfold, h.outcomes p hp,
        Store.textAt?_eq hrecord (StoredOffset.ofRecord_eq_ok hend).1⟩
    · refine ⟨⟨offset, []⟩, ?_, Directory.outcomesIn_eq_nil (by rwa [h.ordered]), ?_⟩
      · rw [Directory.offsetsIn_eq_nil_iff.2 htp]; rfl
      · refine (Store.textAt?_congr (h.record?_eq fun p hp _ he => htp ?_)).trans hoffset
        have hchecked := Directory.checked_of_locates h.prepared.located
          (h.prepared.tp_mem_partitions hp)
        rw [← offsetKey_inj hchecked.1 ht he]
        exact h.prepared.tp_mem_partitions hp
  elsewhere key hk := h.record?_eq fun p hp _ he => hk _ (h.prepared.tp_mem_partitions hp) he.symm
  available := by rw [h.store, Store.available_writeAll]

/-- **A commit that succeeds has its effect**, while nobody else acts. -/
theorem effect_of_ok {token : Nat → String} {w : World Unit}
    (h : ((c.commit stream subscription cursors).runIn (.undisturbed d token) w).value = .ok rs) :
    c.Effect subscription d cursors w.store
      ((c.commit stream subscription cursors).runIn (.undisturbed d token) w).world.store rs := by
  rcases completed_of_ok h with ⟨rfl, rfl, hworld⟩ | ⟨-, _, _, hdone⟩
  · rw [hworld]
    exact .nil c subscription d w.store
  · exact hdone.effect

end

end Coordinator

end CursorCommit

/-
  One commit in place of two, while nobody else acts.

  `commit_append`: a batch is accepted iff its first part is, and then the
  rest is where the first part has been committed; the results are the same,
  and so are the bytes of all records.  The records of partitions that both
  parts advance get two versions in place of one.
-/
import CursorCommit.Proofs.Commit.Acceptance

namespace CursorCommit.Coordinator

variable {c : Coordinator} {stream subscription : String} {d : Directory} {xs ys : List Cursor}
  {s s' : Store} {rs : List CommitResult} {tp : TopicPartition}

/-! ## The first part -/

theorem Folds.of_append (h : c.Folds subscription d (xs ++ ys) s tp) :
    c.Folds subscription d xs s tp := by
  obtain ⟨offset, fold, hoffset, hself, hfold⟩ := h
  rw [Directory.offsetsIn_append] at hfold
  obtain ⟨first, -, hfirst, -⟩ := Fold.ofOffsets_append_eq_ok_iff.1 hfold
  exact ⟨offset, first, hoffset, hself, hfirst⟩

theorem Accepts.of_append (h : c.Accepts stream subscription d (xs ++ ys) s) :
    c.Accepts stream subscription d xs s where
  requested := h.requested
  placed := by
    obtain ⟨found, hfound, hplaced⟩ := h.placed
    exact ⟨found, hfound, fun cursor hc => hplaced cursor (List.mem_append_left _ hc)⟩
  available := h.available
  session := h.session
  assigned tp htp := h.assigned tp (Directory.mem_partitions_append.2 (Or.inl htp))
  folds tp htp := (h.folds tp (Directory.mem_partitions_append.2 (Or.inl htp))).of_append

/-! ## The rest, where the first part has been committed -/

namespace Effect

variable (h : c.Effect subscription d xs s s' rs)
include h

theorem folds_of_append (ht : Name.checkSegment tp.topic = .ok ())
    (hf : c.Folds subscription d (xs ++ ys) s tp) : c.Folds subscription d ys s' tp := by
  obtain ⟨offset, fold, hoffset, hself, hfold⟩ := hf
  rw [Directory.offsetsIn_append] at hfold
  obtain ⟨first, second, hfirst, hsecond, -⟩ := Fold.ofOffsets_append_eq_ok_iff.1 hfold
  obtain ⟨first', hfirst', -, hend⟩ := h.folded tp ht offset hoffset
  rw [hfirst] at hfirst'
  cases hfirst'
  exact ⟨first.highWater, second, hend, Fold.highWater_reaches_self hfirst hself, hsecond⟩

/-- **A partition folds all offsets** if it folds the later ones after the
    earlier ones. -/
theorem folds_append (htp : tp ∈ d.partitions (xs ++ ys))
    (hf : tp ∈ d.partitions ys →
      Name.checkSegment tp.topic = .ok () ∧ c.Folds subscription d ys s' tp) :
    c.Folds subscription d (xs ++ ys) s tp := by
  -- the offset that is stored at first
  obtain ⟨ht, offset, hoffset, hself⟩ : Name.checkSegment tp.topic = .ok () ∧
      ∃ offset, s.textAt? (c.offsetKey subscription tp) = some offset ∧
        (c.order.comparator tp.topic).reaches offset offset = true := by
    by_cases hx : tp ∈ d.partitions xs
    · exact ⟨h.checked tp hx, h.stored tp hx⟩
    · obtain ⟨ht, offset, -, hoffset, hself, -⟩ :=
        hf ((Directory.mem_partitions_append.1 htp).resolve_left hx)
      rw [Store.textAt?_congr (h.record?_of_notMem ht hx)] at hoffset
      exact ⟨ht, offset, hoffset, hself⟩
  -- the first part leaves where its fold ends, and the rest folds from there
  obtain ⟨first, hfirst, -, hend⟩ := h.folded tp ht offset hoffset
  obtain ⟨second, hsecond⟩ : ∃ second,
      Fold.ofOffsets (c.order.comparator tp.topic) first.highWater (d.offsetsIn tp ys) =
        .ok second := by
    by_cases hy : tp ∈ d.partitions ys
    · obtain ⟨-, offset', second, hoffset', -, hsecond⟩ := hf hy
      rw [hend] at hoffset'
      cases hoffset'
      exact ⟨second, hsecond⟩
    · rw [Directory.offsetsIn_eq_nil_iff.2 hy]
      exact ⟨⟨first.highWater, []⟩, rfl⟩
  have hfold := Fold.ofOffsets_append_eq_ok_iff.2 ⟨first, second, hfirst, hsecond, rfl⟩
  rw [← Directory.offsetsIn_append] at hfold
  exact ⟨offset, _, hoffset, hself, hfold⟩

theorem record?_sessionKey (stream : String) :
    s'.record? (c.sessionKey subscription stream) = s.record? (c.sessionKey subscription stream) :=
  h.elsewhere _ fun tp _ => c.sessionKey_ne_offsetKey subscription stream tp

theorem record?_assignmentKey (ht : Name.checkSegment tp.topic = .ok ())
    (hp : Name.checkSegment tp.partition = .ok ()) :
    s'.record? (c.assignmentKey subscription tp) = s.record? (c.assignmentKey subscription tp) :=
  h.elsewhere _ fun tp' htp' => assignmentKey_ne_offsetKey_of_checked ht hp (h.checked tp' htp')

/-- **The rest of an accepted batch is accepted** where its first part has been
    committed. -/
theorem accepts_of_append (ha : c.Accepts stream subscription d (xs ++ ys) s) :
    c.Accepts stream subscription d ys s' where
  requested := ha.requested
  placed := by
    obtain ⟨found, hfound, hplaced⟩ := ha.placed
    exact ⟨found, hfound, fun cursor hc => hplaced cursor (List.mem_append_right _ hc)⟩
  available := h.available.trans ha.available
  session := by rw [h.record?_sessionKey]; exact ha.session
  assigned tp htp := by
    have htp : tp ∈ d.partitions (xs ++ ys) := Directory.mem_partitions_append.2 (Or.inr htp)
    obtain ⟨ht, hp⟩ := ha.checked htp
    rw [h.record?_assignmentKey ht hp]
    exact ha.assigned tp htp
  folds tp htp := by
    have htp : tp ∈ d.partitions (xs ++ ys) := Directory.mem_partitions_append.2 (Or.inr htp)
    exact h.folds_of_append (ha.checked htp).1 (ha.folds tp htp)

/-- **A batch is accepted** if its first part is, and the rest where that has
    been committed. -/
theorem accepts_append (hx : c.Accepts stream subscription d xs s)
    (hy : c.Accepts stream subscription d ys s') :
    c.Accepts stream subscription d (xs ++ ys) s where
  requested := hx.requested
  placed := by
    obtain ⟨found, hfound, hplaced⟩ := hx.placed
    obtain ⟨found', hfound', hplaced'⟩ := hy.placed
    rw [hfound] at hfound'
    cases hfound'
    refine ⟨found, hfound, fun cursor hc => ?_⟩
    exact (List.mem_append.1 hc).elim (hplaced cursor) (hplaced' cursor)
  available := hx.available
  session := hx.session
  assigned tp htp := by
    rcases Directory.mem_partitions_append.1 htp with htp | htp
    · exact hx.assigned tp htp
    · obtain ⟨ht, hp⟩ := hy.checked htp
      rw [← h.record?_assignmentKey ht hp]
      exact hy.assigned tp htp
  folds tp htp := h.folds_append htp fun hy' => ⟨(hy.checked hy').1, hy.folds tp hy'⟩

end Effect

/-! ## One commit and two -/

section
variable (d : Directory) (token : Nat → String) (w : World Unit) (stream subscription : String)
  (xs ys : List Cursor)

theorem isOk_append_iff (c : Coordinator) (hn : c.attempts ≠ 0) :
    ((c.commit stream subscription (xs ++ ys)).runIn (.undisturbed d token) w).value.isOk = true ↔
      ((c.commit stream subscription xs).runIn (.undisturbed d token) w).value.isOk = true ∧
        ((c.commit stream subscription ys).runIn (.undisturbed d token)
          ((c.commit stream subscription xs).runIn (.undisturbed d token) w).world).value.isOk =
            true := by
  by_cases hx : xs = []
  · subst hx
    rw [List.nil_append, (runIn_commit_nil d token).2]
    refine ⟨fun h => ⟨?_, h⟩, And.right⟩
    rw [runIn_commit_nil_of_isOk h]; rfl
  by_cases hy : ys = []
  · subst hy
    rw [List.append_nil]
    refine ⟨fun h => ⟨h, ?_⟩, And.left⟩
    rw [runIn_commit_nil_of_isOk h]; rfl
  · rw [isOk_iff_accepts hn (List.append_ne_nil_of_left_ne_nil hx ys), isOk_iff_accepts hn hx,
      isOk_iff_accepts hn hy]
    have heffect (ha : c.Accepts stream subscription d xs w.store) :
        ∃ rs, c.Effect subscription d xs w.store
          ((c.commit stream subscription xs).runIn (.undisturbed d token) w).world.store rs := by
      obtain ⟨rs, hrs⟩ := except_isOk_iff.1 ((isOk_iff_accepts hn hx).2 ha)
      exact ⟨rs, effect_of_ok hrs⟩
    constructor
    · intro ha
      obtain ⟨rs, h⟩ := heffect ha.of_append
      exact ⟨ha.of_append, h.accepts_of_append ha⟩
    · rintro ⟨hx, hy⟩
      obtain ⟨rs, h⟩ := heffect hx
      exact h.accepts_append hx hy

/-- **A batch may be split.**  While nobody else acts, the commit of a batch
    succeeds iff the commits of its two parts do, one after the other; then its
    results are theirs, and all records end with the same bytes. -/
theorem commit_append (c : Coordinator) (hn : c.attempts ≠ 0) :
    let whole := (c.commit stream subscription (xs ++ ys)).runIn (.undisturbed d token) w
    let first := (c.commit stream subscription xs).runIn (.undisturbed d token) w
    let second := (c.commit stream subscription ys).runIn (.undisturbed d token) first.world
    (∀ rs, whole.value = .ok rs → ∃ rs₁ rs₂, first.value = .ok rs₁ ∧ second.value = .ok rs₂ ∧
      rs = rs₁ ++ rs₂ ∧
        ∀ key, second.world.store.bytesAt? key = whole.world.store.bytesAt? key) ∧
    ∀ rs₁ rs₂, first.value = .ok rs₁ → second.value = .ok rs₂ → whole.value = .ok (rs₁ ++ rs₂) := by
  intro whole first second
  have hok := isOk_append_iff d token w stream subscription xs ys c hn
  constructor
  · intro rs hrs
    obtain ⟨hfirst, hsecond⟩ := hok.1 (except_isOk_iff.2 ⟨rs, hrs⟩)
    obtain ⟨rs₁, h₁⟩ := except_isOk_iff.1 hfirst
    obtain ⟨rs₂, h₂⟩ := except_isOk_iff.1 hsecond
    obtain ⟨hresults, hbytes⟩ :=
      (effect_of_ok hrs).unique ((effect_of_ok h₁).append (effect_of_ok h₂))
    exact ⟨rs₁, rs₂, h₁, h₂, hresults, fun key => (hbytes key).symm⟩
  · intro rs₁ rs₂ h₁ h₂
    obtain ⟨rs, hrs⟩ :=
      except_isOk_iff.1 (hok.2 ⟨except_isOk_iff.2 ⟨rs₁, h₁⟩, except_isOk_iff.2 ⟨rs₂, h₂⟩⟩)
    obtain ⟨rfl, -⟩ := (effect_of_ok hrs).unique ((effect_of_ok h₁).append (effect_of_ok h₂))
    exact hrs

/-- A partition that both halves of a batch advance. -/
theorem halves_append :
    ∃ rs₁ rs₂, (Sample.atRest [Sample.cursor "0" "6", Sample.cursor "1" "5"]).value = .ok rs₁ ∧
      ((Sample.coordinator.commit "n" "s" [Sample.cursor "0" "7"]).runIn
        (.undisturbed Sample.directory toString)
        (Sample.atRest [Sample.cursor "0" "6", Sample.cursor "1" "5"]).world).value = .ok rs₂ ∧
      (Sample.atRest
        [Sample.cursor "0" "6", Sample.cursor "1" "5", Sample.cursor "0" "7"]).value =
          .ok (rs₁ ++ rs₂) ∧
      (rs₁ ++ rs₂).map CommitResult.outcome = [.committed, .outdated, .committed] := by
  have houtcomes : (Sample.atRest
      [Sample.cursor "0" "6", Sample.cursor "1" "5", Sample.cursor "0" "7"]).value.toOption.map
        (List.map CommitResult.outcome) = some [.committed, .outdated, .committed] := by
    decide +kernel
  obtain ⟨hsplit, -⟩ := commit_append Sample.directory toString ⟨Sample.store, 0, ()⟩ "n" "s"
    [Sample.cursor "0" "6", Sample.cursor "1" "5"] [Sample.cursor "0" "7"] Sample.coordinator
    (by decide)
  cases h : (Sample.atRest
      [Sample.cursor "0" "6", Sample.cursor "1" "5", Sample.cursor "0" "7"]).value with
  | error e => rw [h] at houtcomes; cases houtcomes
  | ok rs =>
    rw [h] at houtcomes
    obtain ⟨rs₁, rs₂, h₁, h₂, rfl, -⟩ := hsplit rs h
    exact ⟨rs₁, rs₂, h₁, h₂, rfl, Option.some.inj houtcomes⟩

end

end CursorCommit.Coordinator

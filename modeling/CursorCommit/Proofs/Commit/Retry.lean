/-
  Committing a batch once more.

  `commit_retries_safely`: the partitions that a commit has dealt with, all of
  them if it succeeded and those that it names as written if it failed, are
  outdated and left alone when the batch is committed again, as long as the
  others only advance their offsets.  To repeat a commit that succeeded
  undisturbed succeeds and changes nothing.
-/
import CursorCommit.Proofs.Commit.Progress
import CursorCommit.Proofs.Commit.Refinement
import CursorCommit.Proofs.Offset.Maximum

namespace CursorCommit

/-! ## Folding once more -/

theorem Fold.advanced_replicate (x : String) (n : Nat) :
    (Fold.mk x (List.replicate n .outdated)).advanced = false := by
  simp [advanced]

/-- **A fold from where another one ended** commits nothing. -/
theorem foldPartition_highWater {cmp : Comparator} {tp : TopicPartition} {current : StoredOffset}
    {offsets : List String} {fold : Fold} (h : foldPartition cmp tp current offsets = .ok fold)
    (version : Nat) : foldPartition cmp tp ⟨fold.highWater, version⟩ offsets =
      .ok ⟨fold.highWater, List.replicate fold.outcomes.length .outdated⟩ := by
  obtain ⟨hstart, hfold⟩ := foldPartition_eq_ok_iff.1 h
  refine foldPartition_eq_ok_iff.2 ⟨Fold.highWater_reaches_self hfold hstart, ?_⟩
  rw [Fold.ofOffsets_of_reaches fun x hx => Fold.highWater_reaches hfold hx,
    Fold.length_outcomes hfold]

/-- The plan that is made once more after this one was carried out. -/
def Plan.again (p : Plan) : Plan where
  batch := p.batch
  current := ⟨p.fold.highWater,
    if p.fold.advanced then p.current.version + 1 else p.current.version⟩
  fold := ⟨p.fold.highWater, List.replicate p.fold.outcomes.length .outdated⟩
  seen := p.seen

namespace Coordinator

variable {c : Coordinator} {stream subscription : String} {d : Directory} {cursors : List Cursor}
  {positions : List Position} {plans : List Plan}

/-! ## After the first commit -/

theorem HasReached.of_upholds {s s' : Store} {tp : TopicPartition}
    (h : c.HasReached subscription d cursors s tp)
    (hup : s'.upholds (c.order.comparator tp.topic) (c.offsetKey subscription tp) s = true) :
    c.HasReached subscription d cursors s' tp := by
  obtain ⟨text, htext, hall⟩ := h
  obtain ⟨text', htext', hmore⟩ := Store.exists_textAt?_of_upholds hup htext
  exact ⟨text', htext', fun cursor hc hin => hmore _ (hall cursor hc hin)⟩

/-! ## The second commit -/

theorem Prepared.fold_of_hasReached {s : Store} {p : Plan}
    (h : c.Prepared stream subscription d cursors s positions plans) (hp : p ∈ plans)
    (hreached : c.HasReached subscription d cursors s p.batch.tp) :
    p.fold = ⟨p.current.offset,
      List.replicate (d.offsetsIn p.batch.tp cursors).length .outdated⟩ := by
  obtain ⟨hstored, hfold⟩ := h.folds hp
  obtain ⟨text, htext, hall⟩ := hreached
  rw [hstored] at htext
  cases htext
  have hreaches : ∀ x ∈ d.offsetsIn p.batch.tp cursors,
      (c.order.comparator p.batch.tp.topic).reaches p.current.offset x = true := by
    intro x hx
    obtain ⟨cursor, hc, rfl⟩ := List.mem_map.1 hx
    obtain ⟨hc, hin⟩ := List.mem_filter.1 hc
    exact hall cursor hc hin
  rw [Fold.ofOffsets_of_reaches hreaches] at hfold
  exact (Except.ok.inj hfold).symm

namespace Completed

variable {s s' : Store} {rs : List CommitResult} {p : Plan}
  (h : c.Completed stream subscription d cursors s s' positions plans rs)
include h

theorem outdated_of_plan {n : Nat} (hp : p ∈ plans)
    (ho : p.fold.outcomes = List.replicate n .outdated) {result : CommitResult}
    (hr : result ∈ rs) (hin : d.isIn p.batch.tp result.cursor = true) :
    result.outcome = .outdated := by
  have hmem : result.outcome ∈ d.outcomesIn p.batch.tp rs :=
    List.mem_map_of_mem (List.mem_filter.2 ⟨hr, hin⟩)
  rw [h.outcomes p hp, ho] at hmem
  exact List.eq_of_mem_replicate hmem

/-- **A partition that had reached everything** comes back outdated, and its
    offset is left alone. -/
theorem outdated_of_hasReached {tp : TopicPartition} (htp : tp ∈ d.partitions cursors)
    (hreached : c.HasReached subscription d cursors s tp) :
    (∀ result ∈ rs, d.isIn tp result.cursor = true → result.outcome = .outdated) ∧
      s'.record? (c.offsetKey subscription tp) = s.record? (c.offsetKey subscription tp) := by
  obtain ⟨p, hp, rfl⟩ := h.prepared.exists_plan htp
  have hidle := h.prepared.fold_of_hasReached hp hreached
  refine ⟨fun result hr hin => ?_, h.record?_of_idle hp ?_⟩
  · exact h.outdated_of_plan hp (by rw [hidle]) hr hin
  · rw [hidle]
    exact Fold.advanced_replicate _ _

theorem restsOn_again (hp : p ∈ plans) : p.again.RestsOn c stream subscription positions s' where
  stored := by
    have hr := h.prepared.rests p hp
    cases ha : p.fold.advanced with
    | true =>
      obtain ⟨revision, hrecord⟩ := h.record?_of_advanced hp ha
      refine ⟨_, hrecord, ?_⟩
      simp [StoredOffset.ofRecord, Record.text, Utf8.decode_encode, Plan.again, ha]
    | false =>
      obtain ⟨record, hrecord, hcurrent⟩ := hr.stored
      have hend := Fold.highWater_spec (foldPartition_eq_ok hr.folded)
      rw [ha, if_neg Bool.false_ne_true] at hend
      refine ⟨record, (h.record?_of_idle hp ha).trans hrecord, ?_⟩
      rw [hcurrent, Plan.again, ha, hend]; rfl
  folded := foldPartition_highWater (h.prepared.rests p hp).folded _
  seen := by
    have hkey : ∀ q ∈ plans, q.fold.advanced = true →
        c.offsetKey subscription q.batch.tp ≠ c.assignmentKey subscription p.batch.tp :=
      fun q hq _ he => h.prepared.apart.assignments p hp q hq he.symm
    show Sighting.ofRecord? (s'.record? (c.assignmentKey subscription p.batch.tp)) = p.seen
    rw [h.record?_eq hkey]
    exact (h.prepared.rests p hp).seen
  owned := (h.prepared.rests p hp).owned

/-- **A commit that was completed can go on once more**, to the same plans made
    again. -/
theorem prepared_again :
    c.Prepared stream subscription d cursors s' positions (plans.map Plan.again) where
  requested := h.prepared.requested
  placed := h.prepared.placed
  available := by rw [h.store, Store.available_writeAll]; exact h.prepared.available
  session := by
    rw [h.record?_eq fun p _ _ he => c.sessionKey_ne_offsetKey subscription stream _ he.symm]
    exact h.prepared.session
  planned := by rw [List.map_map, ← h.prepared.planned]; rfl
  rests p' hp' := by
    obtain ⟨p, hp, rfl⟩ := List.mem_map.1 hp'
    exact h.restsOn_again hp

end Completed

theorem Completed.outdated_again {s s' : Store} {rs : List CommitResult}
    (h : c.Completed stream subscription d cursors s s' positions (plans.map Plan.again) rs) :
    ∀ result ∈ rs, result.outcome = .outdated := by
  intro result hr
  have hc : result.cursor ∈ cursors := by
    rw [← h.ordered]
    exact List.mem_map_of_mem hr
  obtain ⟨tp, htp, hin⟩ := Directory.exists_isIn_of_locates h.prepared.located hc
  obtain ⟨p', hp', rfl⟩ := h.prepared.exists_plan htp
  obtain ⟨p, hp, rfl⟩ := List.mem_map.1 hp'
  exact h.outdated_of_plan hp' rfl hr hin

theorem filter_again (plans : List Plan) :
    (plans.map Plan.again).filter (·.fold.advanced) = [] := by
  refine List.filter_eq_nil_iff.2 fun p' hp' => ?_
  obtain ⟨p, -, rfl⟩ := List.mem_map.1 hp'
  rw [Plan.again, Fold.advanced_replicate]
  exact Bool.false_ne_true

section
variable (c : Coordinator) (stream subscription : String) (cursors : List Cursor)

/-- **To commit a batch again is safe.**  The partitions that were dealt with
    come back outdated and their records stay as they are, if the others only
    advance their offsets during the first commit and up to the second; and to
    repeat a success at once, while nobody else acts, succeeds and changes
    nothing. -/
theorem commit_retries_safely :
    (∀ {σ : Type} (env : Surroundings σ) (w : World σ) (ops : List StoreOp)
      (token : Nat → String) (tokens : Nat),
      let first := (c.commit stream subscription cursors).runIn env w
      let between := first.world.store.afterAll ops
      let second := (c.commit stream subscription cursors).runIn
        (.undisturbed env.directory token) ⟨between, tokens, ()⟩
      (∀ tp ∈ dealtWith env.directory cursors first.value,
        c.Advanced subscription first.trace tp ∧
          first.world.store.Advances (c.order.comparator tp.topic)
            (c.offsetKey subscription tp) ops) →
      ∀ rs, second.value = .ok rs → rs.map CommitResult.cursor = cursors ∧
        ∀ tp ∈ dealtWith env.directory cursors first.value,
          (∀ result ∈ rs, env.directory.isIn tp result.cursor = true →
            result.outcome = .outdated) ∧
          second.world.store.record? (c.offsetKey subscription tp) =
            between.record? (c.offsetKey subscription tp)) ∧
    ∀ (d : Directory) (token token' : Nat → String) (w : World Unit) (tokens : Nat),
      let first := (c.commit stream subscription cursors).runIn (.undisturbed d token) w
      let second := (c.commit stream subscription cursors).runIn (.undisturbed d token')
        ⟨first.world.store, tokens, ()⟩
      ∀ rs, first.value = .ok rs →
        (∃ rs', second.value = .ok rs' ∧ rs'.map CommitResult.cursor = cursors ∧
          ∀ result ∈ rs', result.outcome = .outdated) ∧
        second.world.store = first.world.store := by
  constructor
  · intro σ env w ops token tokens first between second ha rs hrs
    rcases completed_of_ok hrs with ⟨rfl, rfl, -⟩ | ⟨-, _, _, h⟩
    · refine ⟨rfl, fun tp htp => ?_⟩
      have hnone := (hasReached_of_dealtWith htp (ha tp htp).1).1
      simp [Directory.partitions] at hnone
    · refine ⟨h.ordered, fun tp htp => ?_⟩
      obtain ⟨ha₁, ha₂⟩ := ha tp htp
      obtain ⟨hmem, hreached⟩ := hasReached_of_dealtWith htp ha₁
      exact h.outdated_of_hasReached hmem (hreached.of_upholds ha₂.upholds)
  · intro d token token' w tokens first second rs hrs
    rcases completed_of_ok hrs with ⟨rfl, rfl, -⟩ | ⟨hc, _, _, h⟩
    · obtain ⟨hvalue, -⟩ : first.value = _ ∧ first.world = w := runIn_commit_nil d token
      obtain ⟨hvalue', hworld'⟩ : second.value = _ ∧ second.world = _ := runIn_commit_nil d token'
      refine ⟨⟨[], hvalue'.trans (hvalue.symm.trans hrs), rfl, by simp⟩, ?_⟩
      rw [hworld']
    · obtain ⟨rs', hrs', h'⟩ := completed_of_prepared d token' hc
        (w := ⟨first.world.store, tokens, ()⟩) h.prepared_again (Or.inr (filter_again _))
      refine ⟨⟨rs', hrs', h'.ordered, h'.outdated_again⟩, ?_⟩
      rw [show second.world.store = _ from h'.store, entriesOf, filter_again]
      rfl

namespace Sample

/-- A commit that wrote one partition of two. -/
def failed : Run (List Rule) (Except Error (List CommitResult)) :=
  run lostConnection interleaved

/-- What others do between a failed commit and the next attempt. -/
def raise : List StoreOp :=
  [.put (offsetAt "0") (Utf8.encode "9")]

/-- The batch once more, while nobody else acts. -/
def onceMore (s : Store) : Run Unit (Except Error (List CommitResult)) :=
  (coordinator.commit "n" "s" interleaved).runIn (.undisturbed directory toString) ⟨s, 0, ()⟩

end Sample

/-- The partition that was written before the failure is left alone, although
    its offset was raised since, and the other one is made up for; a success
    that is repeated comes back outdated. -/
theorem partial_failure_retried :
    ((∀ tp ∈ dealtWith Sample.directory Sample.interleaved Sample.failed.value,
        Sample.coordinator.Advanced "s" Sample.failed.trace tp ∧
          Sample.failed.world.store.Advances (Sample.coordinator.order.comparator tp.topic)
            (Sample.coordinator.offsetKey "s" tp) Sample.raise) ∧
      ∃ rs, (Sample.onceMore (Sample.failed.world.store.afterAll Sample.raise)).value = .ok rs ∧
        rs.map CommitResult.outcome = [.outdated, .committed, .outdated, .committed] ∧
          (Sample.onceMore (Sample.failed.world.store.afterAll Sample.raise)).world.store.record?
              (Sample.offsetAt "0") =
            (Sample.failed.world.store.afterAll Sample.raise).record? (Sample.offsetAt "0")) ∧
    (∃ rs, (Sample.onceMore (Sample.atRest Sample.interleaved).world.store).value = .ok rs ∧
        ∀ result ∈ rs, result.outcome = .outdated) ∧
      (Sample.onceMore (Sample.atRest Sample.interleaved).world.store).world.store =
        (Sample.atRest Sample.interleaved).world.store := by
  have hadvanced : ∀ tp ∈ dealtWith Sample.directory Sample.interleaved Sample.failed.value,
      Sample.coordinator.Advanced "s" Sample.failed.trace tp ∧
        Sample.failed.world.store.Advances (Sample.coordinator.order.comparator tp.topic)
          (Sample.coordinator.offsetKey "s" tp) Sample.raise := by
    decide +kernel
  have hdealt : ⟨"t", "0"⟩ ∈ dealtWith Sample.directory Sample.interleaved Sample.failed.value := by
    decide +kernel
  have houtcomes : (Sample.onceMore (Sample.failed.world.store.afterAll
      Sample.raise)).value.toOption.map (List.map CommitResult.outcome) =
        some [.outdated, .committed, .outdated, .committed] := by
    decide +kernel
  have hdone : (Sample.atRest Sample.interleaved).value.isOk = true := by decide +kernel
  refine ⟨⟨hadvanced, ?_⟩, ?_⟩
  · cases h : (Sample.onceMore (Sample.failed.world.store.afterAll Sample.raise)).value with
    | error e => rw [h] at houtcomes; cases houtcomes
    | ok rs =>
      rw [h] at houtcomes
      obtain ⟨-, hall⟩ := (commit_retries_safely Sample.coordinator "n" "s" Sample.interleaved).1
        (.scripted Sample.directory toString) ⟨Sample.store, 0, Sample.lostConnection⟩
        Sample.raise toString 0 hadvanced rs h
      have hkept := (hall ⟨"t", "0"⟩ hdealt).2
      exact ⟨rs, rfl, Option.some.inj houtcomes, hkept⟩
  · cases h : (Sample.atRest Sample.interleaved).value with
    | error e => rw [h] at hdone; cases hdone
    | ok rs =>
      obtain ⟨⟨rs', hrs', -, hall⟩, hstore⟩ :=
        (commit_retries_safely Sample.coordinator "n" "s" Sample.interleaved).2
          Sample.directory toString toString ⟨Sample.store, 0, ()⟩ 0 rs h
      exact ⟨⟨rs', hrs', hall⟩, hstore⟩

end

end Coordinator

end CursorCommit

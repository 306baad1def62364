/-
  Several commits, one after the other, while nobody else acts.

  `commits_converge`: if all of them succeed, it does not matter in which order
  and in which batches the cursors are reported.  Each offset ends at a maximum
  of the stored one and of those that were reported, and so at offsets that are
  equal in the order of the topic; which spelling of the maximum is stored may
  depend on the order.  All else stays as it was.
-/
import CursorCommit.Proofs.Commit.Effect

namespace CursorCommit.Coordinator

/-- One of several commits: the stream that reports, and what it reports. -/
structure Call where
  stream : String
  cursors : List Cursor

/-- All that the calls report, in order. -/
def Call.reported (calls : List Call) : List Cursor :=
  calls.flatMap Call.cursors

/-- Commits for a subscription, one after the other, whatever becomes of
    each. -/
def commitEach (c : Coordinator) (subscription : String) (calls : List Call) :
    Program (List (Except Error (List CommitResult))) :=
  calls.mapM fun call => (c.commit call.stream subscription call.cursors).run

variable {c : Coordinator} {subscription : String} {d : Directory} {token : Nat → String}

theorem commitEach_cons (call : Call) (calls : List Call) :
    c.commitEach subscription (call :: calls) =
      (c.commit call.stream subscription call.cursors).run >>= fun r =>
        c.commitEach subscription calls >>= fun rest => .done (r :: rest) := by
  rw [commitEach, List.mapM_cons]; rfl

/-- **Commits that all succeed** have one effect, that of all their cursors. -/
theorem effect_of_commitEach {calls : List Call} {w : World Unit}
    (hok : ∀ r ∈ ((c.commitEach subscription calls).run (.undisturbed d token) w).value,
      r.isOk = true) :
    ∃ rs, c.Effect subscription d (Call.reported calls) w.store
      ((c.commitEach subscription calls).run (.undisturbed d token) w).world.store rs := by
  induction calls generalizing w with
  | nil => exact ⟨[], .nil c subscription d w.store⟩
  | cons call calls ih =>
    simp only [commitEach_cons, Program.run_bind, Program.run_done, List.forall_mem_cons] at hok ⊢
    obtain ⟨hfirst, hrest⟩ := hok
    obtain ⟨rs, hrs⟩ := except_isOk_iff.1 hfirst
    obtain ⟨rs', heffect⟩ := ih hrest
    exact ⟨rs ++ rs', (effect_of_ok hrs).append heffect⟩

section
variable (d : Directory) (token : Nat → String) (w : World Unit) (c : Coordinator)
  (subscription : String) (calls calls' : List Call)

/-- **Commits converge**, in whatever order and in whatever batches they report
    their cursors, if all of them succeed: the two offsets that they leave in a
    partition are both maxima of the stored offset and the reported ones, and
    equal in the order of the topic.  No other record changes. -/
theorem commits_converge
    (hsame : ((Call.reported calls).map Cursor.report).Perm
      ((Call.reported calls').map Cursor.report)) :
    let run := (c.commitEach subscription calls).run (.undisturbed d token) w
    let run' := (c.commitEach subscription calls').run (.undisturbed d token) w
    (∀ r ∈ run.value, r.isOk = true) → (∀ r ∈ run'.value, r.isOk = true) →
      (∀ cursor ∈ Call.reported calls,
        ∃ tp ∈ d.partitions (Call.reported calls), d.isIn tp cursor = true) ∧
      (∀ tp ∈ d.partitions (Call.reported calls), ∃ stored offset offset',
        w.store.textAt? (c.offsetKey subscription tp) = some stored ∧
        run.world.store.textAt? (c.offsetKey subscription tp) = some offset ∧
        run'.world.store.textAt? (c.offsetKey subscription tp) = some offset' ∧
        (c.order.comparator tp.topic).IsMaximum offset
          (stored :: d.offsetsIn tp (Call.reported calls)) ∧
        (c.order.comparator tp.topic).IsMaximum offset'
          (stored :: d.offsetsIn tp (Call.reported calls)) ∧
        (c.order.comparator tp.topic).compare offset offset' = .ok .eq) ∧
      ∀ key, (∀ tp ∈ d.partitions (Call.reported calls), key ≠ c.offsetKey subscription tp) →
        run.world.store.record? key = w.store.record? key ∧
          run'.world.store.record? key = w.store.record? key := by
  intro run run' hok hok'
  obtain ⟨rs, h⟩ := effect_of_commitEach hok
  obtain ⟨rs', h'⟩ := effect_of_commitEach hok'
  refine ⟨h.located, fun tp htp => ?_, fun key hk => ⟨h.elsewhere key hk, h'.elsewhere key ?_⟩⟩
  · obtain ⟨stored, offset, hstored, hoffset, hmax⟩ := h.isMaximum htp
    obtain ⟨_, offset', hstored', hoffset', hmax'⟩ :=
      h'.isMaximum ((Directory.mem_partitions_congr hsame).1 htp)
    rw [hstored] at hstored'
    cases hstored'
    have hmax' := hmax'.perm ((Directory.offsetsIn_perm hsame).symm.cons stored)
    exact ⟨stored, offset, offset', hstored, hoffset, hoffset', hmax, hmax', hmax.compare_eq hmax'⟩
  · exact fun tp htp => hk tp ((Directory.mem_partitions_congr hsame).2 htp)

/-- Commits by `n` while nobody else acts. -/
def Sample.runEach (batches : List (List Cursor)) :
    Run Unit (List (Except Error (List CommitResult))) :=
  (Sample.coordinator.commitEach "s" (batches.map (Call.mk "n"))).run
    (.undisturbed Sample.directory toString) ⟨Sample.store, 0, ()⟩

/-- Two spellings of one offset, reported either way round: the first one
    stays, and the two are equal. -/
theorem spellings_converge :
    let first := [[Sample.cursor "0" "07"], [Sample.cursor "1" "6", Sample.cursor "0" "7"]]
    let second := [[Sample.cursor "0" "7", Sample.cursor "0" "07", Sample.cursor "1" "6"]]
    (Sample.runEach first).world.store.textAt? (Sample.offsetAt "0") = some "07" ∧
      (Sample.runEach second).world.store.textAt? (Sample.offsetAt "0") = some "7" ∧
        ∃ offset offset',
          (Sample.runEach first).world.store.textAt? (Sample.offsetAt "0") = some offset ∧
          (Sample.runEach second).world.store.textAt? (Sample.offsetAt "0") = some offset' ∧
          (Sample.coordinator.order.comparator "t").compare offset offset' = .ok .eq := by
  intro first second
  have hsame : ((Call.reported (first.map (Call.mk "n"))).map Cursor.report).Perm
      ((Call.reported (second.map (Call.mk "n"))).map Cursor.report) := by decide +kernel
  have hfirst : ∀ r ∈ (Sample.runEach first).value, r.isOk = true := by decide +kernel
  have hsecond : ∀ r ∈ (Sample.runEach second).value, r.isOk = true := by decide +kernel
  have htp : ⟨"t", "0"⟩ ∈
      Sample.directory.partitions (Call.reported (first.map (Call.mk "n"))) := by decide +kernel
  obtain ⟨-, hconverge, -⟩ := commits_converge _ _ _ _ _ _ _ hsame hfirst hsecond
  obtain ⟨stored, offset, offset', -, hoffset, hoffset', -, -, heq⟩ := hconverge ⟨"t", "0"⟩ htp
  exact ⟨by decide +kernel, by decide +kernel, offset, offset', hoffset, hoffset', heq⟩

end

end CursorCommit.Coordinator

/-
  What a commit counts.

  What is counted during a commit is one conflict for each compare-and-set
  that the store refused, and in the end what its result says
  (`ticks_of_traces_commit`).  The first part is an invariant of all that a
  commit goes through before it counts in the end (`CountsRefusals`): reads
  neither count nor are refused, and each refused attempt of a write counts
  once, by induction on the attempts that are left.

  `commit_counts_what_happened` reads the counters off this, by the names and
  labels under which they are reported: that a counter counts a thing is told
  by the thing's name alone (`Metric.countedBy`).
-/
import CursorCommit.Proofs.Commit.Accounts
import CursorCommit.Proofs.Commit.Rounds

namespace CursorCommit

/-! ## Counters -/

namespace Metric

/-- All things that are counted. -/
def all : List Metric :=
  [.request .ok, .request .ownership, .request .resolution, .request .conflict,
    .request .storeUnavailable, .request .writeFailed, .request .invalid, .duration,
    .outcome .committed, .outcome .outdated, .casConflict, .read]

theorem mem_all (m : Metric) : m ∈ all := by
  rcases m with (_ | _ | _ | _ | _ | _ | _) | _ | (_ | _) | _ | _ <;> decide

/-- **No two things are counted under one name.** -/
theorem name_injective : Function.Injective name := by
  have hnodup : (all.map name).Nodup := by decide +kernel
  intro m m' h
  exact List.inj_on_of_nodup_map hnodup (mem_all m) (mem_all m') h

/-- Whether a counter counts a thing: the thing's name is that of the counter,
    alone or with a label in braces behind it. -/
def countedBy (counter : String) (m : Metric) : Bool :=
  m.name = counter || Text.startsWith (counter ++ "\x7b") m.name

theorem eq_of_all {p q : Metric → Bool} (h : ∀ m ∈ all, p m = q m) : p = q :=
  funext fun m => h m (mem_all m)

theorem countedBy_requests :
    countedBy "cursor_commit_requests_total" = (· matches .request _) :=
  eq_of_all (by decide +kernel)

theorem countedBy_durations :
    countedBy "cursor_commit_duration_seconds" = (· matches .duration) :=
  eq_of_all (by decide +kernel)

theorem countedBy_conflicts :
    countedBy "cursor_commit_cas_conflicts_total" = (· matches .casConflict) :=
  eq_of_all (by decide +kernel)

theorem countedBy_outcomes :
    countedBy "cursor_commits_total" = (· matches .outcome _) :=
  eq_of_all (by decide +kernel)

end Metric

namespace Event

/-- The thing that the event counts, if it counts one. -/
def tick? : Event → Option Metric
  | tick m => some m
  | _ => none

/-- The things that are counted, in order. -/
def ticks (tr : List Event) : List Metric :=
  tr.filterMap tick?

/-- By how much the counter with this name and label rises. -/
def rise (tr : List Event) (name : String) : Nat :=
  (ticks tr).countP (·.name = name)

/-- By how much a counter rises in total, under all its labels. -/
def totalRise (tr : List Event) (counter : String) : Nat :=
  (ticks tr).countP (Metric.countedBy counter)

@[simp] theorem ticks_append (tr tr' : List Event) : ticks (tr ++ tr') = ticks tr ++ ticks tr' :=
  List.filterMap_append

@[simp] theorem ticks_map_tick (ms : List Metric) : ticks (ms.map tick) = ms := by
  rw [ticks, List.filterMap_map]
  exact List.filterMap_some

theorem countP_isRefused_map_tick (ms : List Metric) : (ms.map tick).countP isRefused = 0 := by
  rw [List.countP_map]
  exact List.countP_eq_zero.2 fun m _ => by simp [isRefused]

theorem rise_name (tr : List Event) (m : Metric) : rise tr m.name = (ticks tr).count m := by
  rw [rise, List.count_eq_countP]
  refine List.countP_congr fun m' _ => ?_
  rw [decide_eq_true_iff, beq_iff_eq, Metric.name_injective.eq_iff]

/-! ## Refusals -/

/-- What the events count is a conflict for each refusal among them. -/
def CountsRefusals (tr : List Event) : Prop :=
  ticks tr = List.replicate (tr.countP isRefused) .casConflict

namespace CountsRefusals

theorem nil : CountsRefusals [] :=
  rfl

theorem append {tr tr' : List Event} (h : CountsRefusals tr) (h' : CountsRefusals tr') :
    CountsRefusals (tr ++ tr') := by
  unfold CountsRefusals at *
  rw [ticks_append, h, h', List.countP_append, List.replicate_append_replicate]

theorem flatMap {α : Type} {f : α → List Event} {as : List α}
    (h : ∀ a ∈ as, CountsRefusals (f a)) : CountsRefusals (as.flatMap f) := by
  induction as with
  | nil => exact nil
  | cons a as ih =>
    obtain ⟨ha, has⟩ := List.forall_mem_cons.1 h
    rw [List.flatMap_cons]
    exact ha.append (ih has)

theorem of_reads {tr : List Event} (h : ∀ e ∈ tr, e.IsRead) : CountsRefusals tr := by
  have hticks : ticks tr = [] := List.filterMap_eq_nil_iff.2 fun e he => by cases h e he <;> rfl
  have hcount : tr.countP isRefused = 0 :=
    List.countP_eq_zero.2 fun e he => by cases h e he <;> simp [isRefused]
  rw [CountsRefusals, hticks, hcount, List.replicate_zero]

theorem ticks_append_map_tick {tr : List Event} (h : CountsRefusals tr) (ms : List Metric) :
    ticks (tr ++ ms.map tick) =
      List.replicate ((tr ++ ms.map tick).countP isRefused) .casConflict ++ ms := by
  rw [ticks_append, ticks_map_tick, List.countP_append, countP_isRefused_map_tick, Nat.add_zero, h]

end CountsRefusals

end Event

open Event

namespace Coordinator

variable {c : Coordinator} {stream subscription : String} {positions : List Position}
  {cursors : List Cursor} {tr : List Event} {r : Except Error (List CommitResult)}

/-! ## The phases of a commit -/

theorem countsRefusals_refusal {p : Plan} {frame : Frame} {reads : List Event}
    {r : Except Error Plan}
    (h : (c.replan stream subscription positions p.batch).Traces reads r) :
    CountsRefusals (c.refusal subscription p frame reads) := by
  have hreads : ∀ e ∈ reads, e.IsRead := fun e he =>
    ((c.confined_replan stream subscription positions p.batch _ _ h).1 e he).isRead
  have hattempt : CountsRefusals
      [.store (c.writeCall subscription p) (.ok false) frame, .tick .casConflict] := rfl
  exact hattempt.append (.of_reads hreads)

/-- **A write counts its refusals**, by induction on the attempts that are
    left. -/
theorem countsRefusals_of_traces_write {n : Nat} {p : Plan} {w : Written}
    (h : (c.write stream subscription positions n p).Traces tr w) : CountsRefusals tr := by
  induction n generalizing p tr w with
  | zero =>
    obtain ⟨rfl, -⟩ := Program.traces_done.1 h
    exact .nil
  | succ n ih =>
    cases attempt_of_traces_write h with
    | failed e frame => rfl
    | applied frame => rfl
    | lost frame hreads => exact countsRefusals_refusal hreads
    | outdated frame hreads _ => exact countsRefusals_refusal hreads
    | again frame hreads _ hrest => exact (countsRefusals_refusal hreads).append (ih hrest)

theorem countsRefusals_of_traces_writeAll {plans : List Plan} {written : List (Batch × Written)}
    (h : (c.writeAll stream subscription positions plans).Traces tr written) :
    CountsRefusals tr := by
  obtain ⟨parts, hparts, rfl, -⟩ := parts_of_traces_writes h
  refine .flatMap fun t ht => ?_
  obtain ⟨p, -, -, hwrite⟩ := forall₂_mem_right hparts ht
  exact countsRefusals_of_traces_write hwrite

/-- **All that a commit counts**, whatever it is answered: a conflict for each
    refusal, and in the end what its result says. -/
theorem ticks_of_traces_commit (h : (c.commit stream subscription cursors).Traces tr r) :
    ticks tr = List.replicate (tr.countP isRefused) .casConflict ++ counted r := by
  by_cases hc : cursors = []
  · subst hc
    obtain ⟨t, ht, rfl⟩ := traces_commit.1 h
    exact (CountsRefusals.of_reads (traces_commitUncounted_nil ht).1).ticks_append_map_tick _
  · cases phases_of_traces_commit hc h with
    | refused hprepare =>
      exact (CountsRefusals.of_reads (confined_prepare _ _ hprepare).1).ticks_append_map_tick _
    | written hprepare hwrite =>
      rw [← List.append_assoc]
      exact ((CountsRefusals.of_reads (confined_prepare _ _ hprepare).1).append
        (countsRefusals_of_traces_writeAll hwrite)).ticks_append_map_tick _

/-! ## The counters -/

theorem totalRise_of_traces_commit (h : (c.commit stream subscription cursors).Traces tr r)
    (counter : String) : totalRise tr counter =
      (if Metric.countedBy counter .casConflict then tr.countP isRefused else 0) +
        (counted r).countP (Metric.countedBy counter) := by
  rw [totalRise, ticks_of_traces_commit h, List.countP_append, List.countP_replicate]

theorem rise_of_traces_commit (h : (c.commit stream subscription cursors).Traces tr r)
    (m : Metric) : rise tr m.name =
      (if Metric.casConflict = m then tr.countP isRefused else 0) + (counted r).count m := by
  rw [rise_name, ticks_of_traces_commit h, List.count_append, List.count_replicate]
  simp only [beq_iff_eq]

/-- Apart from the outcomes, a request and a duration are counted in the end. -/
theorem countP_counted {p : Metric → Bool} (h : ∀ o, p (.outcome o) = false) :
    (counted r).countP p = [Metric.request (.ofResult r), .duration].countP p := by
  cases r with
  | error e => rfl
  | ok rs =>
    have houtcomes : (rs.map fun result => Metric.outcome result.outcome).countP p = 0 := by
      rw [List.countP_map]
      exact List.countP_eq_zero.2 fun result _ => Bool.eq_false_iff.1 (h result.outcome)
    rw [counted, List.countP_append, houtcomes, Nat.add_zero]

theorem rise_request_of_traces_commit (h : (c.commit stream subscription cursors).Traces tr r) :
    rise tr (Metric.request (.ofResult r)).name = 1 := by
  have hcount : (counted r).count (.request (.ofResult r)) = 1 := by
    cases r <;> simp [counted, List.count_eq_zero]
  rw [rise_of_traces_commit h, hcount]
  rfl

theorem countP_outcomes_counted_ok (rs : List CommitResult) :
    (counted (.ok rs)).countP (· matches .outcome _) = rs.length := by
  simp [counted, List.countP_map, Function.comp_def]

theorem count_outcome_counted_ok (rs : List CommitResult) (o : Outcome) :
    (counted (.ok rs)).count (.outcome o) = rs.countP (·.outcome = o) := by
  have houtcomes : (rs.map fun result => Metric.outcome result.outcome).count (.outcome o) =
      rs.countP (·.outcome = o) := by
    rw [List.count_eq_countP, List.countP_map]
    exact List.countP_congr fun result _ => by simp
  simp [counted, houtcomes]

theorem rise_outcome_of_traces_commit {rs : List CommitResult}
    (h : (c.commit stream subscription cursors).Traces tr (.ok rs)) (o : Outcome) :
    rise tr (Metric.outcome o).name = rs.countP (·.outcome = o) := by
  rw [rise_of_traces_commit h, count_outcome_counted_ok, if_neg nofun, Nat.zero_add]

theorem countP_committed_add_countP_outdated (rs : List CommitResult) :
    rs.countP (·.outcome = .committed) + rs.countP (·.outcome = .outdated) = rs.length := by
  induction rs with
  | nil => rfl
  | cons result rs ih =>
    rw [List.countP_cons, List.countP_cons, List.length_cons, ← ih]
    cases result.outcome <;> simp <;> omega

section
variable {σ : Type} (env : Surroundings σ) (w : World σ) (c : Coordinator)
  (stream subscription : String) (cursors : List Cursor)

theorem length_of_commit_eq_ok {rs : List CommitResult}
    (h : ((c.commit stream subscription cursors).runIn env w).value = .ok rs) :
    rs.length = cursors.length := by
  rcases commit_run_cases env w c stream subscription cursors with
    hunwritten | ⟨positions, plans, parts, hcourse⟩
  · rcases hunwritten.result with ⟨e, he, -⟩ | ⟨hnil, rfl⟩
    · rw [h] at he
      cases he
    · rw [h] at hnil
      cases hnil
      rfl
  · rw [← (hcourse.explained h).1, List.length_map]

/-- **The counters match what happened.**  A commit counts one request, under
    the label of its result, and one duration; a conflict for each of its
    compare-and-sets that the store answered with no; and, only if it
    succeeds, its committed and its outdated cursors under these labels, which
    are all cursors of the batch. -/
theorem commit_counts_what_happened :
    let run := (c.commit stream subscription cursors).runIn env w
    totalRise run.trace "cursor_commit_requests_total" = 1 ∧
      rise run.trace (match run.value with
        | .ok _ => "cursor_commit_requests_total\x7bstatus=ok\x7d"
        | .error (.ownership ..) => "cursor_commit_requests_total\x7bstatus=ownership\x7d"
        | .error (.resolution _) => "cursor_commit_requests_total\x7bstatus=resolution\x7d"
        | .error (.conflict ..) => "cursor_commit_requests_total\x7bstatus=conflict\x7d"
        | .error (.storeUnavailable ..) =>
          "cursor_commit_requests_total\x7bstatus=store_unavailable\x7d"
        | .error (.writeFailed ..) => "cursor_commit_requests_total\x7bstatus=write_failed\x7d"
        | .error (.invalidCursor _) | .error (.invalidRequest _) | .error (.invalidState _) =>
          "cursor_commit_requests_total\x7bstatus=invalid\x7d") = 1 ∧
      totalRise run.trace "cursor_commit_duration_seconds" = 1 ∧
      totalRise run.trace "cursor_commit_cas_conflicts_total" = run.trace.countP isRefused ∧
      match run.value with
      | .error _ => totalRise run.trace "cursor_commits_total" = 0
      | .ok rs =>
        rise run.trace "cursor_commits_total\x7boutcome=committed\x7d" =
            rs.countP (·.outcome = .committed) ∧
          rise run.trace "cursor_commits_total\x7boutcome=outdated\x7d" =
            rs.countP (·.outcome = .outdated) ∧
          totalRise run.trace "cursor_commits_total" = cursors.length ∧
          rs.countP (·.outcome = .committed) + rs.countP (·.outcome = .outdated) =
            cursors.length := by
  intro run
  have htr : (c.commit stream subscription cursors).Traces run.trace run.value :=
    Action.traces_run env _ w
  have htotal := totalRise_of_traces_commit htr
  refine ⟨?_, ?_, ?_, ?_, ?_⟩
  · rw [htotal, Metric.countedBy_requests, countP_counted fun _ => rfl]
    rfl
  · have hrequest := rise_request_of_traces_commit htr
    cases hvalue : run.value with
    | ok rs =>
      rw [hvalue] at hrequest
      exact hrequest
    | error e =>
      rw [hvalue] at hrequest
      cases e <;> exact hrequest
  · rw [htotal, Metric.countedBy_durations, countP_counted fun _ => rfl]
    rfl
  · rw [htotal, Metric.countedBy_conflicts, countP_counted fun _ => rfl]
    rfl
  · cases hvalue : run.value with
    | error e =>
      rw [htotal, Metric.countedBy_outcomes, hvalue]
      rfl
    | ok rs =>
      have hlength : rs.length = cursors.length :=
        length_of_commit_eq_ok env w c stream subscription cursors hvalue
      rw [hvalue] at htotal htr
      refine ⟨rise_outcome_of_traces_commit htr .committed,
        rise_outcome_of_traces_commit htr .outdated, ?_, ?_⟩
      · rw [htotal, Metric.countedBy_outcomes, countP_outcomes_counted_ok, hlength]
        exact Nat.zero_add _
      · rw [countP_committed_add_countP_outdated, hlength]

/-- Two partitions lose a race each, and one of them is written after all; and
    a write that the store fails leaves nothing to count but the failure. -/
theorem races_and_failure_counted :
    let raced := Sample.run Sample.twoRaces Sample.interleaved
    let failed := Sample.run Sample.lostConnection Sample.interleaved
    (totalRise raced.trace "cursor_commit_requests_total" = 1 ∧
      rise raced.trace "cursor_commit_requests_total\x7bstatus=ok\x7d" = 1 ∧
      totalRise raced.trace "cursor_commit_duration_seconds" = 1 ∧
      totalRise raced.trace "cursor_commit_cas_conflicts_total" = 2 ∧
      rise raced.trace "cursor_commits_total\x7boutcome=committed\x7d" = 1 ∧
      rise raced.trace "cursor_commits_total\x7boutcome=outdated\x7d" = 3 ∧
      totalRise raced.trace "cursor_commits_total" = 4) ∧
    totalRise failed.trace "cursor_commit_requests_total" = 1 ∧
      rise failed.trace "cursor_commit_requests_total\x7bstatus=store_unavailable\x7d" = 1 ∧
      totalRise failed.trace "cursor_commit_duration_seconds" = 1 ∧
      totalRise failed.trace "cursor_commit_cas_conflicts_total" = 0 ∧
      totalRise failed.trace "cursor_commits_total" = 0 := by
  intro raced failed
  constructor
  · have hrefused : raced.trace.countP isRefused = 2 := by decide +kernel
    have hvalue : raced.value =
        .ok [⟨Sample.cursor "0" "7", .committed⟩, ⟨Sample.cursor "1" "8", .outdated⟩,
          ⟨Sample.cursor "0" "6", .outdated⟩, ⟨Sample.cursor "1" "9", .outdated⟩] := by
      decide +kernel
    obtain ⟨hrequests, hstatus, hduration, hconflicts, houtcomes⟩ := commit_counts_what_happened
      (.scripted Sample.directory toString) ⟨Sample.store, 0, Sample.twoRaces⟩ Sample.coordinator
        "n" "s" Sample.interleaved
    unfold raced Sample.run at hvalue
    rw [hvalue] at hstatus houtcomes
    exact ⟨hrequests, hstatus, hduration, hconflicts.trans hrefused, houtcomes.1, houtcomes.2.1,
      houtcomes.2.2.1⟩
  · have hrefused : failed.trace.countP isRefused = 0 := by decide +kernel
    have hvalue : failed.value =
        .error (.storeUnavailable (.connection "lost") [⟨"t", "0"⟩]) := by decide +kernel
    obtain ⟨hrequests, hstatus, hduration, hconflicts, hnone⟩ := commit_counts_what_happened
      (.scripted Sample.directory toString) ⟨Sample.store, 0, Sample.lostConnection⟩
        Sample.coordinator "n" "s" Sample.interleaved
    unfold failed Sample.run at hvalue
    rw [hvalue] at hstatus hnone
    exact ⟨hrequests, hstatus, hduration, hconflicts.trans hrefused, hnone⟩

end

end Coordinator

end CursorCommit

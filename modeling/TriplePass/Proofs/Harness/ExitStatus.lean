import TriplePass.Proofs.Harness.Ending
import TriplePass.Proofs.Harness.Output
import TriplePass.Proofs.Status

/-! # The status of a run

A run ends with the status that its outcomes add up to, on either way out: a check that failed is
the first status that counts. So leaving early changes what is shown and how soon the run is over,
but neither the status nor what the children have left.
-/
namespace TriplePass

namespace Result

def statusOf (r : Result) (pass : Pass) : Option Int :=
  (r.outcome? pass).map (·.status)

theorem statusOf_congr {r r' : Result}
    (h : r'.outcomes.map Harness.plain = r.outcomes.map Harness.plain) (pass : Pass) :
    r'.statusOf pass = r.statusOf pass := by
  have hplain : ∀ r : Result, r.statusOf pass =
      ((r.outcomes.map Harness.plain).find? (·.pass == pass)).map (·.status) := by
    intro r
    rw [List.find?_map, Option.map_map]
    rfl
  rw [hplain, hplain, h]

theorem mem_of_statusOf {r : Result} {pass : Pass} {status : Int}
    (h : r.statusOf pass = some status) : ∃ o ∈ r.outcomes, o.status = status := by
  obtain ⟨o, ho, hstatus⟩ := Option.map_eq_some_iff.1 h
  exact ⟨o, List.mem_of_find?_eq_some ho, hstatus⟩

theorem isSome_statusOf (r : Result) (pass : Pass) :
    (r.statusOf pass).isSome = true ↔ pass ∈ r.outcomes.map (·.pass) := by
  simp [statusOf, outcome?, List.mem_map]

end Result

structure Launched.Sorted (l : Launched) : Prop where
  check : l.check.pass = .check
  run : ∀ r ∈ l.run, r.pass = .run
  lint : ∀ r ∈ l.lint, r.pass = .lint

namespace Harness
variable {h : Harness} {inv : Invocation} {p : Plan} {l : Launched} {check : Outcome}
  {s u v w : Session} {r : Result} {arguments : List String}

theorem launched_sorted (hplan : h.plan inv s = .ok p v) (hlaunch : h.launchAll inv p v = .ok l w) :
    l.Sorted := by
  obtain ⟨hc, _⟩ := plan_made hplan
  obtain ⟨hstarts, _⟩ := launchAll_ok hc hlaunch
  obtain ⟨hcheck, hrun, hlint⟩ := launched_passes hc (launchAll_shape hlaunch) hstarts
  exact ⟨hcheck, hrun, hlint⟩

theorem pass_of_passes {o : Option Outcome} {child : Option Running} {pass : Pass}
    (hpasses : o.toList.map (·.pass) = child.toList.map Running.pass)
    (hchild : ∀ r ∈ child, r.pass = pass) : ∀ x ∈ o, x.pass = pass := by
  intro x hx
  cases child <;> simp_all

/-- Either end reports what the children have left. -/
theorem Ended.heard (he : Ended h p l check s r u) :
    r.outcomes.map plain =
      plain check :: outcomes (l.lint.toList ++ l.run.toList) s.tree := by
  cases he with
  | early => rw [List.map_cons, plain_outcomes]
  | full _ hlint hrun =>
    rw [List.map_cons, List.map_append, hlint.plain_eq, hrun.plain_eq, outcomes_append,
      hlint.tree]

theorem Ended.outcome_check (he : Ended h p l check s r u) (hcheck : check.pass = .check) :
    r.outcome? .check = some check := by
  cases he with
  | early => exact outcome?_check hcheck rfl
  | full => exact outcome?_check hcheck rfl

theorem Ended.checked (he : Ended h p l check s r u) (hcheck : check.pass = .check) :
    r.statusOf .check = some check.status := by
  rw [Result.statusOf, he.outcome_check hcheck, Option.map_some]

theorem full_outcomes {lint run : Option Outcome} {report : Option Coverage.Report}
    {result : Result} (hcheck : check.pass = .check) (hl : l.Sorted)
    (hlint : LintStage h p l.lint s lint v) (hrun : RunStage h p check l.run v run report w)
    (houtcomes : result.outcomes = check :: (lint.toList ++ run.toList)) :
    result.outcome? .lint = lint ∧ result.outcome? .run = run :=
  outcome?_others hcheck (pass_of_passes hlint.passes hl.lint)
    (pass_of_passes hrun.passes hl.run) houtcomes

theorem Ended.aggregate (he : Ended h p l check s r u) (hcheck : check.pass = .check)
    (hl : l.Sorted) :
    r.status =
      Status.aggregate (r.statusOf .check) (r.statusOf .run) (r.statusOf .lint) := by
  rw [he.checked hcheck]
  cases he with
  | early hearly =>
    -- the check has failed, so no other status counts
    have hfailed : check.status ≠ 0 := by
      intro hzero
      simp [endsEarly, Outcome.ok, hzero] at hearly
    exact (Status.aggregate_of_check hfailed _ _).symm
  | full _ hlint hrun =>
    rw [Result.statusOf, Result.statusOf, (full_outcomes hcheck hl hlint hrun rfl).1,
      (full_outcomes hcheck hl hlint hrun rfl).2]

def leaving (h : Harness) (early : Bool) : Harness :=
  { h with settings := { h.settings with exitEarly := early } }

theorem plan_leaving (h : Harness) (early : Bool) (inv : Invocation) :
    (h.leaving early).plan inv = h.plan inv := rfl

theorem launchAll_leaving (h : Harness) (early : Bool) (inv : Invocation) (p : Plan) :
    (h.leaving early).launchAll inv p = h.launchAll inv p := rfl

/-- How the status of a run comes about, and what becomes of it. -/
structure Weighed (h : Harness) (arguments : List String) (s : Session) (r : Result)
    (u : Session) : Prop where
  aggregate : r.status =
    Status.aggregate (r.statusOf .check) (r.statusOf .run) (r.statusOf .lint)
  /-- Exactly the passes that were started have a status. -/
  launched : ∃ ev, u.milestones = s.milestones ++ ev ∧
    ∀ pass, (r.statusOf pass).isSome = true ↔ .spawned pass ∈ ev
  success : r.status = 0 ↔ r.statusOf .check = some 0 ∧
    (r.statusOf .run = none ∨ r.statusOf .run = some 0) ∧
    (r.statusOf .lint = none ∨ ∃ x ∈ [0, 1, -11, 139], r.statusOf .lint = some x)
  /-- Whether the run leaves early changes neither the status nor what the children have left. -/
  either : ∀ early r' u', (h.leaving early).run arguments s = .ok r' u' →
    r'.status = r.status ∧ r'.outcomes.map plain = r.outcomes.map plain
  /-- The command line ends with that status. -/
  exit : ∀ t env settings, Settings.load t h.workingDir h.dir env = .ok settings →
    h = CommandLine.harness h.host h.workingDir h.dir env settings → s = h.start t →
    CommandLine.run h.host h.workingDir h.dir env t arguments = ⟨.ok r.status, u⟩
  kept : (∀ o ∈ r.outcomes, -64 ≤ o.status ∧ o.status ≤ 255) →
    (CommandLine.processStatus r.status = 0 ↔ r.status = 0)

theorem run_aggregate (hr : h.run arguments s = .ok r u) :
    r.status =
      Status.aggregate (r.statusOf .check) (r.statusOf .run) (r.statusOf .lint) := by
  obtain ⟨p, v, l, w, hplan, hlaunch, _, hend⟩ := run_ok hr
  have hl := launched_sorted hplan hlaunch
  exact hend.aggregate ((l.check.outcome_pass w.tree).trans hl.check) hl

theorem isSome_statusOf_iff (hr : h.run arguments s = .ok r u) (pass : Pass) :
    (r.statusOf pass).isSome = true ↔ r.plan.isEligible pass = true := by
  have hmem : pass ∈ Pass.waitOrder := by cases pass <;> decide
  rw [Result.isSome_statusOf, (run_completed hr).outcomes, Plan.eligible, List.mem_filter]
  exact and_iff_right hmem

theorem run_launched (hr : h.run arguments s = .ok r u) :
    ∃ ev, u.milestones = s.milestones ++ ev ∧
      ∀ pass, (r.statusOf pass).isSome = true ↔ .spawned pass ∈ ev := by
  refine ⟨_, (run_completed hr).milestones, fun pass => ?_⟩
  have hmark : Event.spawned pass ∉ surveyMark r.coverage := by
    unfold surveyMark
    split <;> simp
  have hmem : pass ∈ Pass.launchOrder := by cases pass <;> decide
  rw [isSome_statusOf_iff hr]
  simp [hmark, hmem]

theorem run_success (hr : h.run arguments s = .ok r u) :
    r.status = 0 ↔ r.statusOf .check = some 0 ∧
      (r.statusOf .run = none ∨ r.statusOf .run = some 0) ∧
      (r.statusOf .lint = none ∨ ∃ x ∈ [0, 1, -11, 139], r.statusOf .lint = some x) := by
  obtain ⟨v, hplan⟩ := (run_completed hr).planned
  have hchecked : (r.statusOf .check).isSome = true :=
    (isSome_statusOf_iff hr .check).2 (plan_made hplan).1
  obtain ⟨check, hcheck⟩ := Option.isSome_iff_exists.1 hchecked
  rw [run_aggregate hr, Status.aggregate_eq_zero_iff, hcheck]
  refine and_congr (by simp) (and_congr ?_ ?_)
  · cases r.statusOf .run <;> simp
  · cases r.statusOf .lint <;> simp [Status.forgiven]

/-- Leaving early, or not, the same plan is launched and the same is heard of the children. -/
theorem run_leaving {early : Bool} {r' : Result} {u' : Session}
    (hr : h.run arguments s = .ok r u) (hr' : (h.leaving early).run arguments s = .ok r' u') :
    r'.outcomes.map plain = r.outcomes.map plain := by
  obtain ⟨p, v, l, w, hplan, hlaunch, _, hend⟩ := run_ok hr
  obtain ⟨p', v', l', w', hplan', hlaunch', _, hend'⟩ := run_ok hr'
  rw [plan_leaving, hplan] at hplan'
  cases hplan'
  rw [launchAll_leaving, hlaunch] at hlaunch'
  cases hlaunch'
  exact hend'.heard.trans hend.heard.symm

theorem run_kept (hr : h.run arguments s = .ok r u)
    (hrange : ∀ o ∈ r.outcomes, -64 ≤ o.status ∧ o.status ≤ 255) :
    CommandLine.processStatus r.status = 0 ↔ r.status = 0 := by
  have hstatus : r.status = 0 ∨ ∃ o ∈ r.outcomes, o.status = r.status := by
    rcases Status.aggregate_eq (r.statusOf .check) (r.statusOf .run) (r.statusOf .lint) with
      hzero | hmem
    · exact .inl ((run_aggregate hr).trans hzero)
    · right
      rw [← run_aggregate hr] at hmem
      simp only [List.mem_cons, List.not_mem_nil, or_false] at hmem
      rcases hmem with hmem | hmem | hmem <;> exact Result.mem_of_statusOf hmem.symm
  rcases hstatus with hzero | ⟨o, ho, hstatus⟩
  · rw [hzero]
    decide
  · obtain ⟨hlow, hhigh⟩ := hrange o ho
    rw [hstatus] at hlow hhigh
    exact Status.processStatus_eq_zero_iff hlow hhigh

/-- Whatever a run has gone through, its status is what its outcomes add up to. -/
theorem run_status (h : Harness) (arguments : List String) (s : Session) :
    match h.run arguments s with
    | .ok r u => Weighed h arguments s r u
    | .error _ _ => True := by
  split
  case h_2 => trivial
  next r u hr =>
  exact {
    aggregate := run_aggregate hr
    launched := run_launched hr
    success := run_success hr
    either := by
      intro early r' u' hr'
      have hheard := run_leaving hr hr'
      refine ⟨?_, hheard⟩
      rw [run_aggregate hr', run_aggregate hr, Result.statusOf_congr hheard,
        Result.statusOf_congr hheard, Result.statusOf_congr hheard]
    exit := by
      intro t env settings hload hh hs
      rw [CommandLine.run, hload]
      dsimp only
      rw [← hh, CommandLine.runWith, ← hs, hr]
    kept := run_kept hr
  }

end Harness
end TriplePass

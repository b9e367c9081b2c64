import TriplePass.Proofs.Harness.Finishing

/-! # The lifecycle of the tasks of a run

Whatever the arguments, the settings, the files, and the behaviour of the children: a run that
returns has started every eligible pass once and then waited for each of them once, and it looks
at the listings only after that. A run that ends because the host refuses a pass has waited for
all that were started before. A run that is refused while it is planned has done nothing.
-/
namespace TriplePass.Harness
variable {h : Harness} {inv : Invocation} {p : Plan} {l : Launched} {s u v w : Session}
  {e : Failure}

theorem LintStage.milestones {lint : Option Running} {o : Option Outcome}
    (hl : LintStage h p lint s o u) :
    u.milestones = s.milestones ++ lint.toList.map fun r => .waited r.pass := by
  cases hl <;> simp

theorem LintStage.passes {lint : Option Running} {o : Option Outcome}
    (hl : LintStage h p lint s o u) :
    o.toList.map (·.pass) = lint.toList.map Running.pass := by
  cases hl with
  | absent => rfl
  | shown hreport => simp [hreport.pass]

@[simp] theorem milestones_runShown (h : Harness) (check : Outcome) (r : Running) (s : Session) :
    (h.runShown check r s).milestones = s.milestones ++ [.waited r.pass] := by
  simp [runShown]

def surveyMark (report : Option Coverage.Report) : List Event :=
  if report.isSome then [.surveyed] else []

theorem RunStage.milestones {check : Outcome} {run : Option Running} {o : Option Outcome}
    {report : Option Coverage.Report} (hr : RunStage h p check run s o report u) :
    u.milestones = s.milestones ++ (run.toList.map fun r => .waited r.pass) ++
      surveyMark report := by
  cases hr with
  | absent => simp [surveyMark]
  | unsurveyed => simp [surveyMark]
  | surveyed => simp [surveyMark, Event.isMilestone, List.filter]

def Surveyed (h : Harness) (sources : List Source) (report : Option Coverage.Report)
    (t t' : FileTree) : Prop :=
  match report with
  | none => t' = t
  | some report => Coverage.run h.workingDir h.dir sources t = .ok report t'

theorem RunStage.surveyed_tree {check : Outcome} {run : Option Running} {o : Option Outcome}
    {report : Option Coverage.Report} (hr : RunStage h p check run s o report u) :
    Surveyed h p.sources report (Running.settled run.toList s.tree) u.tree := by
  cases hr with
  | absent => rfl
  | unsurveyed => rfl
  | surveyed _ hrun => exact hrun

theorem RunStage.passes {check : Outcome} {run : Option Running} {o : Option Outcome}
    {report : Option Coverage.Report} (hr : RunStage h p check run s o report u) :
    o.toList.map (·.pass) = run.toList.map Running.pass := by
  cases hr with
  | absent => rfl
  | unsurveyed => simp [Running.outcome_pass]
  | surveyed => simp [Running.outcome_pass]

structure Completed (h : Harness) (inv : Invocation) (s : Session) (r : Result) (u : Session) :
    Prop where
  planned : ∃ v, h.plan inv s = .ok r.plan v
  /-- All starts, then all waits, then at most one look at the listings. -/
  milestones : u.milestones = s.milestones ++
    ((Pass.launchOrder.filter r.plan.isEligible).map .spawned ++
      r.plan.eligible.map .waited ++ surveyMark r.coverage)
  outcomes : r.outcomes.map (·.pass) = r.plan.eligible
  /-- Until every child has ended only the children change files. -/
  files : ∃ (l : Launched) (t : FileTree),
    Starts h inv r.plan s.tree (Pass.launchOrder.filter r.plan.isEligible) l.started t ∧
    Surveyed h r.plan.sources r.coverage (Running.settled l.awaited t) u.tree

/-- How the tasks have fared when the host refuses one of them. -/
structure Abandoned (h : Harness) (inv : Invocation) (s : Session) (command : List String)
    (cause : SystemError) (p : Plan) (before : List Pass) (pass : Pass) (u : Session) :
    Prop where
  planned : ∃ v, h.plan inv s = .ok p v
  order : ∃ after, Pass.launchOrder.filter p.isEligible = before ++ pass :: after
  milestones : u.milestones = s.milestones ++ (before.map .spawned ++ before.map .waited)
  /-- No child's output is passed on, and none is written by a child either. -/
  output : u.output = s.output
  /-- Only the children that were started have changed files. -/
  files : ∃ rs t task errno, Starts h inv p s.tree before rs t ∧
    Task.build pass inv p h.settings h.dir h.environment = .ok task ∧
    h.host.spawn task (task.environment h.environment) t = .error errno ∧
    command = task.command ∧ cause = .ofErrno errno ∧ u.tree = Running.settled rs t

/-- A plan always has a check, and captures the output of its tasks unless the check is alone. -/
theorem plan_made (hp : h.plan inv s = .ok p v) :
    p.check = true ∧ p.redirection = (if p.run || p.lint then .capture else .inherit) ∧
      v.tree = s.tree ∧ v.milestones = s.milestones ∧ v.output = s.output := by
  obtain ⟨resolver, hmake, rfl⟩ := plan_ok hp
  obtain ⟨sources, _, _, hmade, _⟩ := Plan.ofInvocation_ok hmake
  refine ⟨hmade.check, hmade.redirection, rfl, ?_, ?_⟩
  · simp [debugged, Session.milestones]
  · simp [debugged, Session.output]

theorem captured_of_before {before after : List Pass} {pass : Pass} {rs : List Running}
    {t t' : FileTree} (hc : p.check = true)
    (hred : p.redirection = if p.run || p.lint then .capture else .inherit)
    (horder : Pass.launchOrder.filter p.isEligible = before ++ pass :: after)
    (hs : Starts h inv p t before rs t') : ∀ r ∈ rs, r.isCaptured = true := by
  cases hs with
  | nil => simp
  | cons hb hspawn hrest =>
    refine (Starts.cons hb hspawn hrest).captured ?_
    rw [launchOrder_eligible hc] at horder
    cases hrun : p.run <;> cases hlint : p.lint <;> simp_all

theorem finishEarly_completed {check : Outcome}
    (hcheck : check.pass = l.check.pass) (hpasses : l.awaited.map Running.pass = p.eligible)
    {r : Result} (hf : h.finishEarly p l check s = .ok r u) :
    r.plan = p ∧ r.coverage = none ∧ r.outcomes.map (·.pass) = p.eligible ∧
      u.milestones =
        s.milestones ++ (l.lint.toList ++ l.run.toList).map (fun r => .waited r.pass) ∧
      u.tree = Running.settled (l.lint.toList ++ l.run.toList) s.tree := by
  rw [finishEarly_eq] at hf
  cases hf
  refine ⟨rfl, rfl, ?_, ?_, ?_⟩
  · rw [List.map_cons, outcomes_passes, hcheck]
    exact hpasses
  · rw [milestones_finishedEach]
    simp [cutShort]
  · rw [tree_finishedEach]
    rfl

theorem finishAll_completed {check : Outcome}
    (hcheck : check.pass = l.check.pass) (hpasses : l.awaited.map Running.pass = p.eligible)
    {r : Result} (hf : h.finishAll p l check s = .ok r u) :
    r.plan = p ∧ r.outcomes.map (·.pass) = p.eligible ∧
      u.milestones =
        s.milestones ++ (l.lint.toList ++ l.run.toList).map (fun r => .waited r.pass) ++
          surveyMark r.coverage ∧
      Surveyed h p.sources r.coverage
        (Running.settled (l.lint.toList ++ l.run.toList) s.tree) u.tree := by
  obtain ⟨lint, v, run, report, w, hlint, hrun, rfl, rfl⟩ := finishAll_ok hf
  refine ⟨rfl, ?_, ?_, ?_⟩
  · simp only [List.map_cons, List.map_append, hlint.passes, hrun.passes, hcheck]
    rw [← hpasses]
    simp [Launched.awaited]
  · simp only [Session.milestones_add, hrun.milestones, hlint.milestones]
    simp [statusTold, debugged]
  · have hsurveyed := hrun.surveyed_tree
    rw [hlint.tree] at hsurveyed
    simpa [Running.settled] using hsurveyed

theorem run_completed {arguments : List String} {r : Result}
    (hr : h.run arguments s = .ok r u) :
    Completed h (Invocation.ofArguments arguments) s r u := by
  unfold run at hr
  obtain ⟨p, v, hplan, hr⟩ := Effect.bind_ok hr
  obtain ⟨hc, _, htree, hmile, _⟩ := plan_made hplan
  obtain ⟨l, w, hlaunch, hr⟩ := Effect.bind_ok hr
  obtain ⟨hstarts, hspawned, _⟩ := launchAll_ok hc hlaunch
  have hpasses := awaited_passes hc (launchAll_shape hlaunch) hstarts
  obtain ⟨check, x, hfinish, hr⟩ := Effect.bind_ok hr
  obtain ⟨_, rfl, rfl⟩ := finishCheck_ok hfinish
  have hcheck := l.check.outcome_pass w.tree
  -- both ways out wait for the lint and then for the run
  have hfinish : r.plan = p ∧ r.outcomes.map (·.pass) = p.eligible ∧
      u.milestones = w.milestones ++ l.awaited.map (fun r => .waited r.pass) ++
        surveyMark r.coverage ∧
      Surveyed h p.sources r.coverage (Running.settled l.awaited w.tree) u.tree := by
    split at hr
    · obtain ⟨hp, hcoverage, houtcomes, hwaited, hleft⟩ :=
        finishEarly_completed hcheck hpasses hr
      refine ⟨hp, houtcomes, ?_, ?_⟩
      · rw [hwaited, hcoverage]
        simp [surveyMark, Launched.awaited]
      · rw [hcoverage]
        exact hleft
    · obtain ⟨hp, houtcomes, hwaited, hsurveyed⟩ := finishAll_completed hcheck hpasses hr
      refine ⟨hp, houtcomes, ?_, hsurveyed⟩
      rw [hwaited]
      simp [Launched.awaited]
  obtain ⟨rfl, houtcomes, hwaited, hsurveyed⟩ := hfinish
  refine ⟨⟨v, hplan⟩, ?_, houtcomes, l, w.tree, htree ▸ hstarts, hsurveyed⟩
  rw [hwaited, hspawned, hmile, ← hpasses]
  simp

/-- Behind the launch no error is reported any more. -/
theorem not_reported_behind_launch {reason : HarnessError}
    (hr : (h.finishCheck l.check >>= fun check =>
      if !check.ok && h.settings.exitEarly then h.finishEarly p l check
      else h.finishAll p l check) s = .error (.harness reason) u) : False := by
  rcases Effect.bind_error hr with hcheck | ⟨check, w, _, hr⟩
  · cases (finishCheck_error hcheck).1
  · split at hr
    · rw [finishEarly_eq] at hr
      cases hr
    · exact (finishAll_error hr).not_harness

theorem run_abandoned {arguments : List String} {command : List String} {cause : SystemError}
    (hr : h.run arguments s = .error (.harness (.launch command cause)) u) :
    ∃ p before pass,
      Abandoned h (Invocation.ofArguments arguments) s command cause p before pass u := by
  unfold run at hr
  rcases Effect.bind_error hr with hplan | ⟨p, v, hplan, hr⟩
  · obtain ⟨resolver, hmake, _⟩ := plan_error hplan
    rcases Plan.ofInvocation_error hmake with ⟨_, _, hrefused⟩ | ⟨hnul, _⟩
    · cases hrefused
    · cases hnul
  obtain ⟨hc, hred, htree, hmile, hout⟩ := plan_made hplan
  rcases Effect.bind_error hr with hlaunch | ⟨l, w, _, hr⟩
  · rcases launchAll_error hc hlaunch with ⟨_, _, hunfit⟩ | ⟨before, pass, after, rs, t, task, errno,
      horder, hstarts, hbuild, hspawn, heq, x, rfl, hspawned, hquiet, rfl⟩
    · cases hunfit
    · cases heq
      refine ⟨p, before, pass, ⟨v, hplan⟩, ⟨after, horder⟩, ?_, ?_, rs, x.tree, task, errno,
        htree ▸ hstarts, hbuild, hspawn, rfl, rfl, Running.tree_awaitedAll rs x⟩
      · rw [Running.milestones_awaitedAll, hspawned, hmile, ← hstarts.passes]
        simp
      · rw [Running.output_awaitedAll (captured_of_before hc hred horder hstarts), hquiet, hout]
  · exact absurd hr not_reported_behind_launch

/-- What a plan is refused for cannot come up later. -/
theorem run_refused {arguments : List String} {reason : HarnessError}
    (hr : h.run arguments s = .error (.harness reason) u)
    (hlaunch : ∀ command cause, reason ≠ .launch command cause) :
    u.tree = s.tree ∧ u.events = s.events := by
  unfold run at hr
  rcases Effect.bind_error hr with hplan | ⟨p, v, hplan, hr⟩
  · obtain ⟨resolver, _, rfl⟩ := plan_error hplan
    exact ⟨rfl, rfl⟩
  obtain ⟨hc, _⟩ := plan_made hplan
  rcases Effect.bind_error hr with hl | ⟨l, w, _, hr⟩
  · rcases launchAll_error hc hl with ⟨_, _, hunfit⟩ | ⟨_, _, _, _, _, task, errno, _, _, _, _, heq, _⟩
    · cases hunfit
    · cases heq
      exact absurd rfl (hlaunch _ _)
  · exact absurd hr not_reported_behind_launch

theorem run_tasks (h : Harness) (arguments : List String) (s : Session) :
    match h.run arguments s with
    | .ok r u => Completed h (Invocation.ofArguments arguments) s r u
    | .error (.harness (.launch command cause)) u =>
      ∃ p before pass,
        Abandoned h (Invocation.ofArguments arguments) s command cause p before pass u
    | .error (.harness (.selfRecursion _)) u => u.tree = s.tree ∧ u.events = s.events
    | .error (.harness (.programNotFound _)) u => u.tree = s.tree ∧ u.events = s.events
    | .error _ _ => True := by
  split
  next r u hr => exact run_completed hr
  next command cause u hr => exact run_abandoned hr
  next reason u hr => exact run_refused hr (by simp)
  next names u hr => exact run_refused hr (by simp)
  next => trivial

end TriplePass.Harness

import TriplePass.Proofs.Harness.ExitStatus
import TriplePass.Proofs.Harness.Relinting

/-! # An account of a run without its lint

What a run returns of its check and of its run, whether it looks at the listings, what it finds
there and which files it leaves is read off the compilers alone, as long as the lint changes no
files. Two runs with the same compilers have the same account.
-/
namespace TriplePass.Harness
variable {h : Harness} {inv : Invocation} {p : Plan} {l : Launched} {check : Outcome}
  {s u v w : Session} {r : Result} {t : FileTree} {e : Failure}

/-! ### The end of one run -/

def surveyIf (h : Harness) (p : Plan) (wanted : Bool) : Coverage.Survey (Option Coverage.Report) :=
  if wanted then some <$> Coverage.run h.workingDir h.dir p.sources else pure none

def looks (h : Harness) (p : Plan) (check : Outcome) (run : Option Int) : Bool :=
  !h.endsEarly check && Coverage.shouldProcess p.run p.coverage run

theorem outcomes_toList (o : Option Running) (t : FileTree) :
    outcomes o.toList t = (o.map (·.outcome t)).toList := by
  cases o <;> rfl

theorem RunStage.outcome_eq {run : Option Running} {o : Option Outcome}
    {report : Option Coverage.Report} (hr : RunStage h p check run s o report u) :
    o = run.map (·.outcome s.tree) := by
  cases hr <;> rfl

theorem RunStage.surveyed_eq {run : Option Running} {o : Option Outcome}
    {report : Option Coverage.Report} (hr : RunStage h p check run s o report u) :
    h.surveyIf p (Coverage.shouldProcess p.run p.coverage (o.map (·.status)))
      (Running.settled run.toList s.tree) = .ok report u.tree := by
  cases hr with
  | absent =>
    have hunwanted : Coverage.shouldProcess p.run p.coverage none = false := Bool.and_false _
    rw [Option.map_none, hunwanted]
    rfl
  | unsurveyed hskipped =>
    rw [Option.map_some, hskipped]
    rfl
  | surveyed hwanted hsurvey =>
    rw [Option.map_some, hwanted]
    exact Effect.map_of_ok hsurvey some

theorem Ended.outcome_run (he : Ended h p l check s r u) (hcheck : check.pass = .check)
    (hl : l.Sorted) :
    r.outcome? .run = l.run.map (·.outcome (Running.settled l.lint.toList s.tree)) := by
  have hpass : ∀ (child : Option Running) (pass : Pass) (t : FileTree),
      (∀ r ∈ child, r.pass = pass) → ∀ o ∈ child.map (·.outcome t), o.pass = pass := by
    intro child pass t hchild o ho
    obtain ⟨r, hr, rfl⟩ := Option.map_eq_some_iff.1 ho
    rw [r.outcome_pass, hchild r hr]
  cases he with
  | early =>
    have hothers : outcomes (l.lint.toList ++ l.run.toList) s.tree =
        (l.lint.map (·.outcome s.tree)).toList ++
          (l.run.map (·.outcome (Running.settled l.lint.toList s.tree))).toList := by
      rw [outcomes_append, outcomes_toList, outcomes_toList]
    exact (outcome?_others hcheck (hpass _ _ _ hl.lint) (hpass _ _ _ hl.run)
      (congrArg (check :: ·) hothers)).2
  | full _ hlint hrun =>
    rw [← hlint.tree, ← hrun.outcome_eq]
    exact (full_outcomes hcheck hl hlint hrun rfl).2

theorem Ended.surveyed (he : Ended h p l check s r u) (hcheck : check.pass = .check)
    (hl : l.Sorted) :
    h.surveyIf p (h.looks p check (r.statusOf .run))
      (Running.settled (l.lint.toList ++ l.run.toList) s.tree) = .ok r.coverage u.tree := by
  rw [Result.statusOf, he.outcome_run hcheck hl, looks]
  cases he with
  | early hearly =>
    rw [hearly, tree_finishedEach]
    rfl
  | full hlate hlint hrun =>
    have hsurveyed := hrun.surveyed_eq
    rw [hrun.outcome_eq, hlint.tree] at hsurveyed
    rw [hlate, Bool.not_false, Bool.true_and, Running.settled_append]
    exact hsurveyed

theorem RunStage.printed {run : Option Running} {o : Option Outcome}
    {report : Option Coverage.Report} (hr : RunStage h p check run s o report u) :
    (∀ child ∈ run, h.takesFrom child (reconciled (some check) (child.outcome s.tree)) = true) ∧
      ∀ found ∈ report, ∀ d ∈ found.diagnostics, h.takes d.render = true := by
  cases hr with
  | absent => exact ⟨by simp, by simp⟩
  | unsurveyed _ htaken => exact ⟨by simpa using htaken, by simp⟩
  | surveyed _ _ htaken hnotices => exact ⟨by simpa using htaken, by simpa using hnotices⟩

theorem Ended.printed (he : Ended h p l check s r u) :
    (h.endsEarly check = false → ∀ child ∈ l.run, h.takesFrom child
      (reconciled (some check) (child.outcome (Running.settled l.lint.toList s.tree))) = true) ∧
      ∀ found ∈ r.coverage, ∀ d ∈ found.diagnostics, h.takes d.render = true := by
  cases he with
  | early hearly =>
    refine ⟨fun hlate => ?_, by simp⟩
    cases hearly.symm.trans hlate
  | full _ hlint hrun =>
    obtain ⟨hchild, hnotices⟩ := hrun.printed
    rw [hlint.tree] at hchild
    exact ⟨fun _ => hchild, hnotices⟩

theorem conclude_error (hc : h.conclude p l check s = .error e u) :
    h.endsEarly check = false ∧ Unfinished h p l check s.tree u.tree e := by
  unfold conclude at hc
  split at hc
  next =>
    rw [finishEarly_eq] at hc
    cases hc
  next hlate => exact ⟨Bool.eq_false_iff.2 hlate, finishAll_error hc⟩

/-! ### The account -/

structure Printed (h : Harness) (compilers : Running × Option Running) (t : FileTree)
    (r : Result) : Prop where
  check : h.takesFrom compilers.1 (compilers.1.outcome t).text = true
  run : h.endsEarly (compilers.1.outcome t) = false → ∀ child ∈ compilers.2, h.takesFrom child
    (reconciled (some (compilers.1.outcome t)) (child.outcome (compilers.1.leaves t))) = true
  notices : ∀ report ∈ r.coverage, ∀ d ∈ report.diagnostics, h.takes d.render = true

/-- What is returned of a check and a run that were started in given files, and the files that are
left. -/
structure Accounted (h : Harness) (p : Plan) (compilers : Running × Option Running)
    (t : FileTree) (r : Result) (u : Session) : Prop where
  planned : r.plan = p
  check : r.outcome? .check = some (compilers.1.outcome t)
  run : r.outcome? .run = compilers.2.map (·.outcome (compilers.1.leaves t))
  surveyed : h.surveyIf p (h.looks p (compilers.1.outcome t) (r.statusOf .run))
    (Running.settled compilers.2.toList (compilers.1.leaves t)) = .ok r.coverage u.tree
  printed : Printed h compilers t r

/-- The lint that a run launches changes no files, neither when it is started nor until it has
ended behind the check. -/
def LintReadsOnly (h : Harness) (inv : Invocation) (s : Session) : Prop :=
  ∀ p v compilers w l x, h.plan inv s = .ok p v → h.launchCompilers inv p v = .ok compilers w →
    h.launchLint inv p compilers w = .ok l x →
    x.tree = w.tree ∧
      Running.settled l.lint.toList (l.check.leaves x.tree) = l.check.leaves x.tree

theorem Ended.accounted {compilers : Running × Option Running}
    (he : Ended h p l (l.check.outcome w.tree) (h.checked l w) r u) (hl : l.Sorted)
    (htaken : h.takesFrom l.check (l.check.outcome w.tree).text = true)
    (hcheck : l.check = compilers.1) (hrun : l.run = compilers.2)
    (hlint : Running.settled l.lint.toList (l.check.leaves w.tree) = l.check.leaves w.tree) :
    Accounted h p compilers w.tree r u := by
  obtain ⟨first, others⟩ := compilers
  dsimp only at hcheck hrun
  subst hcheck hrun
  have hpass : (l.check.outcome w.tree).pass = .check :=
    (l.check.outcome_pass w.tree).trans hl.check
  have hsettled : Running.settled (l.lint.toList ++ l.run.toList) (l.check.leaves w.tree) =
      Running.settled l.run.toList (l.check.leaves w.tree) := by
    rw [Running.settled_append, hlint]
  have hran := he.outcome_run hpass hl
  have hsurveyed := he.surveyed hpass hl
  obtain ⟨hprinted, hnotices⟩ := he.printed
  rw [tree_checked, hlint] at hran hprinted
  rw [tree_checked, hsettled] at hsurveyed
  exact ⟨he.plan_eq, he.outcome_check hpass, hran, hsurveyed, htaken, hprinted, hnotices⟩

/-! ### The place of the lint among the events -/

def lintSaid (h : Harness) (p : Plan) (o : Outcome) : List Event :=
  Run.forwarded .stdout (Lint.withoutNoise o.stdout) ++
    Run.forwarded .stderr (Lint.withoutNoise o.stderr) ++ h.crashWarned p o

def lintSegment (h : Harness) (r : Result) : List Event :=
  if (r.outcome? .check).any h.endsEarly then []
  else (r.outcome? .lint).elim [] (h.lintSaid r.plan)

def notice (h : Harness) (check : Outcome) : List Event :=
  if h.endsEarly check then h.cutShort check else []

def beforeLint (h : Harness) (check : Running) (t : FileTree) : List Event :=
  [.spawned .lint] ++ check.waiting t ++ shown check (check.outcome t).text ++
    h.notice (check.outcome t) ++ [.waited .lint]

def afterLint (h : Harness) (check : Outcome) (run : Option Running) (t : FileTree)
    (report : Option Coverage.Report) : List Event :=
  run.elim [] fun r => r.waiting t ++
    if h.endsEarly check then []
    else shown r (reconciled (some check) (r.outcome t)) ++
      report.elim [] fun found => .surveyed :: h.surveyTold found

theorem debugged_quiet (hd : h.console.debug = false) (message : String) :
    h.debugged message = [] := by
  rw [debugged, Console.debugText, hd]
  rfl

theorem finished_quiet (hd : h.console.debug = false) (child : Running) (s : Session) :
    h.finished child s = child.awaited s := by
  have hexit := debugged_quiet hd ("exit kind=" ++ (child.outcome s.tree).pass.name ++
    " status=" ++ toString (child.outcome s.tree).status)
  exact (congrArg (child.awaited s).add hexit).trans (Session.add_nil _)

theorem events_awaited (child : Running) (s : Session) :
    (child.awaited s).events = s.events ++ child.waiting s.tree := rfl

theorem waiting_captured {child : Running} (hc : child.isCaptured = true) (t : FileTree) :
    child.waiting t = [.waited child.pass] := if_pos hc

theorem LintStage.events {lint : Running} {o : Option Outcome}
    (hl : LintStage h p (some lint) s o u) (hd : h.console.debug = false)
    (hc : lint.isCaptured = true) :
    u.events = s.events ++ [.waited lint.pass] ++ o.elim [] (h.lintSaid p) := by
  cases hl with
  | @shown _ _ o messages hreport =>
    rw [finished_quiet hd, lintShown, if_pos hc, lintTold, debugged_quiet hd,
      hreport.joined hc, hreport.joined hc, Session.events_add, events_awaited,
      waiting_captured hc, List.nil_append, Option.elim_some, lintSaid]
    rfl

theorem RunStage.events {run : Option Running} {o : Option Outcome}
    {report : Option Coverage.Report} (hr : RunStage h p check run s o report u)
    (hd : h.console.debug = false) (hlate : h.endsEarly check = false) :
    u.events = s.events ++ h.afterLint check run s.tree report := by
  have hrun : ∀ r : Running, (h.runShown check r s).events =
      s.events ++ (r.waiting s.tree ++ shown r (reconciled (some check) (r.outcome s.tree))) := by
    intro r
    rw [runShown, finished_quiet hd, Session.events_add, events_awaited, List.append_assoc]
  cases hr with
  | absent => exact (List.append_nil _).symm
  | unsurveyed =>
    rw [hrun, afterLint, hlate]
    simp
  | surveyed =>
    rw [Session.events_add]
    change ((h.runShown check _ s).events ++ [.surveyed]) ++ _ = _
    rw [hrun, afterLint, hlate]
    simp

theorem Ended.events {lint : Running} (he : Ended h p l check s r u)
    (hd : h.console.debug = false) (hcheck : check.pass = .check) (hl : l.Sorted)
    (hlint : l.lint = some lint) (hc : lint.isCaptured = true) :
    u.events = s.events ++ h.notice check ++ [.waited .lint] ++ h.lintSegment r ++
      h.afterLint check l.run (lint.leaves s.tree) r.coverage := by
  have hpass : lint.pass = .lint := hl.lint lint hlint
  rw [lintSegment, he.outcome_check hcheck, Option.any_some]
  cases he with
  | early hearly =>
    have hfinished : ∀ (child : Running) (s : Session), (h.finished child s).events =
        s.events ++ child.waiting s.tree := by
      intro child s
      rw [finished_quiet hd, events_awaited]
    rw [notice, if_pos hearly, if_pos hearly, hlint, afterLint, hearly]
    cases hrun : l.run with
    | none =>
      change (h.finished lint (s.add (h.cutShort check))).events = _
      rw [hfinished, waiting_captured hc, hpass]
      simp
    | some run =>
      change (h.finished run (h.finished lint (s.add (h.cutShort check)))).events = _
      have htree : (h.finished lint (s.add (h.cutShort check))).tree = lint.leaves s.tree := rfl
      rw [hfinished, hfinished, waiting_captured hc, hpass, htree]
      simp
  | full hlate hlinted hran =>
    rw [notice, if_neg (Bool.eq_false_iff.1 hlate), if_neg (Bool.eq_false_iff.1 hlate),
      (full_outcomes hcheck hl hlinted hran rfl).1, statusTold, debugged_quiet hd,
      Session.add_nil, hran.events hd hlate]
    have htree := hlinted.tree
    rw [hlint] at hlinted htree
    rw [hlinted.events hd hc, hpass, htree, List.append_nil]
    rfl

/-! ### One run, from its launch to its account -/

theorem run_taken {arguments : List String} (hr : h.run arguments s = .ok r u) :
    ∃ v compilers w l x, h.plan (Invocation.ofArguments arguments) s = .ok r.plan v ∧
      h.launchCompilers (Invocation.ofArguments arguments) r.plan v = .ok compilers w ∧
      h.launchLint (Invocation.ofArguments arguments) r.plan compilers w = .ok l x ∧
      l.Sorted ∧ h.takesFrom l.check (l.check.outcome x.tree).text = true ∧
      Ended h r.plan l (l.check.outcome x.tree) (h.checked l x) r u := by
  obtain ⟨p, v, l, x, hplan, hlaunch, htaken, hend⟩ := run_ok hr
  have hl := launched_sorted hplan hlaunch
  rw [launchAll_split] at hlaunch
  obtain ⟨compilers, w, hcompilers, hlint⟩ := Effect.bind_ok hlaunch
  obtain rfl := hend.plan_eq
  exact ⟨v, compilers, w, l, x, hplan, hcompilers, hlint, hl, htaken, hend⟩

/-- A run whose lint changes no files is accounted for by its compilers; with a captured lint its
events are those before the lint's segment, the segment, and those behind it. -/
theorem run_accounted {arguments : List String} (hr : h.run arguments s = .ok r u)
    (hreads : LintReadsOnly h (Invocation.ofArguments arguments) s) :
    ∃ v compilers w, h.plan (Invocation.ofArguments arguments) s = .ok r.plan v ∧
      h.launchCompilers (Invocation.ofArguments arguments) r.plan v = .ok compilers w ∧
      Accounted h r.plan compilers w.tree r u ∧
      (h.console.debug = false → r.plan.lint = true →
        u.events = (w.events ++ h.beforeLint compilers.1 w.tree) ++ h.lintSegment r ++
          h.afterLint (compilers.1.outcome w.tree) compilers.2 (compilers.1.leaves w.tree)
            r.coverage) := by
  obtain ⟨v, compilers, w, l, x, hplan, hcompilers, hlaunch, hl, htaken, hend⟩ := run_taken hr
  obtain ⟨htree, hsettled⟩ := hreads _ _ _ _ _ _ hplan hcompilers hlaunch
  obtain ⟨hcheck, hrun, hlint, _⟩ := launchLint_ok hlaunch
  refine ⟨v, compilers, w, hplan, hcompilers, ?_, ?_⟩
  · rw [← htree]
    exact hend.accounted hl htaken hcheck hrun hsettled
  · intro hd hp
    obtain ⟨lint, hsome, hbegins⟩ := hlint hp
    have hcaptured : lint.isCaptured = true := by
      obtain ⟨_, hredirection, _⟩ := plan_made hplan
      obtain ⟨_, _, hbuilt⟩ := build_ok hbegins.built.1
      rw [hp, Bool.or_true, if_pos rfl] at hredirection
      rw [Running.isCaptured, hbuilt, hredirection]
      rfl
    have hstarted : x.events = w.events ++ [.spawned .lint] := by
      have hsession := congrArg Session.events hbegins.session
      rw [begun, announced, debugged_quiet hd, Session.add_nil] at hsession
      exact hl.lint lint hsome ▸ hsession
    have hchecked : (h.checked l x).events =
        x.events ++ l.check.waiting x.tree ++ shown l.check (l.check.outcome x.tree).text := by
      rw [checked, finished_quiet hd, Session.events_add, events_awaited]
    have hlintLeaves : lint.leaves (l.check.leaves x.tree) = l.check.leaves x.tree := by
      rw [hsome] at hsettled
      exact hsettled
    rw [hend.events hd ((l.check.outcome_pass x.tree).trans hl.check) hl hsome hcaptured,
      tree_checked, hlintLeaves, hchecked, hstarted, beforeLint, htree, hcheck, hrun]
    simp only [List.append_assoc]

end TriplePass.Harness

import TriplePass.Proofs.Coverage.Grouping
import TriplePass.Proofs.Harness.Accounting
import TriplePass.Proofs.Plan.Coherence

/-! # When a run reports on its listings

A run looks at the listings only if the tests ran, and the tests run only if every source has some
and none is a program of its own. These are the sources that a survey does not skip: the report of a
run holds no notice, only the lines of its sources. A run without a report leaves the files to its
children.
-/
namespace TriplePass

/-! ### The sources of a plan -/

namespace Source
variable {t : FileTree} {workingDir : Place} {dir : Path} {arg : String} {x : Source}

/-- What is read under a path declares no entry point and has a test. -/
def Runnable (t : FileTree) (workingDir : Place) (dir : Path) (path : String) : Prop :=
  ∃ content, t.read workingDir (dir.join (Path.ofString path)) = .ok content ∧
    declaresEntryPoint (Text.ofContent content) = false ∧
    hasTestBlock (Text.ofContent content) = true

theorem classify_eq_some (h : classify? t workingDir dir arg = some x) :
    x = ofContent arg (t.read workingDir (dir.join (Path.ofString arg))) := by
  unfold classify? at h
  dsimp only at h
  split at h
  · cases h
  · exact (Option.some.inj h).symm

theorem path_of_classify (h : classify? t workingDir dir arg = some x) : x.path = arg := by
  rw [classify_eq_some h]
  cases t.read workingDir (dir.join (Path.ofString arg)) <;> rfl

theorem skipsRun_eq_false : x.skipsRun = false ↔ x.isEntryPoint = false ∧ x.hasTests = true := by
  rw [skipsRun, Bool.or_eq_false_iff, Bool.not_eq_false']

/-- A source that cannot be read has no tests. -/
theorem runnable_of_classify (h : classify? t workingDir dir arg = some x)
    (hx : x.skipsRun = false) : Runnable t workingDir dir arg := by
  obtain ⟨hentry, htests⟩ := skipsRun_eq_false.1 hx
  have hread := classify_eq_some h
  cases hcontent : t.read workingDir (dir.join (Path.ofString arg)) with
  | error e =>
    rw [hread, hcontent] at htests
    cases htests
  | ok content =>
    rw [hcontent] at hread
    subst hread
    exact ⟨content, hcontent, hentry, htests⟩

theorem classified {args : List String} {sources : List Source}
    (h : args.mapM (classify? t workingDir dir) = some sources) :
    sources.map (·.path) = args ∧
      ∀ x ∈ sources, classify? t workingDir dir x.path = some x := by
  induction args generalizing sources with
  | nil =>
    cases h
    exact ⟨rfl, fun _ hx => absurd hx List.not_mem_nil⟩
  | cons arg rest ih =>
    rw [List.mapM_cons] at h
    obtain ⟨x, hx, h⟩ := Option.bind_eq_some_iff.1 h
    obtain ⟨more, hmore, h⟩ := Option.bind_eq_some_iff.1 h
    cases h
    obtain ⟨hpaths, hrest⟩ := ih hmore
    have hpath := path_of_classify hx
    refine ⟨by rw [List.map_cons, hpath, hpaths], List.forall_mem_cons.2 ⟨?_, hrest⟩⟩
    rw [hpath]
    exact hx

end Source

namespace Invocation

def AsksForCoverage (inv : Invocation) : Prop :=
  ∃ arg ∈ inv.compilerArguments,
    arg = coverageSwitch ∨ Text.startsWith arg (coverageSwitch ++ "=") = true

theorem requestsCoverage_iff {inv : Invocation} :
    inv.requestsCoverage = true ↔ inv.AsksForCoverage := by
  have hplain : isSwitch coverageSwitch = true := by decide
  have hthreshold : ∀ arg, Text.startsWith arg (coverageSwitch ++ "=") = true →
      isSwitch arg = true := by
    intro arg harg
    simp only [Text.startsWith, isSwitch, List.isPrefixOf_iff_prefix] at harg ⊢
    exact List.IsPrefix.trans (by decide) harg
  simp only [AsksForCoverage, requestsCoverage, hasSwitch, hasSwitchFrom, switches,
    Bool.or_eq_true, List.contains_iff_mem, List.mem_filter, List.any_eq_true]
  constructor
  · rintro (⟨hmem, -⟩ | ⟨arg, ⟨hmem, -⟩, hstart⟩)
    · exact ⟨_, hmem, .inl rfl⟩
    · exact ⟨arg, hmem, .inr hstart⟩
  · rintro ⟨arg, hmem, rfl | hstart⟩
    · exact .inl ⟨hmem, hplain⟩
    · exact .inr ⟨arg, ⟨hmem, hthreshold arg hstart⟩, hstart⟩

end Invocation

namespace Harness
variable {h : Harness} {inv : Invocation} {p : Plan} {s u v : Session} {r : Result}
  {t t' : FileTree} {arguments : List String}

theorem isSome_of_surveyIf {wanted : Bool} {report : Option Coverage.Report}
    (hs : h.surveyIf p wanted t = .ok report t') : report.isSome = wanted := by
  unfold surveyIf at hs
  split at hs
  next hwanted =>
    obtain ⟨found, -, rfl⟩ := Effect.map_ok hs
    exact hwanted.symm
  next hwanted =>
    cases hs
    exact (Bool.eq_false_iff.2 hwanted).symm

/-- A plan is made of the sources of its invocation, as they are found. -/
theorem plan_sources (hp : h.plan inv s = .ok p v) :
    p.run = Plan.runsTests inv p.sources ∧ p.coverage = inv.requestsCoverage ∧
      p.sources.map (·.path) = inv.sourcePaths ∧
      ∀ x ∈ p.sources, Source.classify? s.tree h.workingDir h.dir x.path = some x := by
  obtain ⟨resolver, hmake, rfl⟩ := plan_ok hp
  obtain ⟨sources, hsources, -, hmade, -⟩ := Plan.ofInvocation_ok hmake
  rw [← hmade.sources] at hsources
  obtain ⟨hpaths, hclassified⟩ := Source.classified hsources
  refine ⟨?_, hmade.coverage, hpaths, hclassified⟩
  rw [hmade.run, hmade.sources]

/-- The sources of a plan with a run have tests and no entry point. -/
theorem runnable_of_run (hp : h.plan inv s = .ok p v) (hrun : p.run = true) :
    ∀ x ∈ p.sources, x.isEntryPoint = false ∧ x.hasTests = true ∧
      Source.Runnable s.tree h.workingDir h.dir x.path := by
  obtain ⟨hruns, -, -, hclassified⟩ := plan_sources hp
  rw [hrun] at hruns
  intro x hx
  have hskips := (Plan.runsTests_iff.1 hruns.symm).2 x hx
  obtain ⟨hentry, htests⟩ := Source.skipsRun_eq_false.1 hskips
  exact ⟨hentry, htests, Source.runnable_of_classify (hclassified x hx) hskips⟩

/-- They are the sources that a survey reports on. -/
theorem surveyed_of_run (hp : h.plan inv s = .ok p v) (hrun : p.run = true) :
    ∀ x ∈ p.sources, Coverage.IsSurveyed x := by
  obtain ⟨-, -, hpaths, -⟩ := plan_sources hp
  intro x hx
  have hpath : x.path ∈ inv.sourcePaths := hpaths ▸ List.mem_map_of_mem hx
  obtain ⟨hentry, htests, -⟩ := runnable_of_run hp hrun x hx
  exact ⟨(List.mem_filter.1 hpath).2, Source.skipsRun_eq_false.2 ⟨hentry, htests⟩⟩

/-! ### The report of a run -/

def LeftEarly (h : Harness) (r : Result) : Prop :=
  h.settings.exitEarly = true ∧ ∃ x, r.statusOf .check = some x ∧ x ≠ 0

theorem Ended.leftEarly_iff {l : Launched} {check : Outcome} (he : Ended h p l check s r u)
    (hcheck : check.pass = .check) : LeftEarly h r ↔ h.endsEarly check = true := by
  rw [LeftEarly, he.checked hcheck, endsEarly, Bool.and_eq_true, Outcome.ok, Bool.not_eq_true',
    beq_eq_false_iff_ne, and_comm]
  simp

theorem shouldProcess_iff {status : Option Int} : Coverage.shouldProcess p.run p.coverage status =
    true ↔ p.run = true ∧ p.coverage = true ∧ ∃ x, status = some x ∧ x ≠ 1 := by
  rw [Coverage.shouldProcess, Bool.and_eq_true, Bool.and_eq_true, and_assoc, Option.any_eq_true]
  simp [Coverage.assertionFailed]

/-- A run reports on its listings exactly if its tests ran without a failed assertion, coverage was
requested, and the run did not end early. -/
theorem isSome_coverage_iff (hr : h.run arguments s = .ok r u) : r.coverage.isSome = true ↔
    r.plan.run = true ∧ r.plan.coverage = true ∧
      (∃ x, r.statusOf .run = some x ∧ x ≠ 1) ∧ ¬LeftEarly h r := by
  obtain ⟨v, compilers, w, l, x, -, -, -, hl, -, hend⟩ := run_taken hr
  have hcheck := (l.check.outcome_pass x.tree).trans hl.check
  rw [isSome_of_surveyIf (hend.surveyed hcheck hl), looks, Bool.and_eq_true, shouldProcess_iff,
    hend.leftEarly_iff hcheck, Bool.not_eq_true', Bool.not_eq_true]
  constructor
  · rintro ⟨hlate, hrun, hcoverage, hstatus⟩
    exact ⟨hrun, hcoverage, hstatus, hlate⟩
  · rintro ⟨hrun, hcoverage, hstatus, hlate⟩
    exact ⟨hlate, hrun, hcoverage, hstatus⟩

/-- The survey of a plan in the files that its children have left, and what its report says of the
sources. -/
structure Covered (h : Harness) (inv : Invocation) (s : Session) (p : Plan)
    (report : Coverage.Report) (t t' : FileTree) : Prop where
  surveyed : Coverage.run h.workingDir h.dir p.sources t = .ok report t'
  sources : p.sources.map (·.path) = inv.sourcePaths
  runnable : ∀ x ∈ p.sources, x.isEntryPoint = false ∧ x.hasTests = true ∧
    Source.Runnable s.tree h.workingDir h.dir x.path
  warnings : ∀ d ∈ report.diagnostics, d.severity = .warning ∧ d.file ∈ inv.sourcePaths ∧
    ∃ n : Nat, 1 ≤ n ∧ d.line = some (n : Int)
  grouped : Coverage.Grouped t h.workingDir h.dir inv.sourcePaths report.diagnostics

theorem covered_of_run {report : Coverage.Report} (hdir : h.dir.toString ≠ "")
    (hp : h.plan inv s = .ok p v) (hrun : p.run = true)
    (hsurvey : Coverage.run h.workingDir h.dir p.sources t = .ok report t') :
    Covered h inv s p report t t' := by
  obtain ⟨-, -, hpaths, -⟩ := plan_sources hp
  have hgrouped := Coverage.run_grouped hdir (surveyed_of_run hp hrun) hsurvey
  rw [hpaths] at hgrouped
  exact {
    surveyed := hsurvey
    sources := hpaths
    runnable := runnable_of_run hp hrun
    warnings := fun d hd => hgrouped.mem hd
    grouped := hgrouped
  }

structure Gated (h : Harness) (arguments : List String) (s : Session) (r : Result) (u : Session) :
    Prop where
  present : ∃ ev, u.milestones = s.milestones ++ ev ∧
    (r.coverage.isSome = true ↔
      .spawned .run ∈ ev ∧ (Invocation.ofArguments arguments).AsksForCoverage ∧
        (∃ x, r.statusOf .run = some x ∧ x ≠ 1) ∧ ¬LeftEarly h r)
  /-- Without a report only the children have changed files. -/
  files : ∃ (l : Launched) (t : FileTree),
    Starts h (Invocation.ofArguments arguments) r.plan s.tree
      (Pass.launchOrder.filter r.plan.isEligible) l.started t ∧
    match r.coverage with
    | none => u.tree = Running.settled l.awaited t
    | some report =>
      Covered h (Invocation.ofArguments arguments) s r.plan report (Running.settled l.awaited t)
        u.tree

theorem run_present (hr : h.run arguments s = .ok r u) :
    ∃ ev, u.milestones = s.milestones ++ ev ∧
      (r.coverage.isSome = true ↔
        .spawned .run ∈ ev ∧ (Invocation.ofArguments arguments).AsksForCoverage ∧
          (∃ x, r.statusOf .run = some x ∧ x ≠ 1) ∧ ¬LeftEarly h r) := by
  obtain ⟨v, hplan⟩ := (run_completed hr).planned
  obtain ⟨-, hcoverage, -, -⟩ := plan_sources hplan
  obtain ⟨ev, hev, hlaunched⟩ := run_launched hr
  refine ⟨ev, hev, ?_⟩
  rw [isSome_coverage_iff hr, ← hlaunched, isSome_statusOf_iff hr, hcoverage,
    Invocation.requestsCoverage_iff]
  rfl

theorem run_covered (hdir : h.dir.toString ≠ "") (hr : h.run arguments s = .ok r u)
    {report : Coverage.Report} (hreport : r.coverage = some report)
    (hsurvey : Coverage.run h.workingDir h.dir r.plan.sources t = .ok report u.tree) :
    Covered h (Invocation.ofArguments arguments) s r.plan report t u.tree := by
  have hsome : r.coverage.isSome = true := by
    rw [hreport]
    rfl
  obtain ⟨v, hplan⟩ := (run_completed hr).planned
  have hrun : r.plan.run = true := ((isSome_coverage_iff hr).1 hsome).1
  exact covered_of_run hdir hplan hrun hsurvey

def within (h : Harness) (dir : String) : Harness :=
  { h with dir := Path.ofString dir }

/-- A run that returns has a report exactly if its tests were launched with coverage requested,
ended without a failed assertion, and were not left early. Then all of its sources can be run, and
what it reports are their lines; otherwise no file is deleted but by the children. -/
theorem run_gated (h : Harness) (dir : String) (arguments : List String) (s : Session) :
    match (h.within dir).run arguments s with
    | .ok r u => Gated (h.within dir) arguments s r u
    | .error _ _ => True := by
  split
  case h_2 => trivial
  next r u hr =>
  refine ⟨run_present hr, ?_⟩
  obtain ⟨l, t, hstarts, hsurveyed⟩ := (run_completed hr).files
  refine ⟨l, t, hstarts, ?_⟩
  cases hcoverage : r.coverage with
  | none =>
    rw [hcoverage] at hsurveyed
    exact hsurveyed
  | some report =>
    rw [hcoverage] at hsurveyed
    exact run_covered (Path.toString_ofString_ne_empty dir) hr hcoverage hsurveyed

end Harness
end TriplePass

import TriplePass.Proofs.Harness.Accounting

/-! # The lint is advisory

Whatever a lint says, and with whichever status it ends, the check and the run have the same
outcomes, the same listings are reported and the same files are left, as long as the lint changes
no files. The streams differ in what is shown of the lint alone. Only a status that is not forgiven
reaches the status of the whole, and only where the check and the run have succeeded; in all other
cases it is the status that the run would have without a linter.
-/
namespace TriplePass

namespace Host

/-- Another host starts the check and the run as this one does, and prints the same characters. -/
structure SameCompilers (host other : Host) : Prop where
  spawn : ∀ task env t, task.pass ≠ .lint → other.spawn task env t = host.spawn task env t
  prints : other.prints = host.prints

def IgnoresRedirection (host : Host) : Prop :=
  ∀ task env t q, task.pass ≠ .lint →
    host.spawn { task with redirection := q } env t = host.spawn task env t

end Host

namespace Result

def LintForgiven (r : Result) : Prop :=
  ∀ status ∈ r.statusOf .lint, status ∈ Status.forgiven

def Failed (r : Result) : Prop :=
  (∃ status ∈ r.statusOf .check, status ≠ 0) ∨ ∃ status ∈ r.statusOf .run, status ≠ 0

end Result

namespace Harness
variable {h : Harness} {other : Host} {linter : Option String} {inv : Invocation} {p : Plan}
  {program : Option Path} {q : Redirection} {l : Launched} {check : Running} {run : Option Running}
  {s s' u u' v v' w w' x : Session} {r r' : Result} {t : FileTree} {e : Failure}
  {arguments : List String}

/-! ### Faults of the second run -/

/-- The ways in which a lint itself breaks a run off: it is not started, or what it says cannot be
shown. -/
inductive LintFault (h : Harness) (inv : Invocation) (p : Plan) : Failure → Prop where
  | unlaunched {running : List Running} {s u : Session} {e : Failure} :
      h.launch inv p running .lint s = .error e u → LintFault h inv p e
  | unshown {lint : Running} {t : FileTree} {e : Failure} :
      lint.pass = .lint → Unshown h lint t e → LintFault h inv p e

theorem launchLint_error {compilers : Running × Option Running}
    (hl : h.launchLint inv p compilers s = .error e u) :
    p.lint = true ∧ LintFault h inv p e := by
  rcases Effect.bind_error hl with hlint | ⟨lint, v, _, hl⟩
  · split at hlint
    next hp => exact ⟨hp, .unlaunched (Effect.map_error hlint)⟩
    next => cases hlint
  · cases hl

theorem endsEarly_congr {o o' : Outcome} (hstatus : o'.status = o.status) (h : Harness) :
    h.endsEarly o' = h.endsEarly o := by
  rw [endsEarly, endsEarly, Outcome.ok, Outcome.ok, hstatus]

/-- Where a run was to look at the listings it has a report of them. -/
theorem Accounted.reported {child : Running} (ha : Accounted h p (check, some child) t r u)
    (hlate : h.endsEarly (check.outcome t) = false)
    (hwanted : Coverage.shouldProcess p.run p.coverage
      (some (child.outcome (check.leaves t)).status) = true) :
    ∃ report ∈ r.coverage, Coverage.run h.workingDir h.dir p.sources
      (child.leaves (check.leaves t)) = .ok report u.tree := by
  have hsurveyed := ha.surveyed
  rw [Result.statusOf, ha.run] at hsurveyed
  dsimp only [Option.map_some] at hsurveyed
  rw [looks, hlate, hwanted] at hsurveyed
  obtain ⟨report, hrun, hreport⟩ := Effect.map_ok hsurveyed
  exact ⟨report, hreport.symm, hrun⟩

theorem takes_relinted (linter : Option String) (hprints : other.prints = h.host.prints)
    (text : String) : (h.relinted other linter).takes text = h.takes text :=
  congrArg (text.toList.all ·) hprints

/-- A child that is captured in either run is the same in both. -/
theorem takesFrom_relinted {child : Running} {text text' : Stream → String}
    (linter : Option String) (hprints : other.prints = h.host.prints)
    (hsame : q = .capture → child.redirected q = child ∧ text' = text)
    (htaken : h.takesFrom child text = true) :
    (h.relinted other linter).takesFrom (child.redirected q) text' = true := by
  cases q with
  | inherit => rfl
  | capture =>
    obtain ⟨hchild, rfl⟩ := hsame rfl
    rw [takesFrom, hchild, takes_relinted linter hprints]
    exact htaken

/-- Behind the same compilers only the lint can keep a run from coming to its end. -/
theorem Accounted.unfinished {left : FileTree} (ha : Accounted h p (check, run) t r u)
    (hprints : other.prints = h.host.prints)
    (hsame : q = .capture → check.redirected q = check ∧ run.map (·.redirected q) = run)
    (hlate : h.endsEarly (check.outcome t) = false) (hrun : l.run = run.map (·.redirected q))
    (hsettled : Running.settled l.lint.toList (check.leaves t) = check.leaves t)
    (hf : Unfinished (h.relinted other linter) (p.relinted program q) l
      ((check.redirected q).outcome t) (check.leaves t) left e) :
    ∃ lint, l.lint = some lint ∧ Unshown (h.relinted other linter) lint (check.leaves t) e := by
  cases hf with
  | lint hlint hunshown => exact ⟨_, hlint, hunshown⟩
  | run hsome hfault =>
    rw [hrun] at hsome
    obtain ⟨child, rfl, rfl⟩ := Option.map_eq_some_iff.1 hsome
    rw [hsettled] at hfault
    cases hfault with
    | output hrefused =>
      have hself : q = .capture → child.redirected q = child ∧
          reconciled (some ((check.redirected q).outcome t))
            ((child.redirected q).outcome (check.leaves t)) =
              reconciled (some (check.outcome t)) (child.outcome (check.leaves t)) := by
        intro hcapture
        obtain ⟨hcheck, hchild⟩ := hsame hcapture
        have hchild : child.redirected q = child := Option.some.inj hchild
        rw [hcheck, hchild]
        exact ⟨rfl, rfl⟩
      cases hrefused.symm.trans
        (takesFrom_relinted linter hprints hself (ha.printed.run hlate child rfl))
    | survey hwanted hrefused =>
      rw [Running.status_redirected] at hwanted
      obtain ⟨report, _, hsurvey⟩ := ha.reported hlate hwanted
      cases hrefused.symm.trans hsurvey
    | notice hwanted hsurvey hd hrefused =>
      rw [Running.status_redirected] at hwanted
      obtain ⟨report, hreport, hsurvey'⟩ := ha.reported hlate hwanted
      cases hsurvey.symm.trans hsurvey'
      rw [takes_relinted linter hprints] at hrefused
      cases hrefused.symm.trans (ha.printed.notices _ hreport _ hd)

/-- With another linter, only the lint can keep a run from being accounted for. -/
theorem fault_of_run_error (linter : Option String)
    (ha : Accounted h p (check, run) w.tree r u) (hprints : other.prints = h.host.prints)
    (hsame : q = .capture → check.redirected q = check ∧ run.map (·.redirected q) = run)
    (hplan : (h.relinted other linter).plan (Invocation.ofArguments arguments) s =
      .ok (p.relinted program q) v')
    (hcompilers : (h.relinted other linter).launchCompilers (Invocation.ofArguments arguments)
      (p.relinted program q) v' = .ok (check.redirected q, run.map (·.redirected q)) w')
    (htree : w'.tree = w.tree)
    (hreads : LintReadsOnly (h.relinted other linter) (Invocation.ofArguments arguments) s)
    (hr : (h.relinted other linter).run arguments s = .error e u') :
    program.isSome = true ∧
      LintFault (h.relinted other linter) (Invocation.ofArguments arguments)
        (p.relinted program q) e := by
  cases hlaunch : (h.relinted other linter).launchLint (Invocation.ofArguments arguments)
      (p.relinted program q) (check.redirected q, run.map (·.redirected q)) w' with
  | error e' x =>
    unfold Harness.run at hr
    rw [Effect.bind_of_ok hplan, launchAll_split, bind_assoc, Effect.bind_of_ok hcompilers,
      Effect.bind_of_error hlaunch] at hr
    cases hr
    exact launchLint_error hlaunch
  | ok l x =>
    have hall : (h.relinted other linter).launchAll (Invocation.ofArguments arguments)
        (p.relinted program q) v' = .ok l x := by
      rw [launchAll_split, Effect.bind_of_ok hcompilers, hlaunch]
    obtain ⟨hx, hsettled⟩ := hreads _ _ _ _ _ _ hplan hcompilers hlaunch
    obtain ⟨hcheck, hrun, _, hnone⟩ := launchLint_ok hlaunch
    have htaken : (h.relinted other linter).takesFrom l.check
        (l.check.outcome x.tree).text = true := by
      rw [hcheck, hx, htree]
      refine takesFrom_relinted linter hprints (fun hcapture => ?_) ha.printed.check
      obtain ⟨hself, _⟩ := hsame hcapture
      rw [hself]
      exact ⟨rfl, rfl⟩
    rw [run_of_launched hplan hall, if_pos htaken] at hr
    obtain ⟨hlate, hunfinished⟩ := conclude_error hr
    -- the check has the same status here, so this run does not end early either
    have hfirst : h.endsEarly (check.outcome w.tree) = false := by
      rw [← hlate]
      refine (endsEarly_congr ?_ h).symm
      rw [hcheck, hx, htree, Running.status_redirected]
    have hleaves : l.check.leaves x.tree = check.leaves w.tree := by
      rw [hcheck, hx, htree]
      rfl
    rw [hleaves] at hsettled
    rw [tree_checked, hleaves, hcheck, hx, htree] at hunfinished
    obtain ⟨lint, hlint, hunshown⟩ :=
      ha.unfinished hprints hsame hfirst hrun hsettled hunfinished
    refine ⟨?_, .unshown ((launched_sorted hplan hall).lint _ hlint) hunshown⟩
    cases hp : program.isSome with
    | true => rfl
    | false => cases (hnone hp).1.symm.trans hlint

/-! ### Two accounts compared -/

structure SameButLint (h : Harness) (r : Result) (u : Session) (r' : Result) (u' : Session) :
    Prop where
  plan : r'.plan = r.plan
  check : r'.outcome? .check = r.outcome? .check
  run : r'.outcome? .run = r.outcome? .run
  coverage : r'.coverage = r.coverage
  tree : u'.tree = u.tree
  /-- The events are the same on either side of the segment in which the lint is shown. -/
  events : ∃ before after, u.events = before ++ h.lintSegment r ++ after ∧
    u'.events = before ++ h.lintSegment r' ++ after
  written : ∀ stream, ∃ before after,
    u.written stream = before ++ (h.lintSegment r).flatMap (Event.bytes stream) ++ after ∧
    u'.written stream = before ++ (h.lintSegment r').flatMap (Event.bytes stream) ++ after
  status : (r.LintForgiven ∧ r'.LintForgiven) ∨ r.Failed → r'.status = r.status

structure SameBuild (r : Result) (u : Session) (r' : Result) (u' : Session) : Prop where
  check : r'.statusOf .check = r.statusOf .check
  run : r'.statusOf .run = r.statusOf .run
  lint : r'.statusOf .lint = none
  coverage : r'.coverage = r.coverage
  tree : u'.tree = u.tree
  status : r.LintForgiven ∨ r.Failed → r'.status = r.status

theorem written_of_events {before segment after : List Event}
    (hevents : u.events = before ++ segment ++ after) (stream : Stream) :
    u.written stream = before.flatMap (Event.bytes stream) ++
      segment.flatMap (Event.bytes stream) ++ after.flatMap (Event.bytes stream) := by
  rw [Session.written, hevents, List.flatMap_append, List.flatMap_append]

theorem status_without_lint (hr : h.run arguments s = .ok r u)
    (hlint : r.LintForgiven ∨ r.Failed) :
    r.status = Status.aggregate (r.statusOf .check) (r.statusOf .run) none := by
  rw [run_aggregate hr]
  exact Status.aggregate_without_lint hlint

theorem launchCompilers_redirected {compilers : Running × Option Running}
    (hl : h.launchCompilers inv p s = .ok compilers u) :
    compilers.1.redirected p.redirection = compilers.1 ∧
      compilers.2.map (·.redirected p.redirection) = compilers.2 := by
  have hself : ∀ {pass : Pass} {r : Running} {v w : Session}, Begins h inv p pass v r w →
      r.redirected p.redirection = r := by
    intro pass r v w hbegins
    obtain ⟨_, _, hredirection⟩ := build_ok hbegins.built.1
    exact Running.redirected_self hredirection
  obtain ⟨v, hcheck, hrun, hnone⟩ := launchCompilers_ok hl
  refine ⟨hself hcheck, ?_⟩
  cases hwanted : p.run with
  | true =>
    obtain ⟨r, hr, hbegins⟩ := hrun hwanted
    rw [hr, Option.map_some, hself hbegins]
  | false =>
    rw [(hnone hwanted).1]
    rfl

/-- What is captured without a linter is captured with one as well. -/
theorem captured_of_unlinted {compilers : Running × Option Running} (hplan : h.plan inv s = .ok p v)
    (hl : h.launchCompilers inv p v = .ok compilers u)
    (hq : (if p.run then Redirection.capture else .inherit) = .capture) :
    compilers.1.redirected (if p.run then .capture else .inherit) = compilers.1 ∧
      compilers.2.map (·.redirected (if p.run then .capture else .inherit)) = compilers.2 := by
  obtain ⟨_, hredirection, _⟩ := plan_made hplan
  have hrun : p.run = true := by
    by_contra hnone
    rw [if_neg hnone] at hq
    cases hq
  rw [hrun, Bool.true_or, if_pos rfl] at hredirection
  rw [hq, ← hredirection]
  exact launchCompilers_redirected hl

theorem launchCompilers_other {compilers : Running × Option Running}
    (hsame : h.host.SameCompilers other) (hp : p.lint = p.lintProgram.isSome)
    (hl : h.launchCompilers inv p s = .ok compilers u) :
    { h with host := other }.launchCompilers inv p s = .ok compilers u := by
  have hfollows : Follows h other p p.redirection := by
    intro task env t hpass hredirection
    rw [← hredirection]
    exact hsame.spawn task env t hpass
  obtain ⟨hcheck, hrun⟩ := launchCompilers_redirected hl
  obtain ⟨u', hl', _, hsession⟩ := launchCompilers_relinted h.settings.linter p.lintProgram
    hfollows hl rfl
  rw [hcheck, hrun, Plan.relinted_self hp, hsession rfl] at hl'
  exact hl'

theorem plan_lint (hplan : h.plan inv s = .ok p v) : p.lint = p.lintProgram.isSome := by
  obtain ⟨_, hmake, _⟩ := plan_ok hplan
  obtain ⟨_, _, _, hmade, _⟩ := Plan.ofInvocation_ok hmake
  exact hmade.lint

theorem plan_unlinted_lint (hplan : (h.relinted other none).plan inv s = .ok p v) :
    p.lint = false := by
  obtain ⟨_, hmake, _⟩ := plan_ok hplan
  obtain ⟨_, _, _, hmade, _⟩ := Plan.ofInvocation_ok hmake
  have hprogram : p.lintProgram = none := hmade.lintProgram
  rw [hmade.lint, hprogram]
  rfl

theorem unlinted_readsOnly (h : Harness) (other : Host) (inv : Invocation) (s : Session) :
    LintReadsOnly (h.relinted other none) inv s := by
  intro p v compilers w l x hplan _ hlaunch
  obtain ⟨_, _, _, hnone⟩ := launchLint_ok hlaunch
  obtain ⟨hlint, rfl⟩ := hnone (plan_unlinted_lint hplan)
  rw [hlint]
  exact ⟨rfl, rfl⟩

/-- A host whose lints change no files at all. -/
theorem readsOnly_of_host (hhost : ∀ task env t child t', task.pass = .lint →
      h.host.spawn task env t = .ok (child, t') → t' = t ∧ ∀ t, (child.finish t).2 = t)
    (inv : Invocation) (s : Session) : LintReadsOnly h inv s := by
  intro p v compilers w l x _ _ hlaunch
  obtain ⟨_, _, hlint, hnone⟩ := launchLint_ok hlaunch
  cases hp : p.lint with
  | true =>
    obtain ⟨r, hr, hbegins⟩ := hlint hp
    rw [hr]
    cases hbegins with
    | started hbuild _ hspawn =>
      obtain ⟨_, hpass, _⟩ := build_ok hbuild
      obtain ⟨rfl, hfinish⟩ := hhost _ _ _ _ _ hpass hspawn
      exact ⟨rfl, hfinish _⟩
  | false =>
    obtain ⟨hl, rfl⟩ := hnone hp
    rw [hl]
    exact ⟨rfl, rfl⟩

/-- Two runs that return, with the same compilers on either side. -/
theorem same_but_lint (hdebug : h.console.debug = false)
    (hreads : LintReadsOnly h (Invocation.ofArguments arguments) s)
    (hr : h.run arguments s = .ok r u) (hlint : r.plan.lint = true)
    (hsame : h.host.SameCompilers other)
    (hreads' : LintReadsOnly { h with host := other } (Invocation.ofArguments arguments) s)
    (hr' : { h with host := other }.run arguments s = .ok r' u') : SameButLint h r u r' u' := by
  obtain ⟨v, compilers, w, hplan, hcompilers, ha, htold⟩ := run_accounted hr hreads
  obtain ⟨v', compilers', w', hplan', hcompilers', ha', htold'⟩ := run_accounted hr' hreads'
  obtain ⟨hp, rfl⟩ : r.plan = r'.plan ∧ v = v' :=
    EStateM.Result.ok.inj (hplan.symm.trans hplan')
  rw [← hp] at hcompilers' ha' htold'
  obtain ⟨rfl, rfl⟩ := EStateM.Result.ok.inj
    ((launchCompilers_other hsame (plan_lint hplan) hcompilers).symm.trans hcompilers')
  have hcheck : r'.outcome? .check = r.outcome? .check := ha'.check.trans ha.check.symm
  have hrun : r'.outcome? .run = r.outcome? .run := ha'.run.trans ha.run.symm
  have hstatusCheck : r'.statusOf .check = r.statusOf .check := by
    rw [Result.statusOf, Result.statusOf, hcheck]
  have hstatusRun : r'.statusOf .run = r.statusOf .run := by
    rw [Result.statusOf, Result.statusOf, hrun]
  have hsurveyed := ha'.surveyed
  rw [hstatusRun] at hsurveyed
  obtain ⟨hcoverage, htree⟩ := EStateM.Result.ok.inj (hsurveyed.symm.trans ha.surveyed)
  have hevents := htold hdebug hlint
  have hevents' := htold' hdebug hlint
  rw [hcoverage] at hevents'
  exact {
    plan := hp.symm
    check := hcheck
    run := hrun
    coverage := hcoverage
    tree := htree
    events := ⟨_, _, hevents, hevents'⟩
    written := fun stream =>
      ⟨_, _, written_of_events hevents stream, written_of_events hevents' stream⟩
    status := by
      intro hforgiven
      have hfailed : r.Failed → r'.Failed := by
        rw [Result.Failed, Result.Failed, hstatusCheck, hstatusRun]
        exact id
      rw [status_without_lint hr (hforgiven.imp And.left id),
        status_without_lint hr' (hforgiven.imp And.right hfailed), hstatusCheck, hstatusRun]
  }

/-- With another lint, only that lint can keep a run from coming to its end. -/
theorem fault_of_other (hreads : LintReadsOnly h (Invocation.ofArguments arguments) s)
    (hr : h.run arguments s = .ok r u) (hsame : h.host.SameCompilers other)
    (hreads' : LintReadsOnly { h with host := other } (Invocation.ofArguments arguments) s)
    (hr' : { h with host := other }.run arguments s = .error e u') :
    LintFault { h with host := other } (Invocation.ofArguments arguments) r.plan e := by
  obtain ⟨v, ⟨check, run⟩, w, hplan, hcompilers, ha, _⟩ := run_accounted hr hreads
  have hp := plan_lint hplan
  obtain ⟨hcheck, hrun⟩ := launchCompilers_redirected hcompilers
  have hplan' : { h with host := other }.plan (Invocation.ofArguments arguments) s =
      .ok (r.plan.relinted r.plan.lintProgram r.plan.redirection) v := by
    rw [Plan.relinted_self hp]
    exact hplan
  have hcompilers' : { h with host := other }.launchCompilers (Invocation.ofArguments arguments)
      (r.plan.relinted r.plan.lintProgram r.plan.redirection) v =
        .ok (check.redirected r.plan.redirection,
          run.map (·.redirected r.plan.redirection)) w := by
    dsimp only at hcheck hrun
    rw [Plan.relinted_self hp, hcheck, hrun]
    exact launchCompilers_other hsame hp hcompilers
  have hfault := fault_of_run_error h.settings.linter ha hsame.prints
    (fun _ => ⟨hcheck, hrun⟩) hplan' hcompilers' rfl hreads' hr'
  rw [Plan.relinted_self hp] at hfault
  exact hfault.2

theorem Accounted.same_build (ha : Accounted h p (check, run) t r u)
    (ha' : Accounted (h.relinted other linter) (p.relinted program q)
      (check.redirected q, run.map (·.redirected q)) t r' u') :
    r'.statusOf .check = r.statusOf .check ∧ r'.statusOf .run = r.statusOf .run ∧
      r'.coverage = r.coverage ∧ u'.tree = u.tree := by
  have hcheck : r'.statusOf .check = r.statusOf .check := by
    rw [Result.statusOf, Result.statusOf, ha'.check, ha.check, Option.map_some, Option.map_some,
      Running.status_redirected]
  have hrun : r'.statusOf .run = r.statusOf .run := by
    rw [Result.statusOf, Result.statusOf, ha'.run, ha.run]
    cases run with
    | none => rfl
    | some child => exact congrArg some (child.status_redirected q (check.leaves t))
  have hlooks : (h.relinted other linter).looks (p.relinted program q)
      ((check.redirected q).outcome t) (r'.statusOf .run) =
        h.looks p (check.outcome t) (r.statusOf .run) := by
    rw [looks, looks, hrun, endsEarly_congr (check.status_redirected q t)]
    rfl
  have hsettled : Running.settled (run.map (·.redirected q)).toList (check.leaves t) =
      Running.settled run.toList (check.leaves t) := by
    cases run <;> rfl
  have hsurveyed := ha'.surveyed
  dsimp only [Running.leaves_redirected] at hsurveyed
  rw [hlooks, hsettled] at hsurveyed
  obtain ⟨hcoverage, htree⟩ := EStateM.Result.ok.inj (hsurveyed.symm.trans ha.surveyed)
  exact ⟨hcheck, hrun, hcoverage, htree⟩

/-- Without a linter the same build comes to its end. -/
theorem same_build_unlinted (hreads : LintReadsOnly h (Invocation.ofArguments arguments) s)
    (hr : h.run arguments s = .ok r u) (hignores : h.host.IgnoresRedirection) :
    ∃ r' u', (h.relinted h.host none).run arguments s = .ok r' u' ∧ SameBuild r u r' u' := by
  obtain ⟨v, ⟨check, run⟩, w, hplan, hcompilers, ha, _⟩ := run_accounted hr hreads
  obtain ⟨v', hplan', htree⟩ := plan_unlinted h.host hplan
  have hfollows : Follows h h.host r.plan (if r.plan.run then .capture else .inherit) := by
    intro task env t hpass _
    exact hignores task env t _ hpass
  obtain ⟨w', hcompilers', htree', _⟩ :=
    launchCompilers_relinted none none hfollows hcompilers htree
  have hreads' := unlinted_readsOnly h h.host (Invocation.ofArguments arguments) s
  cases hr' : (h.relinted h.host none).run arguments s with
  | error e u' =>
    cases (fault_of_run_error none ha rfl (captured_of_unlinted hplan hcompilers) hplan' hcompilers'
      htree' hreads' hr').1
  | ok r' u' =>
    obtain ⟨x, others, y, hplan'', hcompilers'', ha', _⟩ := run_accounted hr' hreads'
    obtain ⟨hp, rfl⟩ := EStateM.Result.ok.inj (hplan'.symm.trans hplan'')
    rw [← hp] at hcompilers'' ha'
    obtain ⟨rfl, rfl⟩ := EStateM.Result.ok.inj (hcompilers'.symm.trans hcompilers'')
    rw [htree'] at ha'
    obtain ⟨hcheck, hrun, hcoverage, hleft⟩ := ha.same_build ha'
    have hlint : r'.statusOf .lint = none := by
      refine Option.not_isSome_iff_eq_none.1 fun hsome => ?_
      have heligible := (isSome_statusOf_iff hr' .lint).1 hsome
      rw [Plan.isEligible, plan_unlinted_lint hplan''] at heligible
      cases heligible
    refine ⟨r', u', rfl, hcheck, hrun, hlint, hcoverage, hleft, fun hforgiven => ?_⟩
    rw [status_without_lint hr hforgiven, run_aggregate hr', hlint, hcheck, hrun]

/-- A lint that changes no files is advisory: what another one says in its place, or that there is
none, is seen in the segment of the lint only, and in the status only where it is not forgiven and
nothing else has failed. -/
theorem lint_advisory (hdebug : h.console.debug = false)
    (hreads : LintReadsOnly h (Invocation.ofArguments arguments) s)
    (hr : h.run arguments s = .ok r u) (hlint : r.plan.lint = true) :
    (∀ other, h.host.SameCompilers other →
      LintReadsOnly { h with host := other } (Invocation.ofArguments arguments) s →
      match { h with host := other }.run arguments s with
      | .ok r' u' => SameButLint h r u r' u'
      | .error e _ =>
        LintFault { h with host := other } (Invocation.ofArguments arguments) r.plan e) ∧
    (h.host.IgnoresRedirection →
      ∃ r' u', { h with settings := { h.settings with linter := none } }.run arguments s =
        .ok r' u' ∧ SameBuild r u r' u') := by
  refine ⟨?_, same_build_unlinted hreads hr⟩
  intro other hsame hreads'
  split
  next r' u' hr' => exact same_but_lint hdebug hreads hr hlint hsame hreads' hr'
  next e u' hr' => exact fault_of_other hreads hr hsame hreads' hr'

/-! ### A lint that crashes, one that is content, and none -/

/-- A host whose compilers succeed in silence; the lint ends as it is told. -/
def remarking (lint : Ending) : Host where
  spawn := fun task _ t =>
    .ok (⟨fun t => (if task.pass = .lint then lint else ⟨0, [], []⟩, t)⟩, t)

theorem remarking_readsOnly {lint : Ending} (hhost : h.host = remarking lint) (inv : Invocation)
    (s : Session) : LintReadsOnly h inv s := by
  refine readsOnly_of_host ?_ inv s
  intro task env t child t' _ hspawn
  rw [hhost] at hspawn
  cases hspawn
  exact ⟨rfl, fun _ => rfl⟩

theorem remarking_same (lint lint' : Ending) : (remarking lint).SameCompilers (remarking lint') := by
  refine ⟨fun task env t hpass => ?_, rfl⟩
  simp only [remarking, if_neg hpass]

def remarkedTree : FileTree where
  entries :=
    [(["bin"], .directory), (["bin", "dmd"], .file true []), (["bin", "dscanner"], .file true []),
      (["lib.d"], .file false (Utf8.encode "unittest"))]

def remarked (lint : Ending) : Harness where
  settings := { linter := some "dscanner", allocatorLibraries := [], useDemangler := false }
  console := {}
  environment := [("PATH", "bin")]
  host := remarking lint
  workingDir := []
  dir := Path.ofString "."

def crashed : Ending :=
  ⟨139, Utf8.encode "lib.d(1:1)[warn]: odd name\n", []⟩

def content : Ending :=
  ⟨0, [], []⟩

theorem remarked_returns (lint : Ending) (hlint : lint ∈ [crashed, content]) :
    ∃ r u, (remarked lint).run ["-run", "lib.d"] ((remarked crashed).start remarkedTree) =
      .ok r u ∧ r.plan.lint = true := by
  have hlinted : ∀ lint ∈ [crashed, content],
      (match (remarked lint).run ["-run", "lib.d"] ((remarked crashed).start remarkedTree) with
      | .ok r _ => r.plan.lint
      | .error _ _ => false) = true := by decide +kernel
  have hreturned := hlinted lint hlint
  split at hreturned
  next r u hr => exact ⟨r, u, hr, hreturned⟩
  next => cases hreturned

theorem lint_advisory_crashed :
    LintReadsOnly (remarked crashed) (.ofArguments ["-run", "lib.d"])
        ((remarked crashed).start remarkedTree) ∧
      ∃ r u, (remarked crashed).run ["-run", "lib.d"] ((remarked crashed).start remarkedTree) =
          .ok r u ∧ r.plan.lint = true ∧
        (∃ r' u', (remarked content).run ["-run", "lib.d"]
            ((remarked crashed).start remarkedTree) = .ok r' u' ∧
          SameButLint (remarked crashed) r u r' u') ∧
        ∃ r' u', { remarked crashed with
            settings := { (remarked crashed).settings with linter := none } }.run ["-run", "lib.d"]
              ((remarked crashed).start remarkedTree) = .ok r' u' ∧ SameBuild r u r' u' := by
  have hreads := remarking_readsOnly (h := remarked crashed) rfl
    (.ofArguments ["-run", "lib.d"]) ((remarked crashed).start remarkedTree)
  have hignores : (remarking crashed).IgnoresRedirection := fun _ _ _ _ _ => rfl
  obtain ⟨r, u, hr, hlint⟩ := remarked_returns crashed (by simp)
  obtain ⟨r', u', hr', _⟩ := remarked_returns content (by simp)
  obtain ⟨hother, hnone⟩ := lint_advisory rfl hreads hr hlint
  have hsame := hother (remarking content) (remarking_same crashed content)
    (remarking_readsOnly rfl _ _)
  refine ⟨hreads, r, u, hr, hlint, ⟨r', u', hr', ?_⟩, hnone hignores⟩
  change match (remarked content).run _ _ with
    | .ok r' u' => SameButLint (remarked crashed) r u r' u'
    | .error e _ => _ at hsame
  rw [hr'] at hsame
  exact hsame

end Harness
end TriplePass

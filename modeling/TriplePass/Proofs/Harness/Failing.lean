import TriplePass.Proofs.Coverage.Survey
import TriplePass.Proofs.Harness.Lifecycle

/-! # How a run fails

A run that fails has met one of the three errors that it reports, or one of seven faults that
nobody has foreseen. Each fault is in what the run was given or in what its children have left: a
NUL in the name of a source, an allocator that the system does not answer for, a variable or a task
that it cannot take, a number of the lint that is too long, a listing that it does not answer for,
or a character that the standard output lacks.
-/
namespace TriplePass.Harness
variable {h : Harness} {inv : Invocation} {p : Plan} {l : Launched} {s u w : Session} {e : Failure}

inductive Reported (h : Harness) (inv : Invocation) (s u : Session) : HarnessError → Prop where
  | recursion {reason : String} :
      Recursion.reason? inv h.environment h.settings.recursionMarker = some reason →
      Reported h inv s u (.selfRecursion reason)
  | noCheck :
      h.settings.checkCompilers.findSome? (s.resolver.answer s.tree h.workingDir) = none →
      Reported h inv s u (.programNotFound h.settings.checkCompilers)
  | noRun : Plan.runCompiler s.tree h.workingDir h.settings inv s.resolver = none →
      Reported h inv s u (.programNotFound h.settings.runCompilers)
  | launch {command : List String} {cause : SystemError} {p : Plan} {before : List Pass}
      {pass : Pass} :
      Abandoned h inv s command cause p before pass u → Reported h inv s u (.launch command cause)

/-- The texts that a run hands to the standard output: of the children that do not write there for
themselves, and of the report on the listings. -/
inductive Passed (h : Harness) (p : Plan) (l : Launched) (t : FileTree) : String → Prop where
  | check : l.check.isCaptured = true → Passed h p l t (l.check.outcome t).stdout
  | lint {r : Running} : l.lint = some r → r.isCaptured = true →
      Passed h p l t (Lint.withoutNoise (r.outcome (l.check.leaves t)).stdout)
  | run {r : Running} : l.run = some r → r.isCaptured = true →
      Passed h p l t (reconciled (some (l.check.outcome t))
        (r.outcome (Running.settled (l.check :: l.lint.toList) t)) .stdout)
  | notice {report : Coverage.Report} {t' : FileTree} {d : Diagnostic} :
      Coverage.run h.workingDir h.dir p.sources (Running.settled l.awaited t) = .ok report t' →
      d ∈ report.diagnostics → Passed h p l t d.render

/-- The faults that leave a run as they are. -/
inductive Unforeseen (h : Harness) (inv : Invocation) (s u : Session) : Failure → Prop where
  | source {arg : String} : arg ∈ inv.sourcePaths →
      (h.dir.join (Path.ofString arg)).hasNul = true → Unforeseen h inv s u .embeddedNul
  | allocator {path : Path} {e : Errno} : path ∈ h.settings.allocatorLibraries →
      s.tree.isFile h.workingDir path = .error e → e.Unanswered → Unforeseen h inv s u (.system e)
  | binding {p : Plan} {v : Session} {pass : Pass} {task : Task} :
      h.plan inv s = .ok p v → Task.build pass inv p h.settings h.dir h.environment = .ok task →
      task.fault? (task.environment h.environment) = some .illegalVariable →
      Unforeseen h inv s u .illegalVariable
  | task {p : Plan} {v : Session} {pass : Pass} {task : Task} :
      h.plan inv s = .ok p v → Task.build pass inv p h.settings h.dir h.environment = .ok task →
      task.fault? (task.environment h.environment) = some .embeddedNul →
      Unforeseen h inv s u .embeddedNul
  | lint {p : Plan} {v : Session} {l : Launched} {t : FileTree} {r : Running} {digits : Nat} :
      h.plan inv s = .ok p v →
      Starts h inv p s.tree (Pass.launchOrder.filter p.isEligible) l.started t →
      l.lint = some r → Unreadable r (l.check.leaves t) digits →
      Unforeseen h inv s u (.longNumber digits)
  | survey {p : Plan} {v : Session} {l : Launched} {t : FileTree} {r : Running} {e : Errno} :
      h.plan inv s = .ok p v →
      Starts h inv p s.tree (Pass.launchOrder.filter p.isEligible) l.started t →
      l.run = some r →
      Coverage.shouldProcess p.run p.coverage
        (some (r.outcome (Running.settled (l.check :: l.lint.toList) t)).status) = true →
      Coverage.Unaskable h.workingDir h.dir p.sources (Running.settled l.awaited t) u.tree e →
      e.Unanswered → Unforeseen h inv s u (.system e)
  | output {p : Plan} {v : Session} {l : Launched} {t : FileTree} {text : String} :
      h.plan inv s = .ok p v →
      Starts h inv p s.tree (Pass.launchOrder.filter p.isEligible) l.started t →
      Passed h p l t text → h.takes text = false → Unforeseen h inv s u .unwritable

theorem takesFrom_eq_false {r : Running} {text : Stream → String} :
    h.takesFrom r text = false ↔ r.isCaptured = true ∧ h.takes (text .stdout) = false := by
  rw [takesFrom, Bool.or_eq_false_iff, Bool.not_eq_false']

/-- What keeps a run from its end behind the check is one of the faults. -/
theorem unforeseen_of_unfinished {t : FileTree} (hplan : h.plan inv s = .ok p w)
    (hstarts : Starts h inv p s.tree (Pass.launchOrder.filter p.isEligible) l.started t)
    (hf : Unfinished h p l (l.check.outcome t) (l.check.leaves t) u.tree e) :
    Unforeseen h inv s u e := by
  cases hf with
  | lint hlint hunshown =>
    cases hunshown with
    | unreadable hline => exact .lint hplan hstarts hlint hline
    | unwritable hcaptured hrefused => exact .output hplan hstarts (.lint hlint hcaptured) hrefused
  | @run r _ hrun hfault =>
    -- all children have been waited for once the run has
    have hleft : r.leaves (Running.settled l.lint.toList (l.check.leaves t)) =
        Running.settled l.awaited t := by
      change _ = Running.settled (l.lint.toList ++ l.run.toList) (l.check.leaves t)
      rw [hrun, Running.settled_append]
      rfl
    cases hfault with
    | output hrefused =>
      obtain ⟨hcaptured, hrefused⟩ := takesFrom_eq_false.1 hrefused
      exact .output hplan hstarts (.run hrun hcaptured) hrefused
    | survey hwanted hsurvey =>
      rw [hleft] at hsurvey
      obtain ⟨hunanswered, hunaskable⟩ := Coverage.run_unaskable hsurvey
      exact .survey hplan hstarts hrun hwanted hunaskable hunanswered
    | notice _ hsurvey hd hrefused =>
      rw [hleft] at hsurvey
      exact .output hplan hstarts (.notice hsurvey hd) hrefused

theorem run_error {arguments : List String} (hr : h.run arguments s = .error e u) :
    (∃ reason, e = .harness reason ∧ Reported h (Invocation.ofArguments arguments) s u reason) ∨
      Unforeseen h (Invocation.ofArguments arguments) s u e := by
  have habandoned : ∀ command cause, e = .harness (.launch command cause) →
      Reported h (Invocation.ofArguments arguments) s u (.launch command cause) := by
    rintro command cause rfl
    obtain ⟨p, before, pass, habandoned⟩ := run_abandoned hr
    exact .launch habandoned
  unfold run at hr
  rcases Effect.bind_error hr with hplan | ⟨p, v, hplan, hr⟩
  · obtain ⟨resolver, hmake, rfl⟩ := plan_error hplan
    rcases Plan.ofInvocation_error hmake with ⟨sources, _, hrefused⟩ | ⟨rfl, arg, harg, hnone⟩
    · cases hrefused with
      | recursion hreason => exact .inl ⟨_, rfl, .recursion hreason⟩
      | noCheck hnone => exact .inl ⟨_, rfl, .noCheck hnone⟩
      | noRun _ hnone => exact .inl ⟨_, rfl, .noRun hnone⟩
      | system hfile =>
        obtain ⟨path, hpath, hask⟩ := Plan.firstFile_error hfile
        exact .inr (.allocator hpath hask (FileTree.isFile_error hask))
    · refine .inr (.source harg ?_)
      unfold Source.classify? at hnone
      dsimp only at hnone
      split at hnone
      · assumption
      · cases hnone
  obtain ⟨hc, _, htree, _⟩ := plan_made hplan
  rcases Effect.bind_error hr with hlaunch | ⟨l, w, hlaunch, hr⟩
  · rcases launchAll_error hc hlaunch with ⟨pass, heligible, hunfit⟩ | ⟨_, _, _, _, _, task, errno,
      _, _, _, _, rfl, _⟩
    · cases hunfit with
      | ineligible hineligible =>
        rw [heligible] at hineligible
        cases hineligible
      | illegalVariable hbuild hfault => exact .inr (.binding hplan hbuild hfault)
      | embeddedNul hbuild hfault => exact .inr (.task hplan hbuild hfault)
    · exact .inl ⟨_, rfl, habandoned _ _ rfl⟩
  obtain ⟨hstarts, _, _⟩ := launchAll_ok hc hlaunch
  rw [htree] at hstarts
  right
  rcases Effect.bind_error hr with hcheck | ⟨check, x, hfinish, hr⟩
  · obtain ⟨rfl, hrefused⟩ := finishCheck_error hcheck
    obtain ⟨hcaptured, hrefused⟩ := takesFrom_eq_false.1 hrefused
    exact .output hplan hstarts (.check hcaptured) hrefused
  obtain ⟨_, rfl, rfl⟩ := finishCheck_ok hfinish
  split at hr
  · rw [finishEarly_eq] at hr
    cases hr
  · exact unforeseen_of_unfinished hplan hstarts (finishAll_error hr)

/-- A run returns, reports an error, or meets a fault that nobody has foreseen. -/
theorem run_failures (h : Harness) (arguments : List String) (s : Session) :
    match h.run arguments s with
    | .ok _ _ => True
    | .error (.harness reason) u => Reported h (Invocation.ofArguments arguments) s u reason
    | .error e u => Unforeseen h (Invocation.ofArguments arguments) s u e := by
  split
  · trivial
  next reason u hr =>
    rcases run_error hr with ⟨_, heq, hreported⟩ | hunforeseen
    · cases heq
      exact hreported
    · cases hunforeseen
  next e u hother hr =>
    rcases run_error hr with ⟨reason, heq, _⟩ | hunforeseen
    · exact absurd heq (hother reason)
    · exact hunforeseen

theorem takes_of_prints (hprints : ∀ c, h.host.prints c = true) (text : String) :
    h.takes text = true :=
  List.all_eq_true.2 fun c _ => hprints c

/-! ### A run that breaks off behind successful tasks -/

def quietHost : Host where
  spawn := fun _ _ t => .ok (⟨fun t => (⟨0, [], []⟩, t)⟩, t)

theorem Starts.quiet {passes : List Pass} {rs : List Running} {t t' : FileTree}
    (hhost : h.host = quietHost) (hs : Starts h inv p t passes rs t') :
    t' = t ∧ ∀ r ∈ rs, r.child.finish = fun t => (⟨0, [], []⟩, t) := by
  induction hs with
  | nil => exact ⟨rfl, by simp⟩
  | cons _ hspawn _ ih =>
    rw [hhost] at hspawn
    cases hspawn
    exact ⟨ih.1, List.forall_mem_cons.mpr ⟨rfl, ih.2⟩⟩

variable {r : Running}

theorem outcome_quiet (hr : r.child.finish = fun t => (⟨0, [], []⟩, t)) (t : FileTree) :
    r.outcome t = { pass := r.pass, status := 0 } := by
  unfold Running.outcome
  rw [hr]
  dsimp only
  split <;> rfl

theorem leaves_quiet (hr : r.child.finish = fun t => (⟨0, [], []⟩, t)) (t : FileTree) :
    r.leaves t = t := by
  rw [Running.leaves, hr]

theorem settled_quiet {rs : List Running}
    (hrs : ∀ r ∈ rs, r.child.finish = fun t => (⟨0, [], []⟩, t)) (t : FileTree) :
    Running.settled rs t = t := by
  induction rs with
  | nil => rfl
  | cons r rest ih =>
    obtain ⟨hr, hrest⟩ := List.forall_mem_cons.1 hrs
    change Running.settled rest (r.leaves t) = t
    rw [leaves_quiet hr]
    exact ih hrest

/-- A child that has written nothing has written no line. -/
theorem not_unreadable (hr : r.child.finish = fun t => (⟨0, [], []⟩, t)) (t : FileTree)
    (digits : Nat) : ¬Unreadable r t digits := by
  rintro ⟨stream, line, hline, _⟩
  rw [outcome_quiet hr] at hline
  cases stream <;> cases hline

open Coverage (longSource longDir longFile)

def longTree : FileTree where
  entries :=
    [(["bin"], .directory), (["bin", "dmd"], .file true []), ([longDir], .directory),
      ([longDir, longFile], .file false (Utf8.encode "unittest"))]

def longHarness : Harness where
  settings := { linter := none, allocatorLibraries := [], useDemangler := false }
  console := {}
  environment := [("PATH", "bin")]
  host := quietHost
  workingDir := []
  dir := Path.ofString "."

def longArguments : List String :=
  ["-cov", "-run", longSource.path]

def longInvocation : Invocation :=
  .ofArguments longArguments

theorem compilerArguments_long :
    longInvocation.compilerArguments = ["-cov", "-run", longSource.path] := rfl

theorem isSwitch_longSource : isSwitch longSource.path = false := by
  rw [isSwitch, Text.startsWith, Coverage.toList_longSource]
  decide +kernel

theorem switches_long : longInvocation.switches = ["-cov", "-run"] := by
  have hcoverage : isSwitch "-cov" = true := by decide
  have hrun : isSwitch "-run" = true := by decide
  simp [Invocation.switches, compilerArguments_long, hcoverage, hrun, isSwitch_longSource]

theorem sourcePaths_long : longInvocation.sourcePaths = [longSource.path] := by
  have hcoverage : Source.isArgument "-cov" = false := by decide
  have hrun : Source.isArgument "-run" = false := by decide
  simp [Invocation.sourcePaths, compilerArguments_long, hcoverage, hrun, Coverage.isSurveyed_longSource.1]

theorem isPlain_longDir : FileTree.IsPlain longDir := by
  refine ⟨?_, by decide +kernel, by decide +kernel, by decide +kernel⟩
  rw [Coverage.toList_longDir]
  decide +kernel

theorem isPlain_longFile : FileTree.IsPlain longFile := by
  refine ⟨?_, by decide +kernel, by decide +kernel, by decide +kernel⟩
  rw [Coverage.toList_longFile]
  decide +kernel

theorem ofString_longSource : Path.ofString longSource.path = ⟨.relative, [longDir, longFile]⟩ :=
  FileTree.ofString_nested isPlain_longDir isPlain_longFile

theorem join_longSource :
    (Path.ofString ".").join (Path.ofString longSource.path) =
      ⟨.relative, [longDir, longFile]⟩ := by
  rw [ofString_longSource]
  rfl

theorem hasNul_longSource : Path.hasNul ⟨.relative, [longDir, longFile]⟩ = false := by
  rw [Path.hasNul, List.any_cons, List.any_cons, List.any_nil, Coverage.toList_longDir,
    Coverage.toList_longFile]
  decide +kernel

theorem classify_longSource :
    Source.classify? longTree [] (Path.ofString ".") longSource.path = some longSource := by
  have hdirectory : longTree.entryAt ([] ++ [longDir]) = some .directory := by decide +kernel
  have hfile : longTree.entryAt ([] ++ [longDir] ++ [longFile]) =
      some (.file false (Utf8.encode "unittest")) := by decide +kernel
  have hread : longTree.read [] ⟨.relative, [longDir, longFile]⟩ = .ok (Utf8.encode "unittest") :=
    FileTree.read_nested isPlain_longDir isPlain_longFile (by decide +kernel) (by decide +kernel)
      hdirectory hfile rfl
  have hmain : Source.declaresEntryPoint (Text.ofContent (Utf8.encode "unittest")) = false := by
    decide +kernel
  have htests : Source.hasTestBlock (Text.ofContent (Utf8.encode "unittest")) = true := by
    decide +kernel
  have hsource : Source.ofContent longSource.path (.ok (Utf8.encode "unittest")) = longSource := by
    rw [Source.ofContent, Source.ofText, hmain, htests]
    rfl
  rw [Source.classify?]
  simp only [join_longSource]
  rw [hasNul_longSource, hread, hsource, if_neg Bool.false_ne_true]

theorem namesHarness_longSource : Recursion.namesHarness longSource.path = false := by
  have hname : Path.name ⟨.relative, [longDir, longFile]⟩ = longFile := rfl
  have hstem : Path.stem ⟨.relative, [longDir, longFile]⟩ =
      String.ofList (List.replicate 130 'q') := by
    rw [Path.stem, hname, Coverage.toList_longFile]
    decide +kernel
  simp only [Recursion.namesHarness, isSwitch_longSource, ofString_longSource, hname, hstem]
  decide +kernel

theorem reason_long :
    Recursion.reason? longInvocation longHarness.environment
      longHarness.settings.recursionMarker = none := by
  have hmarker : (Dictionary.get? longHarness.environment
      longHarness.settings.recursionMarker).getD "" = "" := rfl
  have hrepeated : Recursion.repeatedSwitch? longInvocation = none := by
    simp only [Recursion.repeatedSwitch?, Invocation.countSwitch, switches_long]
    decide
  have hcoverage : Recursion.namesHarness "-cov" = false := by decide
  have hrun : Recursion.namesHarness "-run" = false := by decide
  simp [Recursion.reason?, hmarker, hrepeated, compilerArguments_long, hcoverage, hrun,
    namesHarness_longSource]

theorem mem_of_mem_keepSanitizer {a : String} {keep : Bool} {args : List String}
    (h : a ∈ Arguments.keepSanitizer keep args) : a ∈ args := by
  unfold Arguments.keepSanitizer at h
  split at h
  · exact h
  · exact (List.mem_filter.1 h).1

theorem mem_of_mem_withSwitch {a switch : String} {args : List String}
    (h : a ∈ Arguments.withSwitch switch args) : a = switch ∨ a ∈ args := by
  unfold Arguments.withSwitch at h
  split at h
  · exact .inr h
  · exact List.mem_cons.1 h

theorem mem_command {a : String} {pass : Pass} {st : Settings} (hpass : pass ≠ .lint)
    (ha : a ∈ Task.commandFor pass inv p st) :
    a ∈ Task.front p ∨ a = Task.programText (p.program pass) ∨ a = compileOnlySwitch ∨
      a = allowDeprecatedSwitch ∨ a ∈ inv.arguments := by
  cases pass with
  | lint => exact absurd rfl hpass
  | check =>
    rcases List.mem_append.1 ha with ha | ha
    · exact .inl ha
    rcases List.mem_cons.1 ha with ha | ha
    · exact .inr (.inl ha)
    rcases mem_of_mem_withSwitch ha with ha | ha
    · exact .inr (.inr (.inl ha))
    · have hargument := (List.mem_filter.1 (mem_of_mem_keepSanitizer ha)).1
      exact .inr (.inr (.inr (.inr (List.mem_append_left _ hargument))))
  | run =>
    rcases List.mem_append.1 ha with ha | ha
    · exact .inl ha
    rcases List.mem_cons.1 ha with ha | ha
    · exact .inr (.inl ha)
    rcases List.mem_append.1 ha with ha | ha
    · rcases mem_of_mem_withSwitch ha with ha | ha
      · exact .inr (.inr (.inr (.inl ha)))
      · have hargument := mem_of_mem_keepSanitizer ha
        exact .inr (.inr (.inr (.inr (List.mem_append_left _ hargument))))
    · exact .inr (.inr (.inr (.inr (List.mem_append_right _ ha))))

theorem compiler_found :
    longHarness.settings.checkCompilers.findSome?
      ((longHarness.start longTree).resolver.answer longTree []) =
        some (Path.ofString "bin/dmd") := by
  decide +kernel

theorem runCompiler_found :
    Plan.runCompiler longTree [] longHarness.settings longInvocation
      (longHarness.start longTree).resolver = some (Path.ofString "bin/dmd") := by
  have hplain : longInvocation.sanitizerSwitches = [] := by
    rw [Invocation.sanitizerSwitches, switches_long]
    decide
  rw [Plan.runCompiler, if_pos hplain]
  exact compiler_found

structure LongPlan (p : Plan) : Prop where
  run : p.run = true
  lint : p.lint = false
  coverage : p.coverage = true
  sources : p.sources = [longSource]
  checkProgram : p.checkProgram = some (Path.ofString "bin/dmd")
  runProgram : p.runProgram = some (Path.ofString "bin/dmd")
  allocator : p.allocator = none
  demangler : p.demangler = none

theorem longPlan {v : Session}
    (hplan : longHarness.plan longInvocation (longHarness.start longTree) = .ok p v) :
    LongPlan p := by
  obtain ⟨resolver, hmake, _⟩ := plan_ok hplan
  obtain ⟨sources, hsources, _, hmade, _⟩ := Plan.ofInvocation_ok hmake
  have hclassify : Source.classify? (longHarness.start longTree).tree longHarness.workingDir
      longHarness.dir longSource.path = some longSource := classify_longSource
  rw [sourcePaths_long, List.mapM_cons, List.mapM_nil, hclassify] at hsources
  cases hsources
  have hruns : Plan.runsTests longInvocation [longSource] = true := by
    rw [Plan.runsTests, Invocation.requestsRun, Invocation.hasSwitch, switches_long]
    decide
  have hcoverage : longInvocation.requestsCoverage = true := by
    rw [Invocation.requestsCoverage, Invocation.hasSwitch, switches_long]
    rfl
  have hrun : p.run = true := hmade.run.trans hruns
  have hrunProgram : p.runProgram = some (Path.ofString "bin/dmd") := by
    rw [hmade.runProgram, if_pos hrun]
    exact runCompiler_found
  have hlinter : p.lintProgram = none := hmade.lintProgram
  exact {
    run := hrun
    lint := by rw [hmade.lint, hlinter]; rfl
    coverage := hmade.coverage.trans hcoverage
    sources := hmade.sources
    checkProgram := hmade.checkProgram.trans compiler_found
    runProgram := hrunProgram
    allocator := (Except.ok.inj hmade.allocator).symm
    demangler := hmade.demangler
  }

theorem LongPlan.fault (hp : LongPlan p) {pass : Pass} {task : Task}
    (hbuild : Task.build pass longInvocation p longHarness.settings longHarness.dir
      longHarness.environment = .ok task) :
    task.fault? (task.environment longHarness.environment) = none := by
  have hpass : pass ≠ .lint := by
    rintro rfl
    obtain ⟨heligible, _⟩ := build_ok hbuild
    rw [Plan.isEligible, hp.lint] at heligible
    cases heligible
  have hprogram : Task.programText (p.program pass) = "bin/dmd" := by
    cases pass with
    | lint => exact absurd rfl hpass
    | check => rw [Plan.program, hp.checkProgram]; decide
    | run => rw [Plan.program, hp.runProgram]; decide
  have hlong : Task.hasNul longSource.path = false := by
    rw [Task.hasNul, Coverage.toList_longSource]
    decide +kernel
  have hbindings : Task.bindingsFor pass p longHarness.settings longHarness.environment =
      [("XDMD_ACTIVE", "1")] := by
    unfold Task.bindingsFor
    rw [hp.allocator]
    cases pass <;> rfl
  rw [Task.build] at hbuild
  split at hbuild
  case isFalse => cases hbuild
  cases hbuild
  have hcommand : (Task.commandFor pass longInvocation p longHarness.settings).any Task.hasNul =
      false := by
    rw [List.any_eq_false]
    intro a ha
    rcases mem_command hpass ha with ha | rfl | rfl | rfl | ha
    · rw [Task.front, hp.demangler] at ha
      cases ha
    · rw [hprogram]
      decide
    · decide
    · decide
    · have harguments : longInvocation.arguments = ["-cov", "-run", longSource.path] := rfl
      rw [harguments] at ha
      simp only [List.mem_cons, List.not_mem_nil, or_false] at ha
      rcases ha with rfl | rfl | rfl
      · decide
      · decide
      · rw [hlong]
        decide
  simp only [Task.fault?, Task.environment, hbindings, hcommand]
  decide

theorem isFile_long :
    longTree.isFile [] (Coverage.listingAt (Path.ofString ".") longSource.path) =
      .error .nameTooLong :=
  Coverage.isFile_longSource rfl rfl rfl

theorem process_longSource :
    Coverage.process [] (Path.ofString ".") [longSource] longTree =
      .error .nameTooLong longTree := by
  rw [Coverage.process, List.foldlM_cons,
    Effect.bind_of_error (Coverage.processOne_refused Coverage.isSurveyed_longSource isFile_long {})]

theorem unaskable_long {t : FileTree} {e : Errno}
    (h : Coverage.Unaskable [] (Path.ofString ".") [longSource] longTree t e) :
    e = .nameTooLong := by
  cases h with
  | reporting hstopped =>
    obtain ⟨before, x, after, hsources, hprocess, _, hfile⟩ := hstopped
    cases before with
    | nil =>
      obtain ⟨hx, _⟩ := List.cons.inj hsources
      obtain ⟨_, rfl⟩ := EStateM.Result.ok.inj hprocess
      rw [← hx] at hfile
      exact Except.error.inj (hfile.symm.trans isFile_long)
    | cons => simp at hsources
  | cleaning hprocess => cases process_longSource.symm.trans hprocess

/-- The survey keeps the run from coming to its end. -/
theorem LongPlan.finishAll_ne_ok (hp : LongPlan p) (htree : s.tree = longTree)
    (hshape : l.run.isSome = p.run ∧ l.lint.isSome = p.lint)
    (hquiet : ∀ r ∈ l.started, r.child.finish = fun t => (⟨0, [], []⟩, t)) {check : Outcome}
    {result : Result} : longHarness.finishAll p l check s ≠ .ok result u := by
  intro hf
  obtain ⟨hrun, hlint⟩ := hshape
  rw [hp.run, Option.isSome_iff_exists] at hrun
  rw [hp.lint, Option.isSome_eq_false_iff, Option.isNone_iff_eq_none] at hlint
  obtain ⟨r, hr⟩ := hrun
  have hfinish := hquiet r (by simp [Launched.started, hr])
  obtain ⟨_, _, _, _, _, hlinted, hran, _, _⟩ := finishAll_ok hf
  rw [hlint] at hlinted
  cases hlinted
  rw [hr] at hran
  cases hran with
  | unsurveyed hskipped =>
    rw [hp.run, hp.coverage, outcome_quiet hfinish] at hskipped
    cases hskipped
  | surveyed _ hsurvey =>
    rw [leaves_quiet hfinish, htree, hp.sources] at hsurvey
    obtain ⟨_, _, hprocess, _⟩ := Effect.bind_ok hsurvey
    cases process_longSource.symm.trans hprocess

/-- Both tasks succeed, and the run breaks off all the same. -/
theorem run_breaks_off :
    ∃ u, longHarness.run longArguments (longHarness.start longTree) =
      .error (.system .nameTooLong) u := by
  cases hr : longHarness.run longArguments (longHarness.start longTree) with
  | error e u =>
    suffices he : e = .system .nameTooLong from ⟨u, by rw [he]⟩
    rcases run_error hr with ⟨reason, rfl, hreported⟩ | hunforeseen
    · cases hreported with
      | recursion hreason =>
        have hnone := reason_long
        rw [longInvocation, hreason] at hnone
        cases hnone
      | noCheck hnone => cases compiler_found.symm.trans hnone
      | noRun hnone => cases runCompiler_found.symm.trans hnone
      | launch habandoned =>
        obtain ⟨_, _, _, _, _, _, hspawn, _⟩ := habandoned.files
        cases hspawn
    · cases hunforeseen with
      | source harg hnul =>
        have hpath := List.mem_singleton.1 (sourcePaths_long ▸ harg)
        rw [hpath] at hnul
        cases hasNul_longSource.symm.trans (join_longSource ▸ hnul)
      | allocator hpath => cases hpath
      | binding hplan hbuild hfault => cases ((longPlan hplan).fault hbuild).symm.trans hfault
      | task hplan hbuild hfault => cases ((longPlan hplan).fault hbuild).symm.trans hfault
      | lint _ hstarts hlint hline =>
        refine absurd hline (not_unreadable ((hstarts.quiet rfl).2 _ ?_) _ _)
        simp [Launched.started, hlint]
      | @survey _ _ l t _ _ hplan hstarts _ _ hunaskable =>
        obtain ⟨hleft, hquiet⟩ := hstarts.quiet rfl
        have hsettled : Running.settled l.awaited t = longTree := by
          refine (settled_quiet (fun r hr => hquiet r ?_) t).trans hleft
          exact l.awaited_perm.mem_iff.1 hr
        rw [(longPlan hplan).sources, hsettled] at hunaskable
        rw [unaskable_long hunaskable]
      | output _ _ _ hrefused => cases hrefused.symm.trans (takes_of_prints (fun _ => rfl) _)
  | ok r u =>
    unfold run at hr
    obtain ⟨p, v, hplan, hr⟩ := Effect.bind_ok hr
    have hp := longPlan hplan
    obtain ⟨hc, _, htree, _⟩ := plan_made hplan
    obtain ⟨l, w, hlaunch, hr⟩ := Effect.bind_ok hr
    obtain ⟨hstarts, _, _⟩ := launchAll_ok hc hlaunch
    obtain ⟨hleft, hquiet⟩ := hstarts.quiet rfl
    have hlate : longHarness.settings.exitEarly = false := rfl
    obtain ⟨check, x, hfinish, hr⟩ := Effect.bind_ok hr
    obtain ⟨_, rfl, rfl⟩ := finishCheck_ok hfinish
    rw [hlate, Bool.and_false, if_neg Bool.false_ne_true] at hr
    have hcheck := leaves_quiet (hquiet l.check List.mem_cons_self) w.tree
    have hlong : w.tree = longTree := hleft.trans htree
    exact absurd hr (hp.finishAll_ne_ok (hcheck.trans hlong) (launchAll_shape hlaunch) hquiet)

end TriplePass.Harness

import TriplePass.Proofs.Plan.Sanitizer

/-! # Coherent plans

The fields of a plan are computed apart from each other, and tasks are built from them without
another look: a program that a plan lacks would be written out as if it were one. In a plan as
planning makes it the passes that may run are those that have a program, and as soon as there are
two of them their output is captured.
-/
namespace TriplePass.Plan
variable {t : FileTree} {workingDir : Place} {s : Settings} {env : Environment}
  {inv : Invocation} {sources : List Source} {r u : Resolver} {p : Plan} {pass other : Pass}
  {path : Path} {dir : Path} {parent : Environment} {task : Task}

def resolved (t : FileTree) (workingDir : Place) (s : Settings) (inv : Invocation)
    (r : Resolver) : Pass → Option Path
  | .check => s.checkCompilers.findSome? (r.answer t workingDir)
  | .run => runCompiler t workingDir s inv r
  | .lint => linterFor t workingDir s inv r

def frontFor (p : Plan) : Pass → List String
  | .check | .run => (p.demangler.map Path.toString).toList
  | .lint => []

theorem mem_eligible : pass ∈ p.eligible ↔ p.isEligible pass = true := by
  have hmem : pass ∈ Pass.waitOrder := by cases pass <;> decide
  rw [eligible, List.mem_filter]
  exact and_iff_right hmem

/-! ### Which passes there are -/

theorem requestsRun_iff : inv.requestsRun = true ↔ runSwitch ∈ inv.compilerArguments := by
  have hswitch : isSwitch runSwitch = true := by decide
  simp [Invocation.requestsRun, Invocation.hasSwitch, Invocation.switches, hswitch]

theorem runsTests_iff : runsTests inv sources = true ↔
    runSwitch ∈ inv.compilerArguments ∧ ∀ source ∈ sources, source.skipsRun = false := by
  rw [runsTests, Bool.and_eq_true, requestsRun_iff]
  simp

theorem linterFor_eq_some : linterFor t workingDir s inv r = some path ↔
    ∃ linter, s.linter = some linter ∧ linter ≠ "" ∧ inv.sourcePaths ≠ [] ∧
      r.answer t workingDir linter = some path := by
  simp only [linterFor, Option.bind_eq_some_iff, Option.filter_eq_some_iff, Bool.and_eq_true,
    bne_iff_ne, Bool.not_eq_true', List.isEmpty_eq_false_iff]
  constructor
  · rintro ⟨linter, ⟨hlinter, hname, hsources⟩, hanswer⟩
    exact ⟨linter, hlinter, hname, hsources, hanswer⟩
  · rintro ⟨linter, hlinter, hname, hsources, hanswer⟩
    exact ⟨linter, ⟨hlinter, hname, hsources⟩, hanswer⟩

theorem Made.program_eq (hmade : Made t workingDir s inv sources r p) (pass : Pass) :
    p.program pass = if p.isEligible pass then resolved t workingDir s inv r pass else none := by
  cases pass with
  | check => rw [isEligible, hmade.check, if_pos rfl, program, hmade.checkProgram, resolved]
  | run => rw [isEligible, program, hmade.runProgram, resolved]
  | lint =>
    rw [isEligible, program, hmade.lint, hmade.lintProgram, resolved]
    cases linterFor t workingDir s inv r <;> rfl

/-- A pass has a program exactly if it is eligible. -/
theorem Made.isSome_program (hmade : Made t workingDir s inv sources r p) (pass : Pass) :
    (p.program pass).isSome = p.isEligible pass := by
  cases pass with
  | check => exact hmade.checkFound.trans hmade.check.symm
  | run =>
    cases hrun : p.run with
    | true => exact (hmade.runFound hrun).trans hrun.symm
    | false =>
      rw [program, hmade.runProgram, hrun, isEligible, hrun]
      rfl
  | lint => exact hmade.lint.symm

theorem Made.exists_program (hmade : Made t workingDir s inv sources r p)
    (hpass : p.isEligible pass = true) :
    ∃ path, p.program pass = some path ∧ resolved t workingDir s inv r pass = some path := by
  obtain ⟨path, hpath⟩ := Option.isSome_iff_exists.1 ((hmade.isSome_program pass).trans hpass)
  have hprogram := hmade.program_eq pass
  rw [if_pos hpass, hpath] at hprogram
  exact ⟨path, hpath, hprogram.symm⟩

/-! ### Their tasks -/

/-- With a program, the command of a pass starts with the path of it, behind what stands in
front. -/
theorem front_prefix_commandFor (hpath : p.program pass = some path) :
    p.frontFor pass ++ [path.toString] <+: Task.commandFor pass inv p s := by
  have hcompiler (hpass : Compiles pass) :
      Task.front p ++ [path.toString] <+: Task.commandFor pass inv p s := by
    rw [commandFor_eq hpass hpath, List.append_cons _ _ (_ ++ _)]
    exact List.prefix_append _ _
  cases pass with
  | check => exact hcompiler (.inl rfl)
  | run => exact hcompiler (.inr rfl)
  | lint =>
    have hlint : p.lintProgram = some path := hpath
    rw [Task.commandFor, hlint]
    exact List.prefix_append [path.toString] _

theorem build_eligible (hpass : p.isEligible pass = true) :
    Task.build pass inv p s dir parent = .ok {
      pass
      command := Task.commandFor pass inv p s
      bindings := Task.bindingsFor pass p s parent
      dir
      redirection := p.redirection } := by
  rw [Task.build, if_pos hpass]

theorem build_ineligible (hpass : p.isEligible pass = false) :
    Task.build pass inv p s dir parent = .error (.ineligible pass) := by
  rw [Task.build, hpass, if_neg Bool.false_ne_true]

theorem build_eq_error_iff :
    Task.build pass inv p s dir parent = .error (.ineligible pass) ↔ pass ∉ p.eligible := by
  rw [mem_eligible]
  cases hpass : p.isEligible pass with
  | true => simp [build_eligible hpass]
  | false => simp [build_ineligible hpass]

/-- The command of a task that is built starts with the program that was found for its pass. -/
theorem Made.task_command (hmade : Made t workingDir s inv sources r p) (hpass : pass ∈ p.eligible)
    (dir : Path) (parent : Environment) :
    ∃ task path, Task.build pass inv p s dir parent = .ok task ∧
      resolved t workingDir s inv r pass = some path ∧
      p.frontFor pass ++ [path.toString] <+: task.command := by
  obtain ⟨path, hpath, hresolved⟩ := hmade.exists_program (mem_eligible.1 hpass)
  exact ⟨_, path, build_eligible (mem_eligible.1 hpass), hresolved, front_prefix_commandFor hpath⟩

theorem Made.captured_iff (hmade : Made t workingDir s inv sources r p) :
    p.redirection = .capture ↔ p.run = true ∨ p.lint = true := by
  rw [hmade.redirection, ← Bool.or_eq_true]
  cases p.run || p.lint <;> simp

/-- Only the check runs by itself. -/
theorem Made.captured_of_two (hmade : Made t workingDir s inv sources r p) (hne : pass ≠ other)
    (hpass : p.isEligible pass = true) (hother : p.isEligible other = true) :
    p.redirection = .capture := by
  rw [hmade.captured_iff]
  cases pass with
  | run => exact .inl hpass
  | lint => exact .inr hpass
  | check =>
    cases other with
    | check => exact absurd rfl hne
    | run => exact .inl hother
    | lint => exact .inr hother

theorem redirection_of_build (h : Task.build pass inv p s dir parent = .ok task) :
    p.isEligible pass = true ∧ task.redirection = p.redirection := by
  cases hpass : p.isEligible pass with
  | true =>
    rw [build_eligible hpass] at h
    cases h
    exact ⟨rfl, rfl⟩
  | false =>
    rw [build_ineligible hpass] at h
    cases h

/-! ### The whole plan -/

structure Coherent (t : FileTree) (workingDir : Place) (s : Settings) (inv : Invocation)
    (sources : List Source) (r : Resolver) (p : Plan) : Prop where
  check : p.check = true
  run : p.run = true ↔
    runSwitch ∈ inv.compilerArguments ∧ ∀ source ∈ sources, source.skipsRun = false
  lint : p.lint = true ↔ ∃ linter, s.linter = some linter ∧ linter ≠ "" ∧ inv.sourcePaths ≠ [] ∧
    (r.answer t workingDir linter).isSome = true
  program : ∀ pass, (p.program pass).isSome = p.isEligible pass
  captured : p.redirection = .capture ↔ p.run = true ∨ p.lint = true
  /-- Two tasks never write to the streams of the harness side by side. -/
  apart : ∀ pass other dir parent task task', pass ≠ other →
    Task.build pass inv p s dir parent = .ok task →
    Task.build other inv p s dir parent = .ok task' →
    task.redirection = .capture ∧ task'.redirection = .capture
  refused : ∀ pass dir parent,
    Task.build pass inv p s dir parent = .error (.ineligible pass) ↔ pass ∉ p.eligible
  command : ∀ pass ∈ p.eligible, ∀ dir parent, ∃ task path,
    Task.build pass inv p s dir parent = .ok task ∧
      resolved t workingDir s inv r pass = some path ∧
      p.frontFor pass ++ [path.toString] <+: task.command

/-- Every plan that planning makes is coherent. -/
theorem make_coherent (h : make t workingDir s env inv sources r = .ok p u) :
    Coherent t workingDir s inv sources r p := by
  obtain ⟨-, hmade, -⟩ := make_ok h
  refine {
    check := hmade.check
    run := hmade.run ▸ runsTests_iff
    lint := ?_
    program := hmade.isSome_program
    captured := hmade.captured_iff
    apart := ?_
    refused := fun _ _ _ => build_eq_error_iff
    command := fun pass hpass => hmade.task_command hpass }
  · rw [hmade.lint, hmade.lintProgram, Option.isSome_iff_exists]
    simp only [linterFor_eq_some, Option.isSome_iff_exists]
    constructor
    · rintro ⟨path, linter, hlinter, hname, hsources, hanswer⟩
      exact ⟨linter, hlinter, hname, hsources, path, hanswer⟩
    · rintro ⟨linter, hlinter, hname, hsources, path, hanswer⟩
      exact ⟨path, linter, hlinter, hname, hsources, hanswer⟩
  · intro pass other dir parent task task' hne htask htask'
    obtain ⟨hpass, hred⟩ := redirection_of_build htask
    obtain ⟨hother, hred'⟩ := redirection_of_build htask'
    have hcapture := hmade.captured_of_two hne hpass hother
    exact ⟨hred.trans hcapture, hred'.trans hcapture⟩

def equippedTree : FileTree where
  entries :=
    [(["bin"], .directory), (["bin", "dmd"], .file true []), (["bin", "dscanner"], .file true []),
      (["bin", "ddemangled"], .file true [])]

/-- With all three passes and the demangler planned, the commands start as they should. -/
theorem make_coherent_equipped :
    ∃ p u, make equippedTree [] {} [] (.ofArguments ["-run", "lib.d"]) [⟨"lib.d", false, true⟩]
        { directories := [Path.ofString "bin"] } = .ok p u ∧
      p.eligible = [.check, .lint, .run] ∧ p.demangler = some (Path.ofString "bin/ddemangled") ∧
      Coherent equippedTree [] {} (.ofArguments ["-run", "lib.d"]) [⟨"lib.d", false, true⟩]
        { directories := [Path.ofString "bin"] } p := by
  have hplan : ∃ p u, make equippedTree [] {} [] (.ofArguments ["-run", "lib.d"])
      [⟨"lib.d", false, true⟩] { directories := [Path.ofString "bin"] } = .ok p u ∧
      p.eligible = [.check, .lint, .run] ∧ p.demangler = some (Path.ofString "bin/ddemangled") :=
    ⟨_, _, rfl, rfl, rfl⟩
  obtain ⟨p, u, hplan, heligible, hdemangler⟩ := hplan
  exact ⟨p, u, hplan, heligible, hdemangler, make_coherent hplan⟩

end TriplePass.Plan

import TriplePass.Harness

/-! # Program arguments stay with the program

Two invocations with the same compiler arguments are planned alike and build alike, whatever
arguments their programs are given: only the command of the run carries those, at its end.
-/
namespace TriplePass

theorem splitAtRun_run {front : List String} (hfront : runSwitch ∉ front) (file : String)
    (program : List String) :
    splitAtRun (front ++ [runSwitch, file] ++ program) = (front ++ [runSwitch, file], program) := by
  induction front with
  | nil => simp [splitAtRun]
  | cons arg front ih =>
    have harg : arg ≠ runSwitch := fun h => hfront (h ▸ List.mem_cons_self)
    have hrest : runSwitch ∉ front := fun h => hfront (List.mem_cons_of_mem arg h)
    rw [List.cons_append, List.cons_append, splitAtRun, if_neg harg, ih hrest]

namespace Invocation

theorem ofArguments_run {front : List String} (hfront : runSwitch ∉ front) (file : String)
    (program : List String) :
    ofArguments (front ++ [runSwitch, file] ++ program) =
      ⟨front ++ [runSwitch, file], program⟩ := by
  rw [ofArguments, splitAtRun_run hfront]

/-- Two invocations that differ in nothing but what their programs are given. -/
def SameBuild (a b : Invocation) : Prop :=
  a.compilerArguments = b.compilerArguments

namespace SameBuild
variable {a b : Invocation}

theorem switches (hab : a.SameBuild b) : a.switches = b.switches :=
  congrArg (List.filter isSwitch) hab

theorem sourcePaths (hab : a.SameBuild b) : a.sourcePaths = b.sourcePaths :=
  congrArg (List.filter Source.isArgument) hab

theorem importDirs (hab : a.SameBuild b) : a.importDirs = b.importDirs :=
  congrArg (List.filterMap importDir?) hab.switches

theorem requestsRun (hab : a.SameBuild b) : a.requestsRun = b.requestsRun := by
  unfold Invocation.requestsRun hasSwitch
  rw [hab.switches]

theorem requestsCoverage (hab : a.SameBuild b) : a.requestsCoverage = b.requestsCoverage := by
  unfold Invocation.requestsCoverage hasSwitch hasSwitchFrom
  rw [hab.switches]

theorem sanitizerSwitches (hab : a.SameBuild b) : a.sanitizerSwitches = b.sanitizerSwitches :=
  congrArg (List.filter isSanitizer) hab.switches

theorem repeatedSwitch? (hab : a.SameBuild b) :
    Recursion.repeatedSwitch? a = Recursion.repeatedSwitch? b := by
  unfold Recursion.repeatedSwitch? countSwitch
  rw [hab.switches]

theorem reason? (hab : a.SameBuild b) (env : Environment) (marker : String) :
    Recursion.reason? a env marker = Recursion.reason? b env marker := by
  unfold Recursion.reason?
  rw [hab.repeatedSwitch?, hab]

variable (t : FileTree) (workingDir : Place) (s : Settings)

theorem runsTests (hab : a.SameBuild b) (sources : List Source) :
    Plan.runsTests a sources = Plan.runsTests b sources := by
  unfold Plan.runsTests
  rw [hab.requestsRun]

theorem runProgramFor (hab : a.SameBuild b) :
    Plan.runProgramFor t workingDir s a = Plan.runProgramFor t workingDir s b := by
  unfold Plan.runProgramFor
  rw [hab.sanitizerSwitches]

theorem lintProgramFor (hab : a.SameBuild b) :
    Plan.lintProgramFor t workingDir s a = Plan.lintProgramFor t workingDir s b := by
  unfold Plan.lintProgramFor
  rw [hab.sourcePaths]

theorem make (hab : a.SameBuild b) (env : Environment) (sources : List Source) :
    Plan.make t workingDir s env a sources = Plan.make t workingDir s env b sources := by
  unfold Plan.make Plan.refuseRecursion
  rw [hab.reason?, hab.runsTests, hab.runProgramFor, hab.lintProgramFor, hab.requestsCoverage]

theorem ofInvocation (hab : a.SameBuild b) (env : Environment) (dir : Path) :
    Plan.ofInvocation t workingDir s env dir a = Plan.ofInvocation t workingDir s env dir b := by
  have hmake := funext (hab.make t workingDir s env)
  unfold Plan.ofInvocation
  rw [hab.sourcePaths, hmake]

theorem plan (hab : a.SameBuild b) (h : Harness) (session : Session) :
    h.plan a session = h.plan b session := by
  unfold Harness.plan
  simp only [hab.ofInvocation]

variable (p : Plan) (dir : Path) (parent : Environment)

theorem build_check (hab : a.SameBuild b) :
    Task.build .check a p s dir parent = Task.build .check b p s dir parent := by
  unfold Task.build Task.commandFor
  rw [hab]

theorem build_lint (hab : a.SameBuild b) :
    Task.build .lint a p s dir parent = Task.build .lint b p s dir parent := by
  unfold Task.build Task.commandFor Arguments.lint
  rw [hab.importDirs, hab.sourcePaths]

end SameBuild
end Invocation

namespace Task

def runFront (inv : Invocation) (p : Plan) : List String :=
  front p ++ programText p.runProgram :: Arguments.run p.runSanitized inv.compilerArguments

theorem build_run (inv : Invocation) (p : Plan) (s : Settings) (dir : Path)
    (parent : Environment) :
    build .run inv p s dir parent =
      if p.run then
        .ok ⟨.run, runFront inv p ++ inv.programArguments, bindingsFor .run p s parent, dir,
          p.redirection⟩
      else .error (.ineligible .run) := by
  unfold build runFront
  cases hrun : p.run with
  | true => simp [Plan.isEligible, hrun, commandFor]
  | false => simp [Plan.isEligible, hrun]

end Task

namespace Invocation

/-- Two invocations that differ in the arguments `p` and `q` of their programs, and in what these
are handed to. -/
structure Confined (a b : Invocation) (p q : List String) : Prop where
  program : a.programArguments = p ∧ b.programArguments = q
  compilerArguments : a.compilerArguments = b.compilerArguments
  switches : a.switches = b.switches
  sourcePaths : a.sourcePaths = b.sourcePaths
  importDirs : a.importDirs = b.importDirs
  /-- The same plan or the same failure, and the session is left alike. -/
  plan : ∀ (h : Harness) (s : Session), h.plan a s = h.plan b s
  check : ∀ plan s dir parent,
    Task.build .check a plan s dir parent = Task.build .check b plan s dir parent
  lint : ∀ plan s dir parent,
    Task.build .lint a plan s dir parent = Task.build .lint b plan s dir parent
  run : ∀ (plan : Plan) (s : Settings) (dir : Path) (parent : Environment), plan.run = true →
    ∃ (common : List String) (bindings : Environment),
      Task.build .run a plan s dir parent =
        .ok ⟨.run, common ++ p, bindings, dir, plan.redirection⟩ ∧
      Task.build .run b plan s dir parent =
        .ok ⟨.run, common ++ q, bindings, dir, plan.redirection⟩
  ineligible : ∀ (plan : Plan) (s : Settings) (dir : Path) (parent : Environment),
    plan.run = false →
      Task.build .run a plan s dir parent = .error (.ineligible .run) ∧
      Task.build .run b plan s dir parent = .error (.ineligible .run)

theorem SameBuild.confined {a b : Invocation} (hab : a.SameBuild b) :
    Confined a b a.programArguments b.programArguments where
  program := ⟨rfl, rfl⟩
  compilerArguments := hab
  switches := hab.switches
  sourcePaths := hab.sourcePaths
  importDirs := hab.importDirs
  plan := hab.plan
  check plan s dir parent := hab.build_check s plan dir parent
  lint plan s dir parent := hab.build_lint s plan dir parent
  run plan s dir parent hrun := by
    refine ⟨Task.runFront a plan, Task.bindingsFor .run plan s parent, ?_, ?_⟩
    · rw [Task.build_run, if_pos hrun]
    · have hfront : Task.runFront b plan = Task.runFront a plan := by
        unfold Task.runFront
        rw [hab]
      rw [Task.build_run, if_pos hrun, hfront]
  ineligible plan s dir parent hrun := by
    have hnot : ¬plan.run = true := by simp [hrun]
    constructor
    · rw [Task.build_run, if_neg hnot]
    · rw [Task.build_run, if_neg hnot]

/-- What follows the run file reaches the program and nothing else. -/
theorem programArguments_confined {front : List String} (hfront : runSwitch ∉ front)
    (file : String) (p q : List String) :
    (ofArguments (front ++ [runSwitch, file] ++ p)).arguments =
        front ++ [runSwitch, file] ++ p ∧
      (ofArguments (front ++ [runSwitch, file] ++ q)).arguments =
        front ++ [runSwitch, file] ++ q ∧
      Confined (ofArguments (front ++ [runSwitch, file] ++ p))
        (ofArguments (front ++ [runSwitch, file] ++ q)) p q := by
  refine ⟨arguments_ofArguments _, arguments_ofArguments _, ?_⟩
  rw [ofArguments_run hfront, ofArguments_run hfront]
  have hab : SameBuild ⟨front ++ [runSwitch, file], p⟩ ⟨front ++ [runSwitch, file], q⟩ := rfl
  exact hab.confined

/-- Not even a second run switch, or a source, behind the run file is seen by the compiler. -/
theorem programArguments_confined_unittest :
    runSwitch ∉ ["-unittest"] ∧
      Confined (ofArguments ["-unittest", "-run", "a.d", "-run", "-cov"])
        (ofArguments ["-unittest", "-run", "a.d", "x.d"]) ["-run", "-cov"] ["x.d"] :=
  have hfront : runSwitch ∉ ["-unittest"] := by decide
  ⟨hfront, (programArguments_confined hfront "a.d" ["-run", "-cov"] ["x.d"]).2.2⟩

end Invocation
end TriplePass

import TriplePass.Program
import TriplePass.Proofs.Plan.Making
import TriplePass.Proofs.Resolver.Found
import TriplePass.Proofs.Task.Environment

/-! # The program that a task executes

Planning finds the tools of a task with the search path of the harness, and the system looks for
them again when the task is started: a path with a slash is taken as it stands, while a single name
is searched for with the child's own search path. So a tool that was found in the working directory
itself may be missed, or another one executed in its place; any other tool is the one that was found.
-/
namespace TriplePass.Task
open Resolver (program? Current Searchable IsBare)

variable {t : FileTree} {workingDir place : Place} {s : Settings} {parent env : Environment}
  {inv : Invocation} {sources : List Source} {r u : Resolver} {p : Plan} {pass : Pass} {task : Task}
  {dir path : Path} {name : String}

def searched? (t : FileTree) (workingDir : Place) (env : Environment) (name : String) :
    Option Place :=
  ((Text.fields Resolver.listSeparator ((Dictionary.get? env Resolver.searchVariable).getD
    Script.defaultSearchPath)).map (Resolver.below · name)).findSome? (program? t workingDir)

def executed? (t : FileTree) (workingDir : Place) (task : Task) (env : Environment) :
    Option Place :=
  (Program.enter t workingDir task.dir).toOption.bind fun dir =>
    task.command.head?.bind fun name => (Script.candidates env name).findSome? (program? t dir)

def tool (p : Plan) : Pass → Option Path
  | .lint => p.lintProgram
  | .check => p.demangler.or p.checkProgram
  | .run => p.demangler.or p.runProgram

def toolNames (s : Settings) : Pass → List String
  | .lint => s.linter.toList
  | .check => s.demangler :: s.checkCompilers
  | .run => s.demangler :: (s.sanitizerCompilers ++ s.runCompilers)

theorem head_of_tool (hbuild : build pass inv p s dir parent = .ok task)
    (htool : tool p pass = some path) : task.command.head? = some path.toString := by
  unfold build at hbuild
  split at hbuild
  case isFalse => cases hbuild
  cases hbuild
  cases pass with
  | lint =>
    have hlint : p.lintProgram = some path := htool
    rw [commandFor, hlint]
    rfl
  | check =>
    cases hd : p.demangler with
    | none =>
      have hcheck : p.checkProgram = some path := by rwa [tool, hd, Option.none_or] at htool
      rw [commandFor, front, hd, hcheck]
      rfl
    | some demangler =>
      rw [tool, hd, Option.some_or] at htool
      rw [commandFor, front, hd, htool]
      rfl
  | run =>
    cases hd : p.demangler with
    | none =>
      have hrun : p.runProgram = some path := by rwa [tool, hd, Option.none_or] at htool
      rw [commandFor, front, hd, hrun]
      rfl
    | some demangler =>
      rw [tool, hd, Option.some_or] at htool
      rw [commandFor, front, hd, htool]
      rfl

/-- The compiler of a run is found under one of the names that are listed for it. -/
theorem runCompiler_listed
    (h : Plan.runCompiler t workingDir s inv r = some path) :
    ∃ name ∈ s.sanitizerCompilers ++ s.runCompilers, r.answer t workingDir name = some path := by
  have hlisted : ∀ names : List String, names.findSome? (r.answer t workingDir) = some path →
      ∃ name ∈ names, r.answer t workingDir name = some path := fun _ =>
    List.exists_of_findSome?_eq_some
  rw [Plan.runCompiler_eq, Option.or_eq_some_iff] at h
  rcases h with h | ⟨_, h⟩
  · split at h
    · cases h
    · obtain ⟨name, hname, hanswer⟩ := hlisted _ h
      exact ⟨name, List.mem_append_left _ hname, hanswer⟩
  · obtain ⟨name, hname, hanswer⟩ := hlisted _ h
    exact ⟨name, List.mem_append_right _ hname, hanswer⟩

/-- In front of a compiler stands the demangler that was found, or else the compiler. -/
theorem demangled_listed {compiler : Option Path} {names : List String}
    (hmade : Plan.Made t workingDir s inv sources r p)
    (hcompiler : ∃ name ∈ names, ∃ path, compiler = some path ∧
      r.answer t workingDir name = some path) :
    ∃ name ∈ s.demangler :: names, ∃ path, p.demangler.or compiler = some path ∧
      r.answer t workingDir name = some path := by
  cases hd : p.demangler with
  | none =>
    obtain ⟨name, hname, path, hpath, hanswer⟩ := hcompiler
    exact ⟨name, List.mem_cons_of_mem _ hname, path, hpath, hanswer⟩
  | some demangler =>
    have hanswer := hmade.demangler
    rw [hd] at hanswer
    split at hanswer
    · exact ⟨s.demangler, List.mem_cons_self, demangler, rfl, hanswer.symm⟩
    · cases hanswer

theorem tool_listed (hmade : Plan.Made t workingDir s inv sources r p)
    (heligible : p.isEligible pass = true) :
    ∃ name ∈ toolNames s pass, ∃ path, tool p pass = some path ∧
      r.answer t workingDir name = some path := by
  cases pass with
  | lint =>
    have hlint : p.lint = true := heligible
    rw [hmade.lint] at hlint
    obtain ⟨path, hpath⟩ := Option.isSome_iff_exists.1 hlint
    have hfound := hmade.lintProgram
    rw [hpath, Plan.linterFor] at hfound
    obtain ⟨name, hname, hanswer⟩ := Option.bind_eq_some_iff.1 hfound.symm
    obtain ⟨hlinter, _⟩ := Option.filter_eq_some_iff.1 hname
    exact ⟨name, by simp [toolNames, hlinter], path, hpath, hanswer⟩
  | check =>
    refine demangled_listed hmade ?_
    obtain ⟨path, hpath⟩ := Option.isSome_iff_exists.1 hmade.checkFound
    have hfound := hmade.checkProgram
    rw [hpath] at hfound
    obtain ⟨name, hname, hanswer⟩ := List.exists_of_findSome?_eq_some hfound.symm
    exact ⟨name, hname, path, hpath, hanswer⟩
  | run =>
    refine demangled_listed hmade ?_
    have hrun : p.run = true := heligible
    obtain ⟨path, hpath⟩ := Option.isSome_iff_exists.1 (hmade.runFound hrun)
    have hfound := hmade.runProgram
    rw [hpath, if_pos hrun] at hfound
    obtain ⟨name, hname, hanswer⟩ := runCompiler_listed hfound.symm
    exact ⟨name, hname, path, hpath, hanswer⟩

/-- What becomes of the tool that was found for a name when a task is started. -/
structure Launches (t : FileTree) (workingDir : Place) (r : Resolver) (task : Task)
    (env : Environment) (name : String) (path : Path) (place : Place) : Prop where
  found : ∃ candidate ∈ Resolver.candidates r.directories name,
    program? t workingDir candidate = some place ∧ path = Path.ofString candidate
  command : task.command.head? = some path.toString
  /-- It is executed if its path is more than a single name, or if that name leads back to it. -/
  executed_iff : task.executed? t workingDir env = some place ↔
    (path.isAbsolute = true ∨ 2 ≤ path.names.length) ∨
      searched? t workingDir env path.toString = some place
  /-- A bare name leads back to it as long as the search path is the same. -/
  kept : ∀ searchPath, r.directories = (Resolver.ofSearchPath searchPath).directories →
    Dictionary.get? env Resolver.searchVariable = some searchPath → IsBare name →
    (∀ f ∈ Text.fields Resolver.listSeparator searchPath, Searchable name f) →
    task.executed? t workingDir env = some place

theorem executed_eq (hdir : Program.enter t workingDir task.dir = .ok workingDir)
    (hcommand : task.command.head? = some name) (env : Environment) :
    task.executed? t workingDir env =
      if '/' ∈ name.toList then program? t workingDir name
      else searched? t workingDir env name := by
  rw [executed?, hdir, hcommand]
  change (Script.candidates env name).findSome? (program? t workingDir) = _
  unfold Script.candidates Resolver.hasSlash
  by_cases hslash : '/' ∈ name.toList
  · rw [if_pos (List.contains_iff_mem.2 hslash), if_pos hslash]
    simp
  · rw [if_neg (by simpa using hslash), if_neg hslash]
    rfl

/-- Every task that can be built for a plan starts with the path of a tool that was found. -/
theorem tool_launched (hr : r.Current t workingDir)
    (hplan : Plan.make t workingDir s parent inv sources r = .ok p u)
    (hbuild : build pass inv p s dir parent = .ok task)
    (hdir : Program.enter t workingDir task.dir = .ok workingDir) :
    ∃ name ∈ toolNames s pass, ∃ path place, r.answer t workingDir name = some path ∧
      Launches t workingDir r task (task.environment parent) name path place := by
  obtain ⟨_, hmade, _⟩ := Plan.make_ok hplan
  have heligible : p.isEligible pass = true := by
    unfold build at hbuild
    split at hbuild
    · assumption
    · cases hbuild
  obtain ⟨name, hname, path, htool, hanswer⟩ := tool_listed hmade heligible
  have hcommand := head_of_tool hbuild htool
  obtain ⟨candidate, hcandidate, place, hfound, hpath⟩ := hr.answer hanswer
  have hwritten : program? t workingDir path.toString = some place := by
    rw [hpath]
    exact Resolver.program?_toString hfound
  have hexecuted := executed_eq hdir hcommand (task.environment parent)
  have hshape : '/' ∈ path.toString.toList ↔
      path.isAbsolute = true ∨ 2 ≤ path.names.length := by
    rw [hpath]
    exact FileTree.slash_mem_toString_iff candidate
  refine ⟨name, hname, path, place, hanswer, ⟨candidate, hcandidate, hfound, hpath⟩, hcommand,
    ?_, ?_⟩
  · rw [hexecuted, ← hshape]
    by_cases hslash : '/' ∈ path.toString.toList
    · simp [hslash, hwritten]
    · simp [hslash]
  · intro searchPath hdirectories hsearchPath hbare hsearchable
    rw [hexecuted]
    split
    next => exact hwritten
    next hsingle =>
      have hlookup := hr.lookup hanswer
      rw [hdirectories] at hlookup
      obtain ⟨htext, hagain⟩ := Resolver.search_again hbare hsearchable hlookup hsingle
      rw [searched?, hsearchPath, htext, Option.getD_some, hagain, ← htext]
      exact hwritten

/-! ### A compiler in the working directory, and one of the same name on the search path -/

def twinTree : FileTree where
  entries := [(["bin"], .directory), (["bin", "dmd"], .file true []), (["dmd"], .file true [])]

def compiledBy (compiler : String) : Settings :=
  { checkCompilers := [compiler], linter := none, useDemangler := false }

def twinResolver : Resolver :=
  { directories := [Path.ofString "bin"] }

def twinParent : Environment :=
  [("PATH", "bin")]

def twinInvocation : Invocation :=
  .ofArguments ["lib.d"]

def twinPlan (compiler : String) : EStateM.Result Failure Resolver Plan :=
  Plan.make twinTree [] (compiledBy compiler) twinParent twinInvocation [⟨"lib.d", false, false⟩]
    twinResolver

theorem tool_launched_bare :
    twinResolver.Current twinTree [] ∧ ∃ p u task, twinPlan "dmd" = .ok p u ∧
      build .check twinInvocation p (compiledBy "dmd") (Path.ofString ".") twinParent = .ok task ∧
      Program.enter twinTree [] task.dir = .ok [] ∧
      ∃ name ∈ toolNames (compiledBy "dmd") .check, ∃ path place,
        twinResolver.answer twinTree [] name = some path ∧
          Launches twinTree [] twinResolver task (task.environment twinParent) name path place := by
  have hfresh : twinResolver.Current twinTree [] := .fresh _ _ _
  have hplan : ∃ p u task, twinPlan "dmd" = .ok p u ∧
      build .check twinInvocation p (compiledBy "dmd") (Path.ofString ".") twinParent = .ok task ∧
      Program.enter twinTree [] task.dir = .ok [] := ⟨_, _, _, rfl, rfl, rfl⟩
  obtain ⟨p, u, task, hplan, hbuild, hdir⟩ := hplan
  exact ⟨hfresh, p, u, task, hplan, hbuild, hdir, tool_launched hfresh hplan hbuild hdir⟩

/-- The compiler of the working directory is found, and the other one is executed. -/
theorem twin_executed :
    ∃ p u task, twinPlan "./dmd" = .ok p u ∧
      build .check twinInvocation p (compiledBy "./dmd") (Path.ofString ".") twinParent = .ok task ∧
      Program.enter twinTree [] task.dir = .ok [] ∧
      twinResolver.answer twinTree [] "./dmd" = p.checkProgram ∧
      program? twinTree [] "./dmd" = some ["dmd"] ∧
      task.executed? twinTree [] (task.environment twinParent) = some ["bin", "dmd"] :=
  ⟨_, _, _, rfl, rfl, rfl, by decide +kernel, by decide +kernel, by decide +kernel⟩

end TriplePass.Task

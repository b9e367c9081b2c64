import TriplePass.Proofs.Plan.Making
import TriplePass.Proofs.Resolver.Reachable
import TriplePass.Task

/-! # Sanitizer switches and the compilers that honour them

With a sanitizer switch the run is given to the first compiler of a list that is found. Whether it
then sees its switches is decided apart from that, by the last name of its path: a compiler that is
listed with a directory is found and run, but without the switches it was chosen for, unless its
last name is listed as well.
-/
namespace TriplePass

theorem isSwitch_of_isSanitizer {arg : String} (h : isSanitizer arg = true) :
    isSwitch arg = true := by
  have hprefix : sanitizerSwitch.toList <+: arg.toList := List.isPrefixOf_iff_prefix.1 h
  have hdash : "-".toList <+: sanitizerSwitch.toList := by decide
  exact List.isPrefixOf_iff_prefix.2 (hdash.trans hprefix)

theorem Invocation.sanitizerSwitches_eq (inv : Invocation) :
    inv.sanitizerSwitches = inv.compilerArguments.filter isSanitizer := by
  unfold sanitizerSwitches switches
  rw [List.filter_filter]
  refine List.filter_congr fun arg _ => ?_
  cases h : isSanitizer arg with
  | false => rfl
  | true => rw [isSwitch_of_isSanitizer h, Bool.and_true]

namespace Arguments

theorem filter_keepSanitizer (keep : Bool) (args : List String) :
    (keepSanitizer keep args).filter isSanitizer =
      if keep then args.filter isSanitizer else [] := by
  cases keep with
  | true => rfl
  | false =>
    rw [keepSanitizer, if_neg Bool.false_ne_true, if_neg Bool.false_ne_true, List.filter_filter,
      List.filter_eq_nil_iff]
    intro arg _
    cases isSanitizer arg <;> decide

theorem filter_withSwitch {s : String} (hs : isSanitizer s = false) (args : List String) :
    (withSwitch s args).filter isSanitizer = args.filter isSanitizer := by
  unfold withSwitch
  split
  · rfl
  · rw [List.filter_cons_of_neg (by simp [hs])]

theorem filter_run (keep : Bool) (args : List String) :
    (run keep args).filter isSanitizer = if keep then args.filter isSanitizer else [] := by
  have hflag : isSanitizer allowDeprecatedSwitch = false := by decide
  rw [run, filter_withSwitch hflag, filter_keepSanitizer]

/-- The switches that the check drops are none of a sanitizer. -/
theorem filter_executing (args : List String) :
    (args.filter (!requestsExecution ·)).filter isSanitizer = args.filter isSanitizer := by
  rw [List.filter_filter]
  refine List.filter_congr fun arg _ => ?_
  cases hexec : requestsExecution arg with
  | false => simp
  | true =>
    have hsan : isSanitizer arg = false := by
      rcases Bool.or_eq_true_iff.1 hexec with h | h
      · rw [beq_iff_eq.1 h]
        decide
      · rw [beq_iff_eq.1 h]
        decide
    simp [hsan]

theorem filter_check (keep : Bool) (args : List String) :
    (check keep args).filter isSanitizer = if keep then args.filter isSanitizer else [] := by
  have hflag : isSanitizer compileOnlySwitch = false := by decide
  rw [check, filter_withSwitch hflag, filter_keepSanitizer, filter_executing]

end Arguments

namespace Plan
variable {t : FileTree} {workingDir : Place} {s : Settings} {env : Environment}
  {inv : Invocation} {sources : List Source} {r u : Resolver} {p : Plan} {path : Path}

def compilerPart (p : Plan) (inv : Invocation) : Pass → List String
  | .check => Arguments.check p.checkSanitized inv.compilerArguments
  | .run => Arguments.run p.runSanitized inv.compilerArguments
  | .lint => []

def programPart (inv : Invocation) : Pass → List String
  | .run => inv.programArguments
  | _ => []

def Compiles (pass : Pass) : Prop :=
  pass = .check ∨ pass = .run

theorem commandFor_eq {pass : Pass} (hpass : Compiles pass) (hpath : p.program pass = some path)
    (inv : Invocation) (s : Settings) :
    Task.commandFor pass inv p s =
      Task.front p ++ path.toString :: (p.compilerPart inv pass ++ programPart inv pass) := by
  rcases hpass with rfl | rfl
  · rw [Task.commandFor, show p.checkProgram = some path from hpath]
    simp [Task.programText, compilerPart, programPart]
  · rw [Task.commandFor, show p.runProgram = some path from hpath]
    rfl

theorem honoursSanitizer_some (s : Settings) (path : Path) :
    honoursSanitizer s (some path) = decide (path.name ∈ s.sanitizerCompilers) := by
  rw [honoursSanitizer, Option.any_some, List.contains_eq_mem]

/-- A compiler is left its sanitizer switches, all in order, if its name is listed, and else none
of them. -/
theorem Made.filter_compilerPart (hmade : Made t workingDir s inv sources r p) {pass : Pass}
    (hpass : Compiles pass) (hpath : p.program pass = some path) :
    (p.compilerPart inv pass).filter isSanitizer =
      if path.name ∈ s.sanitizerCompilers then inv.compilerArguments.filter isSanitizer
      else [] := by
  rcases hpass with rfl | rfl
  · have hpath : p.checkProgram = some path := hpath
    rw [compilerPart, Arguments.filter_check, hmade.checkSanitized, hpath, honoursSanitizer_some]
    simp
  · have hpath : p.runProgram = some path := hpath
    rw [compilerPart, Arguments.filter_run, hmade.runSanitized, hpath, honoursSanitizer_some]
    simp

theorem runCompiler_sanitizing (hwanted : ∃ arg ∈ inv.compilerArguments, isSanitizer arg = true)
    (hfound : s.sanitizerCompilers.findSome? (r.answer t workingDir) = some path) :
    runCompiler t workingDir s inv r = some path := by
  have hne : inv.sanitizerSwitches ≠ [] := by
    rw [inv.sanitizerSwitches_eq, ne_eq, List.filter_eq_nil_iff]
    intro hnone
    obtain ⟨arg, harg, hsan⟩ := hwanted
    exact hnone arg harg hsan
  rw [runCompiler, if_neg hne, hfound, Option.some_or]

/-- Every compiler of a plan is the answer for some name. -/
theorem Made.program_answer (hmade : Made t workingDir s inv sources r p) {pass : Pass}
    (hpass : Compiles pass) (hpath : p.program pass = some path) :
    ∃ name, r.answer t workingDir name = some path := by
  have hlist {names : List String} (h : names.findSome? (r.answer t workingDir) = some path) :
      ∃ name, r.answer t workingDir name = some path := by
    obtain ⟨name, _, hname⟩ := List.exists_of_findSome?_eq_some h
    exact ⟨name, hname⟩
  rcases hpass with rfl | rfl
  · have hcheck : p.checkProgram = some path := hpath
    rw [hmade.checkProgram] at hcheck
    exact hlist hcheck
  · have hrun : p.runProgram = some path := hpath
    rw [hmade.runProgram] at hrun
    cases hc : p.run with
    | false => simp [hc] at hrun
    | true =>
      rw [hc, if_pos rfl, runCompiler] at hrun
      split at hrun
      · exact hlist hrun
      · rcases Option.or_eq_some_iff.1 hrun with h | ⟨_, h⟩
        · exact hlist h
        · exact hlist h

/-- The task of a compiler pass, with the parts of its command. -/
theorem build_compiles {pass : Pass} (hpass : Compiles pass) (heligible : p.isEligible pass = true)
    (hpath : p.program pass = some path) (inv : Invocation) (s : Settings) (dir : Path)
    (parent : Environment) :
    ∃ task, Task.build pass inv p s dir parent = .ok task ∧
      task.command =
        Task.front p ++ path.toString :: (p.compilerPart inv pass ++ programPart inv pass) := by
  rw [Task.build, if_pos heligible]
  exact ⟨_, rfl, commandFor_eq hpass hpath inv s⟩

/-- A run that was asked for sanitizers, by the compiler that the list has under `name`. -/
structure SanitizedRun (s : Settings) (inv : Invocation) (p : Plan) (name : String)
    (path : Path) : Prop where
  program : p.runProgram = some path
  command : ∀ dir parent, ∃ task, Task.build .run inv p s dir parent = .ok task ∧
    task.command =
      Task.front p ++ path.toString :: (p.compilerPart inv .run ++ inv.programArguments)
  /-- The switches arrive, all of them in order, exactly if the name of the path is listed. -/
  kept : (p.compilerPart inv .run).filter isSanitizer = inv.compilerArguments.filter isSanitizer ↔
    path.name ∈ s.sanitizerCompilers
  /-- A name without a directory is the name of the path, so it keeps them. -/
  bare : Resolver.IsBare name → path.name = name
  slash : Resolver.hasSlash name = true → path.name = (Path.ofString name).name

theorem Made.sanitizedRun {dirs : List Path} (hr : r.Reachable dirs)
    (hmade : Made t workingDir s inv sources r p) (hrun : p.run = true)
    (hwanted : ∃ arg ∈ inv.compilerArguments, isSanitizer arg = true)
    (hfound : s.sanitizerCompilers.findSome? (r.answer t workingDir) = some path) {name : String}
    (hname : r.answer t workingDir name = some path) : SanitizedRun s inv p name path := by
  have hprogram : p.runProgram = some path := by
    rw [hmade.runProgram, if_pos hrun, runCompiler_sanitizing hwanted hfound]
  have hpass : Compiles .run := Or.inr rfl
  refine ⟨hprogram, build_compiles hpass hrun hprogram inv s, ?_,
    fun hbare => hr.faithful.name_of_bare hbare hname,
    fun hslash => congrArg Path.name (hr.faithful.path_of_slash hslash hname)⟩
  rw [hmade.filter_compilerPart hpass hprogram]
  constructor
  · intro heq
    obtain ⟨arg, harg, hsan⟩ := hwanted
    by_cases hlisted : path.name ∈ s.sanitizerCompilers
    · exact hlisted
    · rw [if_neg hlisted] at heq
      have hmem := List.mem_filter.2 ⟨harg, hsan⟩
      rw [← heq] at hmem
      cases hmem
  · intro hlisted
    rw [if_pos hlisted]

/-- A compiler that has its last name in common with none of the list gets no sanitizer switch. -/
theorem Made.foreign {dirs : List Path} (hr : r.Reachable dirs)
    (hmade : Made t workingDir s inv sources r p) {pass : Pass} (hpass : Compiles pass)
    (hpath : p.program pass = some path)
    (hforeign : ∀ name ∈ s.sanitizerCompilers, path.name ≠ (Path.ofString name).name) :
    ∀ arg ∈ p.compilerPart inv pass, isSanitizer arg = false := by
  obtain ⟨name, hname⟩ := hmade.program_answer hpass hpath
  have hunlisted : path.name ∉ s.sanitizerCompilers := by
    intro hlisted
    exact hforeign path.name hlisted (hr.faithful.name_fixed hname).symm
  have hnone := hmade.filter_compilerPart hpass hpath
  rw [if_neg hunlisted, List.filter_eq_nil_iff] at hnone
  intro arg harg
  exact Bool.eq_false_iff.2 (hnone arg harg)

/-- The run goes to the first listed compiler that is found, and its switches with it exactly if the
last name of its path is listed; a compiler by another name never sees one. -/
theorem sanitizer_follows {dirs : List Path} (hr : r.Reachable dirs)
    (hplan : make t workingDir s env inv sources r = .ok p u) :
    (p.run = true → (∃ arg ∈ inv.compilerArguments, isSanitizer arg = true) →
      (∃ name ∈ s.sanitizerCompilers, (r.answer t workingDir name).isSome = true) →
      ∃ before name after path, s.sanitizerCompilers = before ++ name :: after ∧
        (∀ n ∈ before, r.answer t workingDir n = none) ∧
        r.answer t workingDir name = some path ∧ SanitizedRun s inv p name path) ∧
    (∀ pass path, Compiles pass → p.isEligible pass = true → p.program pass = some path →
      (∀ name ∈ s.sanitizerCompilers, path.name ≠ (Path.ofString name).name) →
      ∀ dir parent, ∃ task, Task.build pass inv p s dir parent = .ok task ∧
        task.command =
          Task.front p ++ path.toString :: (p.compilerPart inv pass ++ programPart inv pass) ∧
        ∀ arg ∈ p.compilerPart inv pass, isSanitizer arg = false) := by
  obtain ⟨_, hmade, _⟩ := make_ok hplan
  constructor
  · rintro hrun hwanted ⟨listed, hlisted, hanswer⟩
    obtain ⟨path, hfound⟩ := Option.isSome_iff_exists.1
      (List.findSome?_isSome_iff.2 ⟨listed, hlisted, hanswer⟩)
    obtain ⟨before, name, after, hsplit, hname, hbefore⟩ := List.findSome?_eq_some_iff.1 hfound
    exact ⟨before, name, after, path, hsplit, hbefore, hname,
      hmade.sanitizedRun hr hrun hwanted hfound hname⟩
  · intro pass path hpass heligible hpath hforeign dir parent
    obtain ⟨task, hbuild, hcommand⟩ := build_compiles hpass heligible hpath inv s dir parent
    exact ⟨task, hbuild, hcommand, hmade.foreign hr hpass hpath hforeign⟩

/-! ### A compiler listed with its directory -/

def toolTree : FileTree where
  entries :=
    [(["bin"], .directory), (["bin", "dmd"], .file true []), (["bin", "ldmd2"], .file true []),
      (["tools"], .directory), (["tools", "ldmd2"], .file true [])]

def sanitizedBy (compilers : List String) : Settings :=
  { sanitizerCompilers := compilers, linter := none, useDemangler := false,
    allocatorLibraries := [] }

def addressCheck : Invocation :=
  .ofArguments ["-fsanitize=address", "-run", "lib.d"]

def toolResolver : Resolver :=
  { directories := [Path.ofString "bin"] }

def addressPlan (compilers : List String) : EStateM.Result Failure Resolver Plan :=
  make toolTree [] (sanitizedBy compilers) [] addressCheck [⟨"lib.d", false, true⟩] toolResolver

theorem sanitizer_follows_bare_name :
    ∃ p u, addressPlan ["ldmd2"] = .ok p u ∧ p.run = true ∧
      ∃ before name after path, ["ldmd2"] = before ++ name :: after ∧
        SanitizedRun (sanitizedBy ["ldmd2"]) addressCheck p name path := by
  have hfresh : toolResolver.Reachable toolResolver.directories := .fresh
  have hanswer : (toolResolver.answer toolTree [] "ldmd2").isSome = true := by decide
  have hswitch : isSanitizer "-fsanitize=address" = true := by decide
  have hwanted : "-fsanitize=address" ∈ addressCheck.compilerArguments := by decide
  have hplan : ∃ p u, addressPlan ["ldmd2"] = .ok p u ∧ p.run = true := ⟨_, _, rfl, rfl⟩
  obtain ⟨p, u, hplan, hrun⟩ := hplan
  refine ⟨p, u, hplan, hrun, ?_⟩
  obtain ⟨before, name, after, path, hsplit, _, _, hsanitized⟩ :=
    (sanitizer_follows hfresh hplan).1 hrun ⟨_, hwanted, hswitch⟩
      ⟨"ldmd2", List.mem_singleton_self _, hanswer⟩
  exact ⟨before, name, after, path, hsplit, hsanitized⟩

/-- The compiler is found and runs the tests, but its switch is gone. -/
theorem sanitizer_lost_with_directory :
    ∃ p u, addressPlan ["tools/ldmd2"] = .ok p u ∧
      p.runProgram = some (Path.ofString "tools/ldmd2") ∧
      p.compilerPart addressCheck .run = ["-d", "-run", "lib.d"] :=
  ⟨_, _, rfl, rfl, rfl⟩

end Plan
end TriplePass

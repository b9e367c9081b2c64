import Mathlib.Data.List.Basic
import TriplePass.Proofs.Invocation.ProgramArguments
import TriplePass.Proofs.Plan.Sanitizer

/-! # The command of a run, read again

A compiler that is handed the command of a run cuts it where the harness has cut its own arguments:
a switch that is put in front shifts the run file and the program's arguments alike, and sanitizer
switches that are left out stand in front of the run file. The one exception is a run file that is
itself written like a sanitizer switch and left out with them.
-/
namespace TriplePass

def runFile? : List String → Option String
  | [] => none
  | arg :: rest => if arg = runSwitch then rest.head? else runFile? rest

variable {arg : String} {args : List String}

theorem splitAtRun_cons (harg : arg ≠ runSwitch) (args : List String) :
    splitAtRun (arg :: args) = (arg :: (splitAtRun args).1, (splitAtRun args).2) := by
  rw [splitAtRun, if_neg harg]

theorem runFile?_cons (harg : arg ≠ runSwitch) (args : List String) :
    runFile? (arg :: args) = runFile? args := by
  rw [runFile?, if_neg harg]

/-- Leaving out arguments in front of the program's, but not the run switch and its file, moves no
boundary. -/
theorem splitAtRun_filter (keep : String → Bool) (hrun : keep runSwitch = true)
    (hfile : ∀ file ∈ runFile? args, keep file = true) :
    splitAtRun ((splitAtRun args).1.filter keep ++ (splitAtRun args).2) =
        ((splitAtRun args).1.filter keep, (splitAtRun args).2) ∧
      runFile? ((splitAtRun args).1.filter keep ++ (splitAtRun args).2) = runFile? args := by
  induction args with
  | nil => exact ⟨rfl, rfl⟩
  | cons arg rest ih =>
    by_cases harg : arg = runSwitch
    · subst harg
      cases rest with
      | nil => simp [splitAtRun, runFile?, hrun]
      | cons file program =>
        have hkept : keep file = true := hfile file (by simp [runFile?])
        simp [splitAtRun, runFile?, hrun, hkept]
    · rw [runFile?_cons harg] at hfile ⊢
      obtain ⟨hsplit, hrest⟩ := ih hfile
      rw [splitAtRun_cons harg]
      cases hkeep : keep arg with
      | true =>
        rw [List.filter_cons_of_pos hkeep, List.cons_append, splitAtRun_cons harg,
          runFile?_cons harg, hsplit, hrest]
        exact ⟨rfl, rfl⟩
      | false =>
        rw [List.filter_cons_of_neg (Bool.eq_false_iff.1 hkeep)]
        exact ⟨hsplit, hrest⟩

/-! ### What the compiler is left -/

/-- A sanitizer switch names no source. -/
theorem source_of_isSanitizer (h : isSanitizer arg = true) :
    Option.guard (Source.isArgument ·) arg = none := by
  have hswitch : Text.startsWith arg "-" = true := isSwitch_of_isSanitizer h
  simp [Option.guard, Source.isArgument, hswitch]

namespace Invocation

theorem sourcePaths_eq (inv : Invocation) :
    inv.sourcePaths = inv.compilerArguments.filterMap (Option.guard (Source.isArgument ·)) :=
  (congrFun List.filterMap_eq_filter _).symm

theorem isSwitch_of_importDir {dir : String} (h : importDir? arg = some dir) :
    isSwitch arg = true := by
  unfold importDir? at h
  split at h
  next c cs hdrop =>
    have hprefix : importSwitch.toList <+: arg.toList :=
      ⟨c :: cs, (Text.dropPrefix?_eq_some.1 hdrop).symm⟩
    have hdash : "-".toList <+: importSwitch.toList := by decide
    exact List.isPrefixOf_iff_prefix.2 (hdash.trans hprefix)
  next => cases h

theorem importDirs_eq (inv : Invocation) :
    inv.importDirs = inv.compilerArguments.filterMap importDir? := by
  unfold importDirs switches
  rw [List.filterMap_filter]
  refine List.filterMap_congr fun arg _ => ?_
  cases hdir : importDir? arg with
  | none => exact ite_self none
  | some dir => rw [isSwitch_of_importDir hdir, if_pos rfl]

theorem importDir?_of_isSanitizer (h : isSanitizer arg = true) : importDir? arg = none := by
  obtain ⟨rest, hrest⟩ := List.isPrefixOf_iff_prefix.1 h
  have hchars : arg.toList = '-' :: 'f' :: ("sanitize=".toList ++ rest) := hrest.symm
  rw [importDir?, hchars]
  rfl

end Invocation

namespace Arguments

theorem keepSanitizer_eq (keep : Bool) (args : List String) :
    keepSanitizer keep args = args.filter fun arg => keep || !isSanitizer arg := by
  cases keep with
  | true => simp [keepSanitizer]
  | false => rfl

theorem mem_keepSanitizer (hflag : isSanitizer arg = false) (keep : Bool) :
    arg ∈ keepSanitizer keep args ↔ arg ∈ args := by
  rw [keepSanitizer_eq, List.mem_filter, hflag]
  simp

theorem withSwitch_eq (s : String) (args : List String) :
    withSwitch s args = (if s ∈ args then [] else [s]) ++ args := by
  unfold withSwitch
  simp only [List.contains_eq_mem, decide_eq_true_eq]
  split <;> rfl

/-- One switch in front if it is missing, and the arguments in order. -/
theorem run_eq (keep : Bool) (args : List String) :
    run keep args =
      (if allowDeprecatedSwitch ∈ args then [] else [allowDeprecatedSwitch]) ++
        keepSanitizer keep args := by
  have hflag : isSanitizer allowDeprecatedSwitch = false := by decide
  rw [run, withSwitch_eq]
  simp only [mem_keepSanitizer hflag]

section Found
variable {α : Type} {f : String → Option α}

/-- What no sanitizer switch gives is found in the same order without them. -/
theorem filterMap_keepSanitizer (hsan : ∀ arg, isSanitizer arg = true → f arg = none) (keep : Bool)
    (args : List String) : (keepSanitizer keep args).filterMap f = args.filterMap f := by
  rw [keepSanitizer_eq, List.filterMap_filter]
  refine List.filterMap_congr fun arg _ => ?_
  cases hs : isSanitizer arg with
  | true => rw [hsan arg hs, ite_self]
  | false => simp

/-- What the switch in front does not give is found in the same order behind it. -/
theorem filterMap_withSwitch {s : String} (hs : f s = none) (args : List String) :
    (withSwitch s args).filterMap f = args.filterMap f := by
  unfold withSwitch
  split
  · rfl
  · exact List.filterMap_cons_none hs

theorem filterMap_run (hflag : f allowDeprecatedSwitch = none)
    (hsan : ∀ arg, isSanitizer arg = true → f arg = none) (keep : Bool) (args : List String) :
    (run keep args).filterMap f = args.filterMap f := by
  rw [run, filterMap_withSwitch hflag, filterMap_keepSanitizer hsan]

end Found

end Arguments

/-! ### The command as the compiler reads it -/

namespace Invocation

structure Reread (sanitized : Bool) (inv : Invocation) (rest : List String) : Prop where
  split : splitAtRun rest =
    (Arguments.run sanitized inv.compilerArguments, inv.programArguments)
  runFile : runFile? rest = runFile? inv.arguments
  /-- The compiler's part, but for a `-d` put in front, is the caller's without sanitizer
  switches. -/
  compilerArguments : (ofArguments rest).compilerArguments =
    (if allowDeprecatedSwitch ∈ inv.compilerArguments then [] else [allowDeprecatedSwitch]) ++
      if sanitized then inv.compilerArguments
      else inv.compilerArguments.filter (!isSanitizer ·)
  silent : allowDeprecatedSwitch ∈ (ofArguments rest).compilerArguments
  programArguments : (ofArguments rest).programArguments = inv.programArguments
  sourcePaths : (ofArguments rest).sourcePaths = inv.sourcePaths
  importDirs : (ofArguments rest).importDirs = inv.importDirs

theorem splitAtRun_runArguments {sanitized : Bool}
    (hfile : sanitized = true ∨ ∀ file ∈ runFile? args, isSanitizer file = false) :
    splitAtRun (Arguments.run sanitized (splitAtRun args).1 ++ (splitAtRun args).2) =
        (Arguments.run sanitized (splitAtRun args).1, (splitAtRun args).2) ∧
      runFile? (Arguments.run sanitized (splitAtRun args).1 ++ (splitAtRun args).2) =
        runFile? args := by
  have hrun : (sanitized || !isSanitizer runSwitch) = true := by
    rw [show isSanitizer runSwitch = false by decide, Bool.not_false, Bool.or_true]
  have hkept : ∀ file ∈ runFile? args, (sanitized || !isSanitizer file) = true := by
    intro file hmem
    rcases hfile with rfl | hfile
    · rfl
    · rw [hfile file hmem, Bool.not_false, Bool.or_true]
  have hthinned := splitAtRun_filter (fun arg => sanitized || !isSanitizer arg) hrun hkept
  rw [← Arguments.keepSanitizer_eq] at hthinned
  obtain ⟨hsplit, hrest⟩ := hthinned
  have hdash : allowDeprecatedSwitch ≠ runSwitch := by decide
  rw [Arguments.run_eq]
  split
  · exact ⟨hsplit, hrest⟩
  · rw [List.singleton_append, List.cons_append, splitAtRun_cons hdash, runFile?_cons hdash,
      hsplit, hrest]
    exact ⟨rfl, rfl⟩

theorem reread {sanitized : Bool}
    (hfile : sanitized = true ∨ ∀ file ∈ runFile? args, isSanitizer file = false) :
    Reread sanitized (ofArguments args)
      (Arguments.run sanitized (ofArguments args).compilerArguments ++
        (ofArguments args).programArguments) := by
  obtain ⟨hsplit, hrunFile⟩ := splitAtRun_runArguments hfile
  have hagain : ofArguments (Arguments.run sanitized (ofArguments args).compilerArguments ++
      (ofArguments args).programArguments) =
        ⟨Arguments.run sanitized (ofArguments args).compilerArguments,
          (ofArguments args).programArguments⟩ := by
    rw [ofArguments]
    exact congrArg (fun split : List String × List String => Invocation.mk split.1 split.2) hsplit
  have hrun := Arguments.run_eq sanitized (ofArguments args).compilerArguments
  constructor
  · exact hsplit
  · rw [arguments_ofArguments]
    exact hrunFile
  · rw [hagain, hrun]
    rfl
  · rw [hagain, hrun]
    split
    next hmem => exact (Arguments.mem_keepSanitizer (by decide) sanitized).2 hmem
    next => exact List.mem_cons_self
  · rw [hagain]
  · rw [hagain, sourcePaths_eq, sourcePaths_eq]
    exact Arguments.filterMap_run (by decide) (fun _ => source_of_isSanitizer) sanitized _
  · rw [hagain, importDirs_eq, importDirs_eq]
    exact Arguments.filterMap_run (by decide) (fun _ => importDir?_of_isSanitizer) sanitized _

end Invocation

namespace Task
open Invocation
variable {p : Plan}

/-- Whoever reads the command of a run behind its program finds the caller's run file, program
arguments, sources and import directories, unless the run file is left out as a sanitizer
switch. -/
theorem run_command_reread (hrun : p.run = true)
    (hfile : p.runSanitized = true ∨ ∀ file ∈ runFile? args, isSanitizer file = false)
    (s : Settings) (dir : Path) (parent : Environment) :
    ∃ task rest, build .run (ofArguments args) p s dir parent = .ok task ∧
      task.command =
        (p.demangler.map Path.toString).toList ++ programText p.runProgram :: rest ∧
      Reread p.runSanitized (ofArguments args) rest := by
  have hbuild := build_run (ofArguments args) p s dir parent
  rw [if_pos hrun] at hbuild
  refine ⟨_, _, hbuild, ?_, reread hfile⟩
  simp only [runFront, front, List.append_assoc, List.cons_append]

def testPlan : Plan :=
  { check := true, run := true, lint := false, redirection := .capture,
    checkProgram := none, runProgram := some (Path.ofString "bin/dmd") }

def lookalikes : List String :=
  ["-fsanitize=address", "-I=d", "-run", "lib.d", "-run", "-d", "-fsanitize=x"]

theorem run_command_reread_lookalikes :
    testPlan.run = true ∧ (∀ file ∈ runFile? lookalikes, isSanitizer file = false) ∧
      ∃ task rest, build .run (ofArguments lookalikes) testPlan {} {} [] = .ok task ∧
        task.command = "bin/dmd" :: rest ∧
        rest = ["-d", "-I=d", "-run", "lib.d", "-run", "-d", "-fsanitize=x"] ∧
        Reread false (ofArguments lookalikes) rest := by
  have hfile : ∀ file ∈ runFile? lookalikes, isSanitizer file = false := by decide
  obtain ⟨task, rest, hbuild, hcommand, hreread⟩ :=
    run_command_reread (p := testPlan) rfl (.inr hfile) {} {} []
  refine ⟨rfl, hfile, task, rest, hbuild, hcommand, ?_, hreread⟩
  cases hbuild
  exact (List.cons.inj hcommand).2.symm

end Task
end TriplePass

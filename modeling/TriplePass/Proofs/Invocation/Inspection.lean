import TriplePass.Proofs.Invocation.RunCommand

/-! # The commands that only inspect, read again

The check drops the run switch, and with it the mark behind which the arguments of the program
begin; the linter is handed no switches but those for import directories. A compiler that reads
either command back finds the caller's sources and import directories, in order and as often as
they were given, and nothing to execute: no argument has changed its part, whatever stood in the
place of the run file.
-/
namespace TriplePass

variable {arg : String} {args : List String}

theorem splitAtRun_of_not_mem (h : runSwitch ∉ args) : splitAtRun args = (args, []) := by
  induction args with
  | nil => rfl
  | cons arg rest ih =>
    have harg : arg ≠ runSwitch := Ne.symm (List.ne_of_not_mem_cons h)
    rw [splitAtRun_cons harg, ih (List.not_mem_of_not_mem_cons h)]

def isImportSwitch (arg : String) : Bool :=
  Text.startsWith arg importSwitch && arg != importSwitch

namespace Invocation

/-- Without a run switch all arguments are the compiler's. -/
theorem ofArguments_of_not_mem (h : runSwitch ∉ args) : ofArguments args = ⟨args, []⟩ := by
  rw [ofArguments, splitAtRun_of_not_mem h]

theorem requestsRun_of_not_mem (h : runSwitch ∉ args) :
    (ofArguments args).requestsRun = false := by
  rw [ofArguments_of_not_mem h, requestsRun, hasSwitch, switches, List.contains_eq_mem,
    decide_eq_false_iff_not]
  exact fun hmem => h (List.mem_filter.1 hmem).1

/-! ### Switches for import directories -/

theorem importDir?_eq_some {dir : String} :
    importDir? arg = some dir ↔ arg = importSwitch ++ dir ∧ dir ≠ "" := by
  have hwritten (rest : List Char) :
      arg = importSwitch ++ String.ofList rest ↔ arg.toList = importSwitch.toList ++ rest := by
    rw [← String.toList_inj, String.toList_append, String.toList_ofList]
  unfold importDir?
  split
  next c cs hdrop =>
    have hchars := Text.dropPrefix?_eq_some.1 hdrop
    rw [Option.some.injEq]
    constructor
    · rintro rfl
      refine ⟨(hwritten (c :: cs)).2 hchars, ?_⟩
      simp [String.ofList_eq_empty_iff]
    · rintro ⟨rfl, -⟩
      rw [← String.ofList_toList (s := dir)]
      rw [String.toList_append, List.append_cancel_left_eq] at hchars
      rw [hchars]
  next hnone =>
    refine iff_of_false (fun h => Option.some_ne_none _ h.symm) ?_
    rintro ⟨rfl, hdir⟩
    have hdrop : Text.dropPrefix? importSwitch.toList (importSwitch ++ dir).toList =
        some dir.toList := Text.dropPrefix?_eq_some.2 String.toList_append
    cases hchars : dir.toList with
    | nil => exact hdir (String.toList_eq_nil_iff.1 hchars)
    | cons c cs => exact hnone c cs (hchars ▸ hdrop)

theorem isImportSwitch_eq (arg : String) : isImportSwitch arg = (importDir? arg).isSome := by
  rw [Bool.eq_iff_iff, Option.isSome_iff_exists, isImportSwitch, Bool.and_eq_true, bne_iff_ne]
  simp only [importDir?_eq_some]
  constructor
  · rintro ⟨hstarts, hmore⟩
    obtain ⟨rest, hrest⟩ := List.isPrefixOf_iff_prefix.1 hstarts
    have harg : arg = importSwitch ++ String.ofList rest := by
      rw [← String.toList_inj, String.toList_append, String.toList_ofList, hrest]
    refine ⟨String.ofList rest, harg, fun hempty => hmore ?_⟩
    rw [harg, hempty, String.append_empty]
  · rintro ⟨dir, rfl, hdir⟩
    constructor
    · rw [Text.startsWith, String.toList_append]
      exact List.isPrefixOf_iff_prefix.2 (List.prefix_append _ _)
    · intro hbare
      exact hdir (by simpa using hbare)

/-- Written out again, the import directories are the switches that named them. -/
theorem map_importDirs (inv : Invocation) :
    inv.importDirs.map (importSwitch ++ ·) = inv.compilerArguments.filter isImportSwitch := by
  rw [importDirs_eq]
  induction inv.compilerArguments with
  | nil => rfl
  | cons arg rest ih =>
    cases hdir : importDir? arg with
    | none =>
      have hother : isImportSwitch arg = false := by rw [isImportSwitch_eq, hdir]; rfl
      rw [List.filterMap_cons_none hdir, List.filter_cons_of_neg (by simp [hother]), ih]
    | some dir =>
      have himport : isImportSwitch arg = true := by rw [isImportSwitch_eq, hdir]; rfl
      rw [List.filterMap_cons_some hdir, List.filter_cons_of_pos himport, List.map_cons, ih,
        ← (importDir?_eq_some.1 hdir).1]

end Invocation

/-! ### The arguments of the check -/

/-- An argument that the check leaves: it requests no execution, and it is no sanitizer switch
unless those are kept. -/
def isInspected (sanitized : Bool) (arg : String) : Bool :=
  arg != runSwitch && arg != mainSwitch && (sanitized || !isSanitizer arg)

namespace Arguments
variable {sanitized : Bool}

theorem filter_isInspected (sanitized : Bool) (args : List String) :
    keepSanitizer sanitized (args.filter (!requestsExecution ·)) =
      args.filter (isInspected sanitized) := by
  rw [keepSanitizer_eq, List.filter_filter]
  refine List.filter_congr fun arg _ => ?_
  rw [isInspected, requestsExecution, Bool.not_or, Bool.and_comm]
  rfl

theorem check_eq (sanitized : Bool) (args : List String) :
    check sanitized args =
      (if compileOnlySwitch ∈ args then [] else [compileOnlySwitch]) ++
        args.filter (isInspected sanitized) := by
  have hflag : isInspected sanitized compileOnlySwitch = true := by cases sanitized <;> decide
  rw [check, withSwitch_eq, filter_isInspected]
  simp only [List.mem_filter, hflag, and_true]

theorem compileOnly_mem_check (sanitized : Bool) (args : List String) :
    compileOnlySwitch ∈ check sanitized args := by
  have hflag : isInspected sanitized compileOnlySwitch = true := by cases sanitized <;> decide
  rw [check_eq]
  split
  next hmem => exact List.mem_filter.2 ⟨hmem, hflag⟩
  next => exact List.mem_cons_self

theorem isInspected_of_mem_check (h : arg ∈ check sanitized args) :
    isInspected sanitized arg = true := by
  rw [check_eq] at h
  rcases List.mem_append.1 h with h | h
  · split at h
    · exact absurd h List.not_mem_nil
    · rw [List.mem_singleton.1 h]
      cases sanitized <;> decide
  · exact (List.mem_filter.1 h).2

theorem not_mem_check (hexecutes : isInspected sanitized arg = false) :
    arg ∉ check sanitized args := by
  intro h
  rw [isInspected_of_mem_check h] at hexecutes
  cases hexecutes

/-- What the check has built it would build again. -/
theorem check_check (sanitized : Bool) (args : List String) :
    check sanitized (check sanitized args) = check sanitized args := by
  rw [check_eq sanitized (check sanitized args), if_pos (compileOnly_mem_check sanitized args),
    List.nil_append, List.filter_eq_self]
  exact fun arg harg => isInspected_of_mem_check harg

/-- What neither a request for execution, nor a sanitizer switch, nor the added switch gives is
found in the same order. -/
theorem filterMap_check {α : Type} {f : String → Option α} (hflag : f compileOnlySwitch = none)
    (hrun : f runSwitch = none) (hmain : f mainSwitch = none)
    (hsan : ∀ arg, isSanitizer arg = true → f arg = none) (sanitized : Bool)
    (args : List String) : (check sanitized args).filterMap f = args.filterMap f := by
  rw [check, filterMap_withSwitch hflag, filterMap_keepSanitizer hsan, List.filterMap_filter]
  refine List.filterMap_congr fun arg _ => ?_
  cases hexec : requestsExecution arg with
  | false => rfl
  | true =>
    rw [requestsExecution, Bool.or_eq_true, beq_iff_eq, beq_iff_eq] at hexec
    rcases hexec with rfl | rfl
    · exact hrun.symm
    · exact hmain.symm

end Arguments

/-! ### Both commands as they are read back -/

namespace Invocation

/-- `read` is left to inspect what `inv` names, and has nothing to execute. -/
structure Inspects (inv read : Invocation) : Prop where
  programArguments : read.programArguments = []
  requestsRun : read.requestsRun = false
  sourcePaths : read.sourcePaths = inv.sourcePaths
  importDirs : read.importDirs = inv.importDirs

structure Checks (sanitized : Bool) (inv : Invocation) (c : List String) : Prop where
  compileOnly : compileOnlySwitch ∈ c
  noRun : runSwitch ∉ c
  noMain : mainSwitch ∉ c
  /-- The caller's own, in order, but for those dropped and one switch put in front if it was
  missing. -/
  arguments : c =
    (if compileOnlySwitch ∈ inv.compilerArguments then [] else [compileOnlySwitch]) ++
      inv.compilerArguments.filter fun arg =>
        arg != runSwitch && arg != mainSwitch && (sanitized || !isSanitizer arg)
  again : Arguments.check sanitized c = c
  inspects : Inspects inv (ofArguments c)

structure Lints (inv : Invocation) (l : List String) : Prop where
  arguments : l =
    inv.compilerArguments.filter isImportSwitch ++
      inv.compilerArguments.filter Source.isArgument
  inspects : Inspects inv (ofArguments l)

theorem checks (inv : Invocation) (sanitized : Bool) :
    Checks sanitized inv (Arguments.check sanitized inv.compilerArguments) := by
  have hrun : runSwitch ∉ Arguments.check sanitized inv.compilerArguments :=
    Arguments.not_mem_check (by cases sanitized <;> decide)
  refine {
    compileOnly := Arguments.compileOnly_mem_check sanitized _
    noRun := hrun
    noMain := Arguments.not_mem_check (by cases sanitized <;> decide)
    arguments := Arguments.check_eq sanitized _
    again := Arguments.check_check sanitized _
    inspects := ⟨?_, requestsRun_of_not_mem hrun, ?_, ?_⟩ }
  · rw [ofArguments_of_not_mem hrun]
  · rw [ofArguments_of_not_mem hrun, sourcePaths_eq, sourcePaths_eq]
    exact Arguments.filterMap_check (by decide) (by decide) (by decide)
      (fun _ => source_of_isSanitizer) sanitized _
  · rw [ofArguments_of_not_mem hrun, importDirs_eq, importDirs_eq]
    exact Arguments.filterMap_check (by decide) (by decide) (by decide)
      (fun _ => importDir?_of_isSanitizer) sanitized _

theorem importDir?_of_isArgument (h : Source.isArgument arg = true) : importDir? arg = none := by
  cases hdir : importDir? arg with
  | none => rfl
  | some dir =>
    have hswitch : Text.startsWith arg "-" = true := isSwitch_of_importDir hdir
    rw [Source.isArgument, hswitch] at h
    cases h

theorem lint_eq (inv : Invocation) :
    Arguments.lint [] inv =
      inv.compilerArguments.filter isImportSwitch ++
        inv.compilerArguments.filter Source.isArgument := by
  rw [Arguments.lint, List.nil_append, map_importDirs]
  rfl

/-- Import switches and sources are told apart again when they are read back. -/
theorem lints (inv : Invocation) : Lints inv (Arguments.lint [] inv) := by
  have hsource : ∀ arg, Source.isArgument arg = true → isImportSwitch arg = false := by
    intro arg harg
    rw [isImportSwitch_eq, importDir?_of_isArgument harg]
    rfl
  have hrun : runSwitch ∉ Arguments.lint [] inv := by
    rw [lint_eq, List.mem_append, List.mem_filter, List.mem_filter]
    rintro (⟨-, himport⟩ | ⟨-, harg⟩)
    · exact absurd himport (by decide)
    · exact absurd harg (by decide)
  refine ⟨lint_eq inv, ?_, requestsRun_of_not_mem hrun, ?_, ?_⟩
  · rw [ofArguments_of_not_mem hrun]
  · have hnone : (inv.compilerArguments.filter isImportSwitch).filter Source.isArgument = [] := by
      rw [List.filter_eq_nil_iff]
      intro arg hmem harg
      have himport := (List.mem_filter.1 hmem).2
      rw [hsource arg harg] at himport
      cases himport
    rw [ofArguments_of_not_mem hrun, sourcePaths, lint_eq, List.filter_append, hnone,
      List.nil_append, List.filter_filter]
    simp only [Bool.and_self, sourcePaths]
  · have hfound : (inv.compilerArguments.filter isImportSwitch).filterMap importDir? =
        inv.compilerArguments.filterMap importDir? := by
      rw [List.filterMap_filter]
      refine List.filterMap_congr fun arg _ => ?_
      rw [isImportSwitch_eq]
      cases importDir? arg <;> rfl
    have hnone : (inv.compilerArguments.filter Source.isArgument).filterMap importDir? = [] := by
      rw [List.filterMap_eq_nil_iff]
      exact fun arg hmem => importDir?_of_isArgument (List.mem_filter.1 hmem).2
    rw [ofArguments_of_not_mem hrun, importDirs_eq, lint_eq, List.filterMap_append, hfound, hnone,
      List.append_nil, importDirs_eq]

/-- The check and the linter see the sources and import directories of the invocation, each by
arguments of the caller's own, and are asked to run nothing. -/
theorem commands_inspect (inv : Invocation) (sanitized : Bool) :
    Checks sanitized inv (Arguments.check sanitized inv.compilerArguments) ∧
      Lints inv (Arguments.lint [] inv) :=
  ⟨inv.checks sanitized, inv.lints⟩

end Invocation
end TriplePass

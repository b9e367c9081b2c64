import TriplePass.Proofs.FileTree
import TriplePass.Proofs.Invocation.RunCommand
import TriplePass.Proofs.Plan.Coherence

/-! # When planning is refused

An invocation that looks like the harness running itself is refused before anything is looked up.
Behind that a compiler for the check comes first, then one for the run where the run is wanted:
which of them is missing decides the report. Nothing that the program is given can change the
verdict. With its compilers found a plan is made, unless the system does not even answer for the
name of an allocator, which is the one look-up that passes such a refusal on.
-/
namespace TriplePass

/-! ### Invocations that look like the harness itself -/

/-- In the compiler's part a second run switch can only stand in the place of the run file. -/
theorem two_le_count_run_iff (args : List String) :
    2 ≤ (splitAtRun args).1.count runSwitch ↔ runFile? args = some runSwitch := by
  induction args with
  | nil => simp [splitAtRun, runFile?]
  | cons arg rest ih =>
    by_cases harg : arg = runSwitch
    · subst harg
      cases rest with
      | nil => simp [splitAtRun, runFile?]
      | cons file program =>
        by_cases hfile : file = runSwitch <;> simp [splitAtRun, runFile?, hfile]
    · rw [splitAtRun_cons harg, runFile?_cons harg, List.count_cons_of_ne harg, ih]

namespace Recursion
variable {inv : Invocation} {env : Environment} {marker : String}

/-- What an invocation shows of the harness running itself: the marker that its children carry, a
switch that an invocation has at most once, or its name. -/
inductive Suspected (inv : Invocation) (env : Environment) (marker : String) : Prop where
  | marked {value : String} : Dictionary.get? env marker = some value → value ≠ "" →
      Suspected inv env marker
  | repeated {s : String} : s = runSwitch ∨ s = mainSwitch → 2 ≤ inv.compilerArguments.count s →
      Suspected inv env marker
  | named {arg : String} : arg ∈ inv.compilerArguments → isSwitch arg = false →
      (Path.ofString arg).name = harnessName ∨ (Path.ofString arg).stem = harnessName →
      Suspected inv env marker

theorem countSwitch_eq {s : String} (hs : isSwitch s = true) (inv : Invocation) :
    inv.countSwitch s = inv.compilerArguments.count s := by
  rw [Invocation.countSwitch, Invocation.switches, List.count_filter hs]

theorem isSwitch_of_singleUse {s : String} (hs : s = runSwitch ∨ s = mainSwitch) :
    isSwitch s = true := by
  rcases hs with rfl | rfl <;> decide

theorem mem_singleUse {s : String} : s ∈ singleUse ↔ s = runSwitch ∨ s = mainSwitch := by
  simp [singleUse]

theorem repeatedSwitch?_eq_none_iff :
    repeatedSwitch? inv = none ↔
      ∀ s, s = runSwitch ∨ s = mainSwitch → inv.compilerArguments.count s < 2 := by
  simp only [repeatedSwitch?, List.find?_eq_none, mem_singleUse, decide_eq_true_eq, Nat.not_lt]
  refine forall₂_congr fun s hs => ?_
  rw [countSwitch_eq (isSwitch_of_singleUse hs), Nat.lt_succ_iff]

theorem namesHarness_iff {arg : String} :
    namesHarness arg = true ↔ isSwitch arg = false ∧
      ((Path.ofString arg).name = harnessName ∨ (Path.ofString arg).stem = harnessName) := by
  simp [namesHarness]

/-- There is a reason to refuse an invocation exactly if it is suspected. -/
theorem suspected_iff : Suspected inv env marker ↔ ∃ reason, reason? inv env marker = some reason := by
  unfold reason?
  split
  next hset =>
    refine iff_of_true ?_ ⟨_, rfl⟩
    cases hvalue : Dictionary.get? env marker with
    | none => simp [hvalue] at hset
    | some value => exact .marked hvalue (by simpa [hvalue] using hset)
  next hunset =>
  cases hrepeated : repeatedSwitch? inv with
  | some s =>
    refine iff_of_true ?_ ⟨_, rfl⟩
    have hs := mem_singleUse.1 (List.mem_of_find?_eq_some hrepeated)
    have hcount : 1 < inv.countSwitch s := by simpa using List.find?_some hrepeated
    rw [countSwitch_eq (isSwitch_of_singleUse hs)] at hcount
    exact .repeated hs hcount
  | none =>
    constructor
    · intro hsuspected
      cases hsuspected with
      | marked hvalue hne => simp [hvalue, hne] at hunset
      | repeated hs hcount =>
        exact absurd hcount (Nat.not_le_of_lt (repeatedSwitch?_eq_none_iff.1 hrepeated _ hs))
      | @named arg hmem hswitch hname =>
        have hfound : (inv.compilerArguments.find? namesHarness).isSome = true :=
          List.find?_isSome.2 ⟨arg, hmem, namesHarness_iff.2 ⟨hswitch, hname⟩⟩
        obtain ⟨first, hfirst⟩ := Option.isSome_iff_exists.1 hfound
        exact ⟨_, Option.map_eq_some_iff.2 ⟨first, hfirst, rfl⟩⟩
    · rintro ⟨reason, hreason⟩
      obtain ⟨arg, hfind, -⟩ := Option.map_eq_some_iff.1 hreason
      obtain ⟨hswitch, hname⟩ := namesHarness_iff.1 (List.find?_some hfind)
      exact .named (List.mem_of_find?_eq_some hfind) hswitch hname

theorem not_suspected_iff : ¬Suspected inv env marker ↔ reason? inv env marker = none := by
  rw [suspected_iff, ← Option.isSome_iff_exists, Option.not_isSome_iff_eq_none]

end Recursion

namespace Plan
variable {t : FileTree} {workingDir : Place} {s : Settings} {env : Environment}
  {inv : Invocation} {sources : List Source} {r u : Resolver} {p : Plan} {names : List String}

/-! ### Compilers that are missing -/

def Unresolved (t : FileTree) (workingDir : Place) (r : Resolver) (names : List String) : Prop :=
  ∀ name ∈ names, r.answer t workingDir name = none

theorem unresolved_iff :
    Unresolved t workingDir r names ↔ names.findSome? (r.answer t workingDir) = none :=
  List.findSome?_eq_none_iff.symm

theorem not_unresolved_iff :
    ¬Unresolved t workingDir r names ↔
      ∃ path, names.findSome? (r.answer t workingDir) = some path := by
  rw [unresolved_iff, ← Option.ne_none_iff_exists']

structure NoRunCompiler (t : FileTree) (workingDir : Place) (s : Settings) (inv : Invocation)
    (sources : List Source) (r : Resolver) : Prop where
  requested : runSwitch ∈ inv.compilerArguments
  runnable : ∀ source ∈ sources, source.skipsRun = false
  run : Unresolved t workingDir r s.runCompilers
  /-- Compilers that honour sanitizer switches do not stand in for it. -/
  sanitizer : (∀ arg ∈ inv.compilerArguments, isSanitizer arg = false) ∨
    Unresolved t workingDir r s.sanitizerCompilers

theorem sanitizerSwitches_eq_nil_iff :
    inv.sanitizerSwitches = [] ↔ ∀ arg ∈ inv.compilerArguments, isSanitizer arg = false := by
  simp [inv.sanitizerSwitches_eq, List.filter_eq_nil_iff]

theorem runCompiler_eq_none_iff :
    runCompiler t workingDir s inv r = none ↔
      Unresolved t workingDir r s.runCompilers ∧
        ((∀ arg ∈ inv.compilerArguments, isSanitizer arg = false) ∨
          Unresolved t workingDir r s.sanitizerCompilers) := by
  rw [runCompiler_eq, Option.or_eq_none_iff, ← unresolved_iff, and_comm,
    ← sanitizerSwitches_eq_nil_iff]
  refine and_congr_right fun _ => ?_
  by_cases hnil : inv.sanitizerSwitches = []
  · simp [hnil]
  · simp [hnil, unresolved_iff]

theorem noRunCompiler_iff :
    NoRunCompiler t workingDir s inv sources r ↔
      runsTests inv sources = true ∧ runCompiler t workingDir s inv r = none := by
  rw [runsTests_iff, runCompiler_eq_none_iff]
  constructor
  · exact fun h => ⟨⟨h.requested, h.runnable⟩, h.run, h.sanitizer⟩
  · exact fun ⟨⟨hrequested, hrunnable⟩, hrun, hsanitizer⟩ =>
      ⟨hrequested, hrunnable, hrun, hsanitizer⟩

/-! ### Allocators that the system does not answer for -/

/-- Before any allocator is found the system does not answer for one: its name is too long, or it lies
behind a directory that must not be searched. -/
def AllocatorUnaskable (t : FileTree) (workingDir : Place) (s : Settings) (e : Errno) : Prop :=
  e.Unanswered ∧ ∃ before path after, s.allocatorLibraries = before ++ path :: after ∧
    (∀ q ∈ before, t.isFile workingDir q = .ok false) ∧ t.isFile workingDir path = .error e

theorem firstFile_error_iff {e : Errno} :
    firstFile t workingDir s.allocatorLibraries = .error e ↔
      AllocatorUnaskable t workingDir s e := by
  rw [firstFile_eq_error]
  constructor
  · rintro ⟨before, path, after, hpaths, hbefore, hpath⟩
    exact ⟨FileTree.isFile_error hpath, before, path, after, hpaths, hbefore, hpath⟩
  · exact And.right

/-! ### The verdict -/

/-- At most one failure can stop planning. -/
theorem Stopped.unique {e e' : Failure} (h : Stopped t workingDir s env inv sources r e)
    (h' : Stopped t workingDir s env inv sources r e') : e = e' := by
  cases h <;> cases h' <;> simp_all

/-- Where there is a plan there is nothing that planning could have stopped for. -/
theorem not_stopped_of_ok {e : Failure} (h : make t workingDir s env inv sources r = .ok p u) :
    ¬Stopped t workingDir s env inv sources r e := by
  obtain ⟨hreason, hmade, -⟩ := make_ok h
  intro hstopped
  cases hstopped with
  | recursion hsome =>
    rw [hreason] at hsome
    cases hsome
  | noCheck _ hnone =>
    have hfound := hmade.checkFound
    rw [hmade.checkProgram, hnone] at hfound
    cases hfound
  | noRun _ _ hruns hnone =>
    have hrun : p.run = true := hmade.run.trans hruns
    have hfound := hmade.runFound hrun
    rw [hmade.runProgram, if_pos hrun, hnone] at hfound
    cases hfound
  | system _ _ _ herror =>
    rw [hmade.allocator] at herror
    cases herror

theorem make_error_iff {e : Failure} :
    (∃ u, make t workingDir s env inv sources r = .error e u) ↔
      Stopped t workingDir s env inv sources r e := by
  constructor
  · rintro ⟨u, h⟩
    exact make_stopped h
  · intro hstopped
    cases h : make t workingDir s env inv sources r with
    | ok p u => exact absurd hstopped (not_stopped_of_ok h)
    | error e' u =>
      cases hstopped.unique (make_stopped h)
      exact ⟨u, rfl⟩

theorem make_ok_iff :
    (∃ p u, make t workingDir s env inv sources r = .ok p u) ↔
      ∀ e, ¬Stopped t workingDir s env inv sources r e := by
  constructor
  · rintro ⟨p, u, h⟩ e
    exact not_stopped_of_ok h
  · intro hnone
    cases h : make t workingDir s env inv sources r with
    | ok p u => exact ⟨p, u, rfl⟩
    | error e u => exact absurd (make_stopped h) (hnone e)

theorem stopped_recursion_iff {reason : String} :
    Stopped t workingDir s env inv sources r (.harness (.selfRecursion reason)) ↔
      Recursion.reason? inv env s.recursionMarker = some reason := by
  constructor
  · rintro ⟨hreason⟩
    exact hreason
  · exact .recursion

/-- The compilers that are reported are those of the check, or else those of the run. The two lists
may be the same. -/
theorem stopped_missing_iff :
    Stopped t workingDir s env inv sources r (.harness (.programNotFound names)) ↔
      ¬Recursion.Suspected inv env s.recursionMarker ∧
        (names = s.checkCompilers ∧ Unresolved t workingDir r s.checkCompilers ∨
          names = s.runCompilers ∧ ¬Unresolved t workingDir r s.checkCompilers ∧
            NoRunCompiler t workingDir s inv sources r) := by
  rw [Recursion.not_suspected_iff]
  constructor
  · intro h
    cases h with
    | noCheck hreason hnone => exact ⟨hreason, .inl ⟨rfl, unresolved_iff.2 hnone⟩⟩
    | noRun hreason hcheck hruns hnone =>
      exact ⟨hreason, .inr ⟨rfl, not_unresolved_iff.2 ⟨_, hcheck⟩, noRunCompiler_iff.2 ⟨hruns, hnone⟩⟩⟩
  · rintro ⟨hreason, ⟨rfl, hnone⟩ | ⟨rfl, hcheck, hrun⟩⟩
    · exact .noCheck hreason (unresolved_iff.1 hnone)
    · obtain ⟨path, hpath⟩ := not_unresolved_iff.1 hcheck
      obtain ⟨hruns, hnone⟩ := noRunCompiler_iff.1 hrun
      exact .noRun hreason hpath hruns hnone

theorem stopped_system_iff {errno : Errno} :
    Stopped t workingDir s env inv sources r (.system errno) ↔
      ¬Recursion.Suspected inv env s.recursionMarker ∧
        ¬Unresolved t workingDir r s.checkCompilers ∧
        ¬NoRunCompiler t workingDir s inv sources r ∧
        AllocatorUnaskable t workingDir s errno := by
  rw [Recursion.not_suspected_iff, not_unresolved_iff, noRunCompiler_iff, not_and,
    ← firstFile_error_iff]
  constructor
  · intro h
    cases h with
    | system hreason hcheck hfound herror => exact ⟨hreason, ⟨_, hcheck⟩, hfound, herror⟩
  · rintro ⟨hreason, ⟨path, hcheck⟩, hfound, herror⟩
    exact .system hreason hcheck hfound herror

/-- An invocation that is refused as a recursion is refused before any question is put. -/
theorem make_of_reason {reason : String}
    (h : Recursion.reason? inv env s.recursionMarker = some reason) (t : FileTree)
    (workingDir : Place) (sources : List Source) (r : Resolver) :
    make t workingDir s env inv sources r = .error (.harness (.selfRecursion reason)) r := by
  have hrefuse : refuseRecursion inv env s.recursionMarker r =
      .error (.harness (.selfRecursion reason)) r := by
    rw [refuseRecursion, h]
    rfl
  exact Effect.bind_of_error hrefuse _

structure Verdict (t : FileTree) (workingDir : Place) (s : Settings) (env : Environment)
    (inv : Invocation) (sources : List Source) (r : Resolver) : Prop where
  recursion :
    (∃ reason u, make t workingDir s env inv sources r =
      .error (.harness (.selfRecursion reason)) u) ↔
    Recursion.Suspected inv env s.recursionMarker
  /-- Then nothing has been looked up: it is the same over all files and for every resolver, which
  has learnt nothing. -/
  unasked : Recursion.Suspected inv env s.recursionMarker → ∃ reason, ∀ t workingDir sources r,
    make t workingDir s env inv sources r = .error (.harness (.selfRecursion reason)) r
  noCheck : ¬Recursion.Suspected inv env s.recursionMarker →
    ((∃ u, make t workingDir s env inv sources r =
      .error (.harness (.programNotFound s.checkCompilers)) u) ↔
    Unresolved t workingDir r s.checkCompilers)
  noRun : ¬Recursion.Suspected inv env s.recursionMarker →
    ¬Unresolved t workingDir r s.checkCompilers →
    ((∃ u, make t workingDir s env inv sources r =
      .error (.harness (.programNotFound s.runCompilers)) u) ↔
    NoRunCompiler t workingDir s inv sources r)
  noAnswer : ¬Recursion.Suspected inv env s.recursionMarker →
    ¬Unresolved t workingDir r s.checkCompilers →
    ¬NoRunCompiler t workingDir s inv sources r →
    ∀ e, (∃ u, make t workingDir s env inv sources r = .error (.system e) u) ↔
    AllocatorUnaskable t workingDir s e
  planned : ¬Recursion.Suspected inv env s.recursionMarker →
    ¬Unresolved t workingDir r s.checkCompilers →
    ¬NoRunCompiler t workingDir s inv sources r →
    ((∃ p u, make t workingDir s env inv sources r = .ok p u) ↔
    ∀ e, ¬AllocatorUnaskable t workingDir s e)
  programArguments : ∀ program,
    make t workingDir s env ⟨inv.compilerArguments, program⟩ sources =
      make t workingDir s env inv sources
  /-- A run switch is repeated exactly if it is taken for the run file. -/
  runFile : ∀ arguments, inv = .ofArguments arguments →
    (2 ≤ inv.compilerArguments.count runSwitch ↔ runFile? arguments = some runSwitch)

/-- Planning fails for a recursion, then for the compilers of the check, then for those of the run,
each exactly where it should; behind them only an allocator can keep it from a plan. -/
theorem planning_verdict (t : FileTree) (workingDir : Place) (s : Settings) (env : Environment)
    (inv : Invocation) (sources : List Source) (r : Resolver) :
    Verdict t workingDir s env inv sources r where
  recursion := by
    simp only [make_error_iff, stopped_recursion_iff, Recursion.suspected_iff]
  unasked := by
    intro hsuspected
    obtain ⟨reason, hreason⟩ := Recursion.suspected_iff.1 hsuspected
    exact ⟨reason, make_of_reason hreason⟩
  noCheck := by
    intro hrecursion
    rw [make_error_iff, stopped_missing_iff]
    constructor
    · -- the same report for the run would mean that the check has found none of these either
      rintro ⟨-, ⟨-, hnone⟩ | ⟨hnames, -, hrun⟩⟩
      · exact hnone
      · exact hnames ▸ hrun.run
    · exact fun hnone => ⟨hrecursion, .inl ⟨rfl, hnone⟩⟩
  noRun := by
    intro hrecursion hcheck
    rw [make_error_iff, stopped_missing_iff]
    constructor
    · rintro ⟨-, ⟨-, hnone⟩ | ⟨-, -, hrun⟩⟩
      · exact absurd hnone hcheck
      · exact hrun
    · exact fun hrun => ⟨hrecursion, .inr ⟨rfl, hcheck, hrun⟩⟩
  noAnswer := by
    intro hrecursion hcheck hrun e
    rw [make_error_iff, stopped_system_iff]
    simp only [hrecursion, hcheck, hrun, not_false_eq_true, true_and]
  planned := by
    intro hrecursion hcheck hrun
    rw [make_ok_iff]
    constructor
    · intro hnone e hunaskable
      exact hnone (.system e) (stopped_system_iff.2 ⟨hrecursion, hcheck, hrun, hunaskable⟩)
    · intro haskable e hstopped
      cases e with
      | harness e =>
        cases e with
        | selfRecursion reason =>
          exact hrecursion (Recursion.suspected_iff.2 ⟨reason, stopped_recursion_iff.1 hstopped⟩)
        | programNotFound names =>
          rcases (stopped_missing_iff.1 hstopped).2 with ⟨-, hnone⟩ | ⟨-, -, hnone⟩
          · exact hcheck hnone
          · exact hrun hnone
        | _ => cases hstopped
      | system errno => exact haskable errno (stopped_system_iff.1 hstopped).2.2.2
      | _ => cases hstopped
  programArguments := fun _ => rfl
  runFile := by
    rintro arguments rfl
    exact two_le_count_run_iff arguments

/-! ### A plan that is lost -/

/-- An allocator is optional, and this one cannot be there. -/
def longLibrarySettings : Settings where
  allocatorLibraries := [(Path.ofString ".").child FileTree.longName]
  linter := none
  useDemangler := false

def compilerTree : FileTree where
  entries := [(["bin"], .directory), (["bin", "dmd"], .file true [])]

theorem isFile_longLibrary :
    compilerTree.isFile [] ((Path.ofString ".").child FileTree.longName) = .error .nameTooLong := by
  have hnul : ((Path.ofString ".").child FileTree.longName).hasNul = false := by
    have hnames : ((Path.ofString ".").child FileTree.longName).names = [FileTree.longName] := rfl
    rw [Path.hasNul, hnames, List.any_cons, FileTree.toList_longName]
    decide +kernel
  have hroot : compilerTree.locate [] (Path.ofString ".") = .ok [] := rfl
  exact FileTree.isFile_long FileTree.isPlain_longName FileTree.maxNameBytes_lt_longName hnul hroot
    rfl rfl

/-- No recursion is suspected and every compiler is found, but there is no plan. -/
theorem make_breaks_off :
    ¬Recursion.Suspected (.ofArguments ["lib.d"]) [] longLibrarySettings.recursionMarker ∧
      ¬Unresolved compilerTree [] (.ofSearchPath "bin") longLibrarySettings.checkCompilers ∧
      ¬NoRunCompiler compilerTree [] longLibrarySettings (.ofArguments ["lib.d"])
        [{ path := "lib.d", hasTests := true }] (.ofSearchPath "bin") ∧
      ∃ u, make compilerTree [] longLibrarySettings [] (.ofArguments ["lib.d"])
        [{ path := "lib.d", hasTests := true }] (.ofSearchPath "bin") =
          .error (.system .nameTooLong) u := by
  have hrecursion :
      ¬Recursion.Suspected (.ofArguments ["lib.d"]) [] longLibrarySettings.recursionMarker :=
    Recursion.not_suspected_iff.2 (by decide +kernel)
  have hcheck :
      ¬Unresolved compilerTree [] (.ofSearchPath "bin") longLibrarySettings.checkCompilers :=
    not_unresolved_iff.2 ⟨Path.ofString "bin/dmd", by decide +kernel⟩
  have hrun : ¬NoRunCompiler compilerTree [] longLibrarySettings (.ofArguments ["lib.d"])
      [{ path := "lib.d", hasTests := true }] (.ofSearchPath "bin") :=
    fun hrun => absurd hrun.requested (by decide +kernel)
  have hunaskable : AllocatorUnaskable compilerTree [] longLibrarySettings .nameTooLong :=
    ⟨.inl rfl, [], _, [], rfl, fun _ hq => absurd hq List.not_mem_nil, isFile_longLibrary⟩
  exact ⟨hrecursion, hcheck, hrun,
    make_error_iff.2 (stopped_system_iff.2 ⟨hrecursion, hcheck, hrun, hunaskable⟩)⟩

end Plan
end TriplePass

import TriplePass.Plan
import TriplePass.Proofs.Effect
import TriplePass.Proofs.Resolver.Answers

/-! # What a plan holds

Every field of a plan is determined by the invocation, the settings, the sources, and the answers
that the resolver gives over the file tree at hand; the order of the look-ups does not matter.
Planning fails for a recursion, for a compiler that is not there, or by the system.
-/
namespace TriplePass

namespace Plan

/-- The compiler of the run: with a sanitizer switch those that honour it go first. -/
def runCompiler (t : FileTree) (workingDir : Place) (s : Settings) (inv : Invocation)
    (r : Resolver) : Option Path :=
  let plain := s.runCompilers.findSome? (r.answer t workingDir)
  if inv.sanitizerSwitches = [] then plain
  else (s.sanitizerCompilers.findSome? (r.answer t workingDir)).or plain

def linterFor (t : FileTree) (workingDir : Place) (s : Settings) (inv : Invocation)
    (r : Resolver) : Option Path :=
  (s.linter.filter fun linter => linter != "" && !inv.sourcePaths.isEmpty).bind
    (r.answer t workingDir)

end Plan

namespace Resolver.Agrees
variable {t : FileTree} {workingDir : Place} {r u : Resolver}

theorem runCompiler (h : r.Agrees t workingDir u) (s : Settings) (inv : Invocation) :
    Plan.runCompiler t workingDir s inv u = Plan.runCompiler t workingDir s inv r := by
  simp only [Plan.runCompiler, h.findSome?]

theorem linterFor (h : r.Agrees t workingDir u) (s : Settings) (inv : Invocation) :
    Plan.linterFor t workingDir s inv u = Plan.linterFor t workingDir s inv r := by
  simp only [Plan.linterFor, funext h.answer]

end Resolver.Agrees

namespace Plan
variable {t : FileTree} {workingDir : Place} {s : Settings} {env : Environment}
  {inv : Invocation} {sources : List Source} {r u : Resolver} {p : Plan} {e : Failure}

structure Made (t : FileTree) (workingDir : Place) (s : Settings) (inv : Invocation)
    (sources : List Source) (r : Resolver) (p : Plan) : Prop where
  check : p.check = true
  run : p.run = runsTests inv sources
  lint : p.lint = p.lintProgram.isSome
  redirection : p.redirection = if p.run || p.lint then .capture else .inherit
  checkProgram : p.checkProgram = s.checkCompilers.findSome? (r.answer t workingDir)
  checkFound : p.checkProgram.isSome
  runProgram : p.runProgram = if p.run then runCompiler t workingDir s inv r else none
  runFound : p.run → p.runProgram.isSome
  lintProgram : p.lintProgram = linterFor t workingDir s inv r
  checkSanitized : p.checkSanitized = honoursSanitizer s p.checkProgram
  runSanitized : p.runSanitized = honoursSanitizer s p.runProgram
  allocator : firstFile t workingDir s.allocatorLibraries = .ok p.allocator
  demangler : p.demangler =
    if s.useDemangler then r.answer t workingDir s.demangler else none
  coverage : p.coverage = inv.requestsCoverage
  sources : p.sources = sources

inductive Refused (t : FileTree) (workingDir : Place) (s : Settings) (env : Environment)
    (inv : Invocation) (sources : List Source) (r : Resolver) : Failure → Prop where
  | recursion {reason : String} : Recursion.reason? inv env s.recursionMarker = some reason →
      Refused t workingDir s env inv sources r (.harness (.selfRecursion reason))
  | noCheck : s.checkCompilers.findSome? (r.answer t workingDir) = none →
      Refused t workingDir s env inv sources r (.harness (.programNotFound s.checkCompilers))
  | noRun : runsTests inv sources = true → runCompiler t workingDir s inv r = none →
      Refused t workingDir s env inv sources r (.harness (.programNotFound s.runCompilers))
  | system {e : Errno} : firstFile t workingDir s.allocatorLibraries = .error e →
      Refused t workingDir s env inv sources r (.system e)

/-- The reason for which planning stops: the first that applies, all others before it being ruled
out. -/
inductive Stopped (t : FileTree) (workingDir : Place) (s : Settings) (env : Environment)
    (inv : Invocation) (sources : List Source) (r : Resolver) : Failure → Prop where
  | recursion {reason : String} : Recursion.reason? inv env s.recursionMarker = some reason →
      Stopped t workingDir s env inv sources r (.harness (.selfRecursion reason))
  | noCheck : Recursion.reason? inv env s.recursionMarker = none →
      s.checkCompilers.findSome? (r.answer t workingDir) = none →
      Stopped t workingDir s env inv sources r (.harness (.programNotFound s.checkCompilers))
  | noRun {path : Path} : Recursion.reason? inv env s.recursionMarker = none →
      s.checkCompilers.findSome? (r.answer t workingDir) = some path →
      runsTests inv sources = true → runCompiler t workingDir s inv r = none →
      Stopped t workingDir s env inv sources r (.harness (.programNotFound s.runCompilers))
  | system {path : Path} {e : Errno} : Recursion.reason? inv env s.recursionMarker = none →
      s.checkCompilers.findSome? (r.answer t workingDir) = some path →
      (runsTests inv sources = true → runCompiler t workingDir s inv r ≠ none) →
      firstFile t workingDir s.allocatorLibraries = .error e →
      Stopped t workingDir s env inv sources r (.system e)

theorem Stopped.refused (h : Stopped t workingDir s env inv sources r e) :
    Refused t workingDir s env inv sources r e := by
  cases h with
  | recursion hreason => exact .recursion hreason
  | noCheck _ hnone => exact .noCheck hnone
  | noRun _ _ hruns hnone => exact .noRun hruns hnone
  | system _ _ _ herror => exact .system herror

theorem preferred_ok {names : List String} {found : Option Path}
    (h : Lookup.preferred t workingDir names r = .ok found u) :
    found = names.findSome? (r.answer t workingDir) ∧ r.Agrees t workingDir u := by
  obtain ⟨hfound, hagrees⟩ := Resolver.preferred_spec t workingDir r names
  unfold Lookup.preferred at h
  cases h
  exact ⟨hfound, hagrees⟩

theorem resolve_ok {name : String} {found : Option Path}
    (h : Lookup.resolve t workingDir name r = .ok found u) :
    found = r.answer t workingDir name ∧ r.Agrees t workingDir u := by
  unfold Lookup.resolve at h
  cases h
  exact ⟨rfl, Resolver.resolve_agrees t workingDir r name⟩

theorem require_ok {names : List String} {found : Option Path} {path : Path}
    (h : Lookup.require names found r = .ok path u) : found = some path ∧ r = u := by
  cases found with
  | none => cases h
  | some q =>
    cases h
    exact ⟨rfl, rfl⟩

theorem require_error {names : List String} {found : Option Path}
    (h : Lookup.require names found r = .error e u) :
    found = none ∧ e = .harness (.programNotFound names) := by
  cases found with
  | none =>
    cases h
    exact ⟨rfl, rfl⟩
  | some q => cases h

theorem checkProgramFor_ok {path : Path}
    (h : checkProgramFor t workingDir s r = .ok path u) :
    s.checkCompilers.findSome? (r.answer t workingDir) = some path ∧ r.Agrees t workingDir u := by
  obtain ⟨found, v, hfound, h⟩ := Effect.bind_ok h
  obtain ⟨rfl, hagrees⟩ := preferred_ok hfound
  obtain ⟨hpath, rfl⟩ := require_ok h
  exact ⟨hpath, hagrees⟩

theorem checkProgramFor_error (h : checkProgramFor t workingDir s r = .error e u) :
    s.checkCompilers.findSome? (r.answer t workingDir) = none ∧
      e = .harness (.programNotFound s.checkCompilers) := by
  rcases Effect.bind_error h with h | ⟨found, v, hfound, h⟩
  · cases h
  · obtain ⟨rfl, _⟩ := preferred_ok hfound
    exact require_error h

/-- The compilers that honour sanitizer switches, where one is wanted. -/
theorem sanitizing_ok {sanitizing : Option Path}
    (h : (if inv.sanitizerSwitches.isEmpty then pure none
      else Lookup.preferred t workingDir s.sanitizerCompilers) r = .ok sanitizing u) :
    sanitizing = (if inv.sanitizerSwitches = [] then none
      else s.sanitizerCompilers.findSome? (r.answer t workingDir)) ∧ r.Agrees t workingDir u := by
  by_cases he : inv.sanitizerSwitches = []
  · simp only [he, List.isEmpty_nil, ↓reduceIte] at h ⊢
    cases h
    exact ⟨rfl, .refl r⟩
  · rw [if_neg (by simpa using he)] at h ⊢
    exact preferred_ok h

theorem runCompiler_eq (t : FileTree) (workingDir : Place) (s : Settings) (inv : Invocation)
    (r : Resolver) :
    runCompiler t workingDir s inv r =
      (if inv.sanitizerSwitches = [] then none
        else s.sanitizerCompilers.findSome? (r.answer t workingDir)).or
      (s.runCompilers.findSome? (r.answer t workingDir)) := by
  unfold runCompiler
  split <;> rfl

theorem runProgramFor_ok {path : Path}
    (h : runProgramFor t workingDir s inv r = .ok path u) :
    runCompiler t workingDir s inv r = some path ∧ r.Agrees t workingDir u := by
  simp only [runProgramFor, Effect.ite_bind] at h
  obtain ⟨sanitizing, v, hs, h⟩ := Effect.bind_ok h
  obtain ⟨hsanitizing, hv⟩ := sanitizing_ok hs
  rw [runCompiler_eq, ← hsanitizing]
  cases sanitizing with
  | some q =>
    cases h
    exact ⟨rfl, hv⟩
  | none =>
    obtain ⟨found, w, hfound, h⟩ := Effect.bind_ok h
    obtain ⟨rfl, hw⟩ := preferred_ok hfound
    obtain ⟨hpath, rfl⟩ := require_ok h
    exact ⟨(hv.findSome? _).symm.trans hpath, hv.trans hw⟩

theorem runProgramFor_error (h : runProgramFor t workingDir s inv r = .error e u) :
    runCompiler t workingDir s inv r = none ∧ e = .harness (.programNotFound s.runCompilers) := by
  simp only [runProgramFor, Effect.ite_bind] at h
  rcases Effect.bind_error h with hs | ⟨sanitizing, v, hs, h⟩
  · by_cases he : inv.sanitizerSwitches.isEmpty = true
    · rw [if_pos he] at hs
      cases hs
    · rw [if_neg he] at hs
      cases hs
  · obtain ⟨hsanitizing, hv⟩ := sanitizing_ok hs
    rw [runCompiler_eq, ← hsanitizing]
    cases sanitizing with
    | some path => cases h
    | none =>
      rcases Effect.bind_error h with h | ⟨found, w, hfound, h⟩
      · cases h
      · obtain ⟨rfl, _⟩ := preferred_ok hfound
        obtain ⟨hnone, rfl⟩ := require_error h
        exact ⟨(hv.findSome? _).symm.trans hnone, rfl⟩

theorem lintProgramFor_ok {found : Option Path}
    (h : lintProgramFor t workingDir s inv r = .ok found u) :
    found = linterFor t workingDir s inv r ∧ r.Agrees t workingDir u := by
  unfold lintProgramFor at h
  unfold linterFor
  cases hl : s.linter with
  | none =>
    rw [hl] at h
    cases h
    exact ⟨rfl, .refl r⟩
  | some linter =>
    rw [hl] at h
    by_cases hc : linter = "" ∨ inv.sourcePaths = []
    · simp only [if_pos hc] at h
      cases h
      refine ⟨?_, .refl r⟩
      rcases hc with rfl | hc
      · rfl
      · simp [hc, Option.filter]
    · simp only [if_neg hc] at h
      obtain ⟨hname, hsources⟩ := not_or.mp hc
      obtain ⟨rfl, hagrees⟩ := resolve_ok h
      exact ⟨by simp [Option.filter, hname, hsources], hagrees⟩

theorem allocatorFor_ok {found : Option Path} (h : allocatorFor t workingDir s r = .ok found u) :
    firstFile t workingDir s.allocatorLibraries = .ok found ∧ r = u := by
  unfold allocatorFor at h
  cases hf : firstFile t workingDir s.allocatorLibraries with
  | ok path =>
    rw [hf] at h
    cases h
    exact ⟨rfl, rfl⟩
  | error e =>
    rw [hf] at h
    cases h

theorem firstFile_append {before : List Path}
    (hbefore : ∀ q ∈ before, t.isFile workingDir q = .ok false) (rest : List Path) :
    firstFile t workingDir (before ++ rest) = firstFile t workingDir rest := by
  induction before with
  | nil => rfl
  | cons q before ih =>
    obtain ⟨hq, hbefore⟩ := List.forall_mem_cons.1 hbefore
    rw [List.cons_append, firstFile, hq]
    exact ih hbefore

/-- The system refuses the look-up at the first path that is not merely no file. -/
theorem firstFile_eq_error {paths : List Path} {errno : Errno} :
    firstFile t workingDir paths = .error errno ↔
      ∃ before path after, paths = before ++ path :: after ∧
        (∀ q ∈ before, t.isFile workingDir q = .ok false) ∧
        t.isFile workingDir path = .error errno := by
  constructor
  · intro h
    induction paths with
    | nil => cases h
    | cons first rest ih =>
      unfold firstFile at h
      cases hfile : t.isFile workingDir first with
      | error errno' =>
        rw [hfile] at h
        cases h
        exact ⟨[], first, rest, rfl, fun _ hq => absurd hq List.not_mem_nil, hfile⟩
      | ok isFile =>
        rw [hfile] at h
        cases isFile with
        | true => cases h
        | false =>
          obtain ⟨before, path, after, rfl, hbefore, hpath⟩ := ih h
          exact ⟨first :: before, path, after, rfl, List.forall_mem_cons.2 ⟨hfile, hbefore⟩, hpath⟩
  · rintro ⟨before, path, after, rfl, hbefore, hpath⟩
    rw [firstFile_append hbefore, firstFile, hpath]
    rfl

theorem firstFile_error {paths : List Path} {errno : Errno}
    (h : firstFile t workingDir paths = .error errno) :
    ∃ path ∈ paths, t.isFile workingDir path = .error errno := by
  obtain ⟨before, path, after, rfl, -, hask⟩ := firstFile_eq_error.1 h
  exact ⟨path, by simp, hask⟩

theorem firstFile_ok {paths : List Path} {path : Path}
    (h : firstFile t workingDir paths = .ok (some path)) :
    path ∈ paths ∧ t.isFile workingDir path = .ok true := by
  induction paths with
  | nil => cases h
  | cons first rest ih =>
    unfold firstFile at h
    cases hfile : t.isFile workingDir first with
    | error errno =>
      rw [hfile] at h
      cases h
    | ok isFile =>
      rw [hfile] at h
      cases isFile with
      | true =>
        cases h
        exact ⟨List.mem_cons_self, hfile⟩
      | false =>
        obtain ⟨hmem, hask⟩ := ih h
        exact ⟨List.mem_cons_of_mem _ hmem, hask⟩

theorem allocatorFor_error (h : allocatorFor t workingDir s r = .error e u) :
    ∃ errno, firstFile t workingDir s.allocatorLibraries = .error errno ∧ e = .system errno := by
  unfold allocatorFor at h
  cases hf : firstFile t workingDir s.allocatorLibraries with
  | ok path =>
    rw [hf] at h
    cases h
  | error e =>
    rw [hf] at h
    cases h
    exact ⟨e, rfl, rfl⟩

theorem demanglerFor_ok {found : Option Path}
    (h : demanglerFor t workingDir s r = .ok found u) :
    found = (if s.useDemangler then r.answer t workingDir s.demangler else none) ∧
      r.Agrees t workingDir u := by
  unfold demanglerFor at h
  by_cases hd : s.useDemangler = true
  · rw [if_pos hd] at h ⊢
    exact resolve_ok h
  · rw [if_neg hd] at h ⊢
    cases h
    exact ⟨rfl, .refl r⟩

theorem refuseRecursion_ok {marker : String} {x : Unit}
    (h : refuseRecursion inv env marker r = .ok x u) :
    Recursion.reason? inv env marker = none ∧ r = u := by
  unfold refuseRecursion at h
  cases hr : Recursion.reason? inv env marker with
  | none =>
    rw [hr] at h
    cases h
    exact ⟨rfl, rfl⟩
  | some reason =>
    rw [hr] at h
    cases h

theorem refuseRecursion_error {marker : String}
    (h : refuseRecursion inv env marker r = .error e u) :
    ∃ reason, Recursion.reason? inv env marker = some reason ∧
      e = .harness (.selfRecursion reason) := by
  unfold refuseRecursion at h
  cases hr : Recursion.reason? inv env marker with
  | none =>
    rw [hr] at h
    cases h
  | some reason =>
    rw [hr] at h
    cases h
    exact ⟨reason, rfl, rfl⟩

theorem lintProgramFor_error (h : lintProgramFor t workingDir s inv r = .error e u) : False := by
  unfold lintProgramFor at h
  cases hl : s.linter with
  | none =>
    rw [hl] at h
    cases h
  | some linter =>
    rw [hl] at h
    by_cases hc : linter = "" ∨ inv.sourcePaths = []
    · simp only [if_pos hc] at h
      cases h
    · simp only [if_neg hc] at h
      cases h

theorem demanglerFor_error (h : demanglerFor t workingDir s r = .error e u) : False := by
  unfold demanglerFor at h
  by_cases hd : s.useDemangler = true
  · rw [if_pos hd] at h
    cases h
  · rw [if_neg hd] at h
    cases h

theorem make_ok (h : make t workingDir s env inv sources r = .ok p u) :
    Recursion.reason? inv env s.recursionMarker = none ∧ Made t workingDir s inv sources r p ∧
      r.Agrees t workingDir u := by
  simp only [make, Effect.ite_bind] at h
  obtain ⟨_, _, hrec, h⟩ := Effect.bind_ok h
  obtain ⟨hreason, rfl⟩ := refuseRecursion_ok hrec
  obtain ⟨check, v, hcheck, h⟩ := Effect.bind_ok h
  obtain ⟨hcheck, hv⟩ := checkProgramFor_ok hcheck
  obtain ⟨run, w, hrun, h⟩ := Effect.bind_ok h
  have hrun : run = (if runsTests inv sources then runCompiler t workingDir s inv r else none) ∧
      (runsTests inv sources → run.isSome) ∧ r.Agrees t workingDir w := by
    by_cases hc : runsTests inv sources = true
    · rw [if_pos hc] at hrun ⊢
      obtain ⟨path, hpath, rfl⟩ := Effect.map_ok hrun
      obtain ⟨hpath, hw⟩ := runProgramFor_ok hpath
      rw [hv.runCompiler] at hpath
      exact ⟨hpath.symm, fun _ => rfl, hv.trans hw⟩
    · rw [if_neg hc] at hrun ⊢
      cases hrun
      exact ⟨rfl, fun hrun => absurd hrun hc, hv⟩
  obtain ⟨hrun, hfound, hw⟩ := hrun
  obtain ⟨lint, x, hlint, h⟩ := Effect.bind_ok h
  obtain ⟨hlint, hx⟩ := lintProgramFor_ok hlint
  rw [hw.linterFor] at hlint
  obtain ⟨allocator, y, ha, h⟩ := Effect.bind_ok h
  obtain ⟨hallocator, rfl⟩ := allocatorFor_ok ha
  obtain ⟨demangler, z, hd, h⟩ := Effect.bind_ok h
  obtain ⟨hdemangler, hz⟩ := demanglerFor_ok hd
  rw [(hw.trans hx).answer] at hdemangler
  cases h
  refine ⟨hreason, ?_, (hw.trans hx).trans hz⟩
  exact {
    check := rfl
    run := rfl
    lint := rfl
    redirection := rfl
    checkProgram := hcheck.symm
    checkFound := rfl
    runProgram := hrun
    runFound := hfound
    lintProgram := hlint
    checkSanitized := rfl
    runSanitized := rfl
    allocator := hallocator
    demangler := hdemangler
    coverage := rfl
    sources := rfl
  }

theorem make_stopped (h : make t workingDir s env inv sources r = .error e u) :
    Stopped t workingDir s env inv sources r e := by
  simp only [make, Effect.ite_bind] at h
  rcases Effect.bind_error h with h | ⟨_, v, hrec, h⟩
  · obtain ⟨reason, hreason, rfl⟩ := refuseRecursion_error h
    exact .recursion hreason
  obtain ⟨hreason, rfl⟩ := refuseRecursion_ok hrec
  rcases Effect.bind_error h with h | ⟨check, w, hcheck, h⟩
  · obtain ⟨hnone, rfl⟩ := checkProgramFor_error h
    exact .noCheck hreason hnone
  obtain ⟨hcheck, hagrees⟩ := checkProgramFor_ok hcheck
  rcases Effect.bind_error h with h | ⟨run, x, hrun, h⟩
  · by_cases hc : runsTests inv sources = true
    · rw [if_pos hc] at h
      obtain ⟨hnone, rfl⟩ := runProgramFor_error (Effect.map_error h)
      rw [hagrees.runCompiler] at hnone
      exact .noRun hreason hcheck hc hnone
    · rw [if_neg hc] at h
      cases h
  have hfound : runsTests inv sources = true → runCompiler t workingDir s inv r ≠ none := by
    intro hc
    rw [if_pos hc] at hrun
    obtain ⟨path, hpath, rfl⟩ := Effect.map_ok hrun
    rw [← hagrees.runCompiler, (runProgramFor_ok hpath).1]
    exact Option.some_ne_none path
  rcases Effect.bind_error h with h | ⟨lint, y, _, h⟩
  · exact (lintProgramFor_error h).elim
  rcases Effect.bind_error h with h | ⟨allocator, z, _, h⟩
  · obtain ⟨errno, hfile, rfl⟩ := allocatorFor_error h
    exact .system hreason hcheck hfound hfile
  rcases Effect.bind_error h with h | ⟨demangler, z, _, h⟩
  · exact (demanglerFor_error h).elim
  · cases h

theorem make_error (h : make t workingDir s env inv sources r = .error e u) :
    Refused t workingDir s env inv sources r e :=
  (make_stopped h).refused

theorem classifyAll_ok {dir : Path} {args : List String}
    (h : classifyAll t workingDir dir args r = .ok sources u) :
    args.mapM (Source.classify? t workingDir dir) = some sources ∧ r = u := by
  induction args generalizing sources u with
  | nil =>
    cases h
    exact ⟨rfl, rfl⟩
  | cons arg rest ih =>
    unfold classifyAll at h
    cases hc : Source.classify? t workingDir dir arg with
    | none =>
      rw [hc] at h
      cases h
    | some source =>
      rw [hc] at h
      obtain ⟨others, v, hrest, h⟩ := Effect.bind_ok h
      obtain ⟨hothers, rfl⟩ := ih hrest
      cases h
      exact ⟨by simp [hc, hothers], rfl⟩

theorem classifyAll_error {dir : Path} {args : List String}
    (h : classifyAll t workingDir dir args r = .error e u) :
    e = .embeddedNul ∧ ∃ arg ∈ args, Source.classify? t workingDir dir arg = none := by
  induction args with
  | nil => cases h
  | cons arg rest ih =>
    unfold classifyAll at h
    cases hc : Source.classify? t workingDir dir arg with
    | none =>
      rw [hc] at h
      cases h
      exact ⟨rfl, arg, List.mem_cons_self, hc⟩
    | some source =>
      rw [hc] at h
      rcases Effect.bind_error h with h | ⟨others, v, _, h⟩
      · obtain ⟨he, arg', harg, hnone⟩ := ih h
        exact ⟨he, arg', List.mem_cons_of_mem _ harg, hnone⟩
      · cases h

theorem ofInvocation_ok {dir : Path} (h : ofInvocation t workingDir s env dir inv r = .ok p u) :
    ∃ sources, inv.sourcePaths.mapM (Source.classify? t workingDir dir) = some sources ∧
      Recursion.reason? inv env s.recursionMarker = none ∧
      Made t workingDir s inv sources r p ∧ r.Agrees t workingDir u := by
  obtain ⟨sources, v, hs, h⟩ := Effect.bind_ok h
  obtain ⟨hsources, rfl⟩ := classifyAll_ok hs
  exact ⟨sources, hsources, make_ok h⟩

theorem ofInvocation_error {dir : Path}
    (h : ofInvocation t workingDir s env dir inv r = .error e u) :
    (∃ sources, inv.sourcePaths.mapM (Source.classify? t workingDir dir) = some sources ∧
      Refused t workingDir s env inv sources r e) ∨
    e = .embeddedNul ∧ ∃ arg ∈ inv.sourcePaths, Source.classify? t workingDir dir arg = none := by
  rcases Effect.bind_error h with h | ⟨sources, v, hs, h⟩
  · exact .inr (classifyAll_error h)
  · obtain ⟨hsources, rfl⟩ := classifyAll_ok hs
    exact .inl ⟨sources, hsources, make_error h⟩

end Plan
end TriplePass

import TriplePass.Proofs.FileTree
import TriplePass.Proofs.Harness.Launching
import TriplePass.Proofs.Task.Environment

/-! # A harness inside a harness

Every child finds the recursion marker in its environment, and a harness that finds the marker
goes no further: it looks for no program and starts no child. So a harness that a child starts
never has children of its own. It does classify its sources before it looks for the marker, and a
NUL in the name of one of them is what it then reports.
-/
namespace TriplePass

namespace Recursion

def alreadyRunning (marker : String) : String :=
  "already running inside " ++ harnessName ++ " ($" ++ marker ++ " is set)"

theorem reason_of_marked {env : Environment} {marker : String} (h : env.value marker ≠ "")
    (inv : Invocation) : reason? inv env marker = some (alreadyRunning marker) := by
  have hset : ((Dictionary.get? env marker).getD "" != "") = true := bne_iff_ne.2 h
  rw [reason?, if_pos hset]
  rfl

end Recursion

namespace Plan
variable {t : FileTree} {workingDir : Place} {s : Settings} {env : Environment}
  {inv : Invocation} {sources : List Source} {r u : Resolver} {p : Plan} {dir : Path}

theorem make_of_marked (h : env.value s.recursionMarker ≠ "") (inv : Invocation)
    (sources : List Source) (r : Resolver) :
    make t workingDir s env inv sources r =
      .error (.harness (.selfRecursion (Recursion.alreadyRunning s.recursionMarker))) r := by
  have hrefused : refuseRecursion inv env s.recursionMarker r =
      .error (.harness (.selfRecursion (Recursion.alreadyRunning s.recursionMarker))) r := by
    rw [refuseRecursion, Recursion.reason_of_marked h]
    rfl
  exact Effect.bind_of_error hrefused _

/-- A name that the system cannot even be asked for, seen from a directory. -/
def isUnaskable (dir : Path) (arg : String) : Bool :=
  (dir.join (Path.ofString arg)).hasNul

theorem classify_of_unaskable {arg : String} (h : isUnaskable dir arg = true) :
    Source.classify? t workingDir dir arg = none := if_pos h

theorem classify_of_askable {arg : String} (h : isUnaskable dir arg = false) (t : FileTree)
    (workingDir : Place) :
    ∃ source, Source.classify? t workingDir dir arg = some source :=
  ⟨_, if_neg (Bool.eq_false_iff.1 h)⟩

theorem classifyAll_of_unaskable {args : List String}
    (h : args.any (isUnaskable dir) = true) (r : Resolver) :
    classifyAll t workingDir dir args r = .error .embeddedNul r := by
  induction args with
  | nil => cases h
  | cons arg rest ih =>
    unfold classifyAll
    cases harg : isUnaskable dir arg with
    | true =>
      rw [classify_of_unaskable harg]
      rfl
    | false =>
      obtain ⟨source, hsource⟩ := classify_of_askable harg t workingDir
      have hrest : rest.any (isUnaskable dir) = true := by simpa [harg] using h
      rw [hsource]
      exact Effect.bind_of_error (ih hrest) _

theorem classifyAll_of_askable {args : List String} (h : args.any (isUnaskable dir) = false)
    (t : FileTree) (workingDir : Place) (r : Resolver) :
    ∃ sources, classifyAll t workingDir dir args r = .ok sources r := by
  induction args with
  | nil => exact ⟨[], rfl⟩
  | cons arg rest ih =>
    obtain ⟨harg, hrest⟩ := Bool.or_eq_false_iff.1 h
    obtain ⟨source, hsource⟩ := classify_of_askable harg t workingDir
    obtain ⟨sources, hsources⟩ := ih hrest
    unfold classifyAll
    rw [hsource]
    exact ⟨_, Effect.bind_of_ok hsources _⟩

theorem ofInvocation_of_marked (h : env.value s.recursionMarker ≠ "") (inv : Invocation)
    (r : Resolver) :
    ofInvocation t workingDir s env dir inv r =
      .error (if inv.sourcePaths.any (isUnaskable dir) then .embeddedNul
        else .harness (.selfRecursion (Recursion.alreadyRunning s.recursionMarker))) r := by
  unfold ofInvocation
  cases hnul : inv.sourcePaths.any (isUnaskable dir) with
  | true => exact Effect.bind_of_error (classifyAll_of_unaskable hnul r) _
  | false =>
    obtain ⟨sources, hsources⟩ := classifyAll_of_askable hnul t workingDir r
    rw [Effect.bind_of_ok hsources]
    exact make_of_marked h inv sources r

theorem Made.allocator_text {library : Path} (hmade : Made t workingDir s inv sources r p)
    (h : p.allocator = some library) : library.toString ≠ "" := by
  obtain ⟨_, hfile⟩ := firstFile_ok (hmade.allocator.trans (congrArg Except.ok h))
  exact FileTree.toString_of_isFile hfile

end Plan

namespace Task
variable {pass : Pass} {plan : Plan} {s : Settings} {parent : Environment}

/-- The marker may be the preload variable as well: then it holds the allocator's path. -/
theorem value_marker (hextra : s.extraEnvironment.Distinct)
    (hlibrary : ∀ library, plan.allocator = some library → library.toString ≠ "") :
    (childEnvironment pass plan s parent).value s.recursionMarker ≠ "" := by
  rw [Environment.value, get?_childEnvironment hextra, if_pos rfl]
  cases hp : preloaded pass plan with
  | none => exact (by decide : ("1" : String) ≠ "")
  | some library =>
    rw [Option.bind_some]
    split
    · exact extendPreload_ne_empty (hlibrary library (allocator_of_preloaded hp)) _
    · exact (by decide : ("1" : String) ≠ "")

end Task

namespace Harness
variable {h : Harness} {inv : Invocation} {p : Plan} {s : Settings} {env parent : Environment}
  {session v : Session}

def stop (h : Harness) (inv : Invocation) : Failure :=
  if inv.sourcePaths.any (Plan.isUnaskable h.dir) then .embeddedNul
  else .harness (.selfRecursion (Recursion.alreadyRunning h.settings.recursionMarker))

theorem plan_of_marked (hm : h.environment.value h.settings.recursionMarker ≠ "")
    (inv : Invocation) (session : Session) :
    h.plan inv session = .error (h.stop inv) session := by
  have hlookup : Run.lookup (fun t =>
      Plan.ofInvocation t h.workingDir h.settings h.environment h.dir inv) session =
        .error (h.stop inv) session := by
    rw [Run.lookup, Plan.ofInvocation_of_marked hm]
    rfl
  exact Effect.bind_of_error hlookup _

/-- In an environment with the marker every harness with the settings is stopped at once, and
leaves the session as it was: no program has been looked for and no child has been started. -/
structure Guarded (s : Settings) (env : Environment) : Prop where
  reason : ∀ inv, Recursion.reason? inv env s.recursionMarker =
    some (Recursion.alreadyRunning s.recursionMarker)
  stopped : ∀ h : Harness, h.settings = s → h.environment = env → ∀ arguments session,
    h.run arguments session = .error (h.stop (Invocation.ofArguments arguments)) session

theorem guarded_of_marked (hm : env.value s.recursionMarker ≠ "") : Guarded s env where
  reason := Recursion.reason_of_marked hm
  stopped := by
    rintro h rfl rfl arguments session
    exact Effect.bind_of_error (plan_of_marked hm _ session) _

/-- The environments at a depth of nested harnesses with the same settings. What a child starts
may find other variables, as long as the marker is passed on as the child has found it. -/
inductive Nested (s : Settings) : Nat → Environment → Prop where
  | outermost (env : Environment) : Nested s 0 env
  | child {depth : Nat} {h : Harness} {inv : Invocation} {session v : Session} {p : Plan}
      {pass : Pass} {task : Task} {env : Environment} :
      Nested s depth h.environment → h.settings = s → h.plan inv session = .ok p v →
      Task.build pass inv p s h.dir h.environment = .ok task →
      env.value s.recursionMarker = (task.environment h.environment).value s.recursionMarker →
      Nested s (depth + 1) env

theorem marked_of_planned (hextra : s.extraEnvironment.Distinct) {t : FileTree}
    {workingDir : Place} {sources : List Source} {r u : Resolver}
    (hplan : Plan.make t workingDir s env inv sources r = .ok p u) (pass : Pass)
    (parent : Environment) :
    (Task.childEnvironment pass p s parent).value s.recursionMarker ≠ "" := by
  obtain ⟨_, hmade, _⟩ := Plan.make_ok hplan
  exact Task.value_marker hextra fun _ => hmade.allocator_text

/-- Behind the outermost harness the marker is set. -/
theorem Nested.marked (hextra : s.extraEnvironment.Distinct) {depth : Nat}
    (hn : Nested s (depth + 1) env) : env.value s.recursionMarker ≠ "" := by
  cases hn with
  | child _ hs hplan hbuild hpassed =>
    subst hs
    obtain ⟨resolver, hmake, _⟩ := plan_ok hplan
    obtain ⟨sources, _, _, hmade, _⟩ := Plan.ofInvocation_ok hmake
    rw [hpassed, Task.environment_of_build hbuild]
    exact Task.value_marker hextra fun _ => hmade.allocator_text

theorem Nested.depth_le_one (hextra : s.extraEnvironment.Distinct) {depth : Nat}
    (hn : Nested s depth env) : depth ≤ 1 := by
  cases hn with
  | outermost => exact Nat.zero_le 1
  | @child depth h inv session v p pass task env hn hs hplan _ _ =>
    cases depth with
    | zero => exact Nat.le_refl 1
    | succ depth =>
      -- the harness that would have started this child made no plan
      have hmarked := hn.marked hextra
      subst hs
      rw [plan_of_marked hmarked] at hplan
      cases hplan

/-- A child's environment stops every harness with the settings, so that none is nested deeper
than in one other. -/
theorem nested_stopped (hextra : s.extraEnvironment.Distinct) {t : FileTree} {workingDir : Place}
    {sources : List Source} {r u : Resolver} {pass : Pass}
    (hplan : Plan.make t workingDir s parent inv sources r = .ok p u)
    (heligible : p.isEligible pass = true) (dir : Path) :
    (∃ task, Task.build pass inv p s dir parent = .ok task ∧
      Guarded s (task.environment parent)) ∧
    ∀ depth env, Nested s depth env → depth ≤ 1 := by
  constructor
  · have hbuild : ∃ task, Task.build pass inv p s dir parent = .ok task := by
      rw [Task.build, if_pos heligible]
      exact ⟨_, rfl⟩
    obtain ⟨task, hbuild⟩ := hbuild
    refine ⟨task, hbuild, guarded_of_marked ?_⟩
    rw [Task.environment_of_build hbuild]
    exact marked_of_planned hextra hplan pass parent
  · intro depth env hn
    exact hn.depth_le_one hextra

/-! ### A marker in the place of the preload list, and a source that is met before the marker -/

def nestingTree : FileTree where
  entries :=
    [(["bin"], .directory), (["bin", "dmd"], .file true []), (["lib"], .directory),
      (["lib", "liballoc.so"], .file false [])]

/-- The marker, the preload list and a variable of the settings share one name. -/
def crowdedSettings : Settings :=
  { linter := none, useDemangler := false, allocatorLibraries := [Path.ofString "lib/liballoc.so"],
    recursionMarker := "LD_PRELOAD", extraEnvironment := [("LD_PRELOAD", "")] }

def nestingPlan (s : Settings) : EStateM.Result Failure Resolver Plan :=
  Plan.make nestingTree [] s [("PATH", "bin")] (Invocation.ofArguments ["a.d"]) [⟨"a.d", false, false⟩]
    { directories := [Path.ofString "bin"] }

theorem nested_stopped_crowded :
    crowdedSettings.extraEnvironment.Distinct ∧ ∃ p u, nestingPlan crowdedSettings = .ok p u ∧
      p.isEligible .check = true ∧
      (∃ task, Task.build .check (Invocation.ofArguments ["a.d"]) p crowdedSettings
          (Path.ofString ".") [("PATH", "bin")] = .ok task ∧
        Guarded crowdedSettings (task.environment [("PATH", "bin")])) ∧
      ∀ depth env, Nested crowdedSettings depth env → depth ≤ 1 := by
  have hextra : crowdedSettings.extraEnvironment.Distinct := by decide
  have hplan : ∃ p u, nestingPlan crowdedSettings = .ok p u ∧ p.isEligible .check = true :=
    ⟨_, _, rfl, rfl⟩
  obtain ⟨p, u, hplan, heligible⟩ := hplan
  exact ⟨hextra, p, u, hplan, heligible, nested_stopped hextra hplan heligible _⟩

def bareSettings : Settings :=
  { linter := none, useDemangler := false }

def innerHarness (host : Host) (env : Environment) : Harness where
  settings := bareSettings
  console := {}
  environment := env
  host := host
  workingDir := []
  dir := Path.ofString "."

/-- The name of the source is what stops the inner harness, not the marker. -/
theorem nested_source_first :
    ∃ p u task, nestingPlan bareSettings = .ok p u ∧
      Task.build .check (Invocation.ofArguments ["a.d"]) p bareSettings (Path.ofString ".")
        [("PATH", "bin")] = .ok task ∧
      ∀ host, ∃ u, (innerHarness host (task.environment [("PATH", "bin")])).run ["a\x00.d"]
        ((innerHarness host (task.environment [("PATH", "bin")])).start nestingTree) =
          .error .embeddedNul u :=
  ⟨_, _, _, rfl, rfl, fun _ => ⟨_, rfl⟩⟩

end Harness
end TriplePass

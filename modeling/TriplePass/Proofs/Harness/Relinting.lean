import TriplePass.Proofs.Harness.Ending

/-! # Harnesses that differ in their linter

A harness whose linter is another one, or is not there, starts the same compilers on the same
files. Without the linter a check may be alone, and then writes to the harness's own streams.
-/
namespace TriplePass

def Running.redirected (r : Running) (q : Redirection) : Running :=
  ⟨{ r.task with redirection := q }, r.child⟩

namespace Running
variable {r : Running} {q : Redirection} {t : FileTree}

@[simp] theorem leaves_redirected (r : Running) (q : Redirection) (t : FileTree) :
    (r.redirected q).leaves t = r.leaves t := rfl

theorem redirected_self (h : r.task.redirection = q) : r.redirected q = r := by
  subst h
  rfl

theorem status_outcome (r : Running) (t : FileTree) :
    (r.outcome t).status = (r.child.finish t).1.status := by
  unfold outcome
  dsimp only
  split <;> rfl

theorem status_redirected (r : Running) (q : Redirection) (t : FileTree) :
    ((r.redirected q).outcome t).status = (r.outcome t).status := by
  rw [status_outcome, status_outcome]
  rfl

end Running

def Plan.relinted (p : Plan) (program : Option Path) (q : Redirection) : Plan :=
  { p with lint := program.isSome, lintProgram := program, redirection := q }

namespace Plan
variable {t : FileTree} {workingDir : Place} {s : Settings} {env : Environment}
  {inv : Invocation} {sources : List Source} {r : Resolver} {p p' : Plan} {e : Failure}

theorem relinted_self (h : p.lint = p.lintProgram.isSome) :
    p.relinted p.lintProgram p.redirection = p := by
  rw [relinted, ← h]

/-- Without a linter the same plan is made but for the lint; a check that is alone is not
captured. -/
theorem Made.unlinted (h : Made t workingDir s inv sources r p)
    (h' : Made t workingDir { s with linter := none } inv sources r p') :
    p' = p.relinted none (if p.run then .capture else .inherit) := by
  have hrun : p'.run = p.run := h'.run.trans h.run.symm
  have hprogram : p'.lintProgram = none := h'.lintProgram
  have hlint : p'.lint = false := by
    rw [h'.lint, hprogram]
    rfl
  have hredirection : p'.redirection = if p.run then .capture else .inherit := by
    rw [h'.redirection, hlint, Bool.or_false, hrun]
  have hcheckProgram : p'.checkProgram = p.checkProgram :=
    h'.checkProgram.trans h.checkProgram.symm
  have hrunProgram : p'.runProgram = p.runProgram := by
    rw [h'.runProgram, h.runProgram, hrun]
    rfl
  have hcheckSanitized : p'.checkSanitized = p.checkSanitized := by
    rw [h'.checkSanitized, h.checkSanitized, hcheckProgram]
    rfl
  have hrunSanitized : p'.runSanitized = p.runSanitized := by
    rw [h'.runSanitized, h.runSanitized, hrunProgram]
    rfl
  have hallocator : p'.allocator = p.allocator :=
    Except.ok.inj (h'.allocator.symm.trans h.allocator)
  have hdemangler : p'.demangler = p.demangler := h'.demangler.trans h.demangler.symm
  have hcheck : p'.check = p.check := h'.check.trans h.check.symm
  have hcoverage : p'.coverage = p.coverage := h'.coverage.trans h.coverage.symm
  have hsources : p'.sources = p.sources := h'.sources.trans h.sources.symm
  cases p'
  simp_all [relinted]

theorem Made.not_refused (h : Made t workingDir s inv sources r p)
    (hreason : Recursion.reason? inv env s.recursionMarker = none) :
    ¬Refused t workingDir { s with linter := none } env inv sources r e := by
  intro hrefused
  cases hrefused with
  | recursion hsome => cases hreason.symm.trans hsome
  | noCheck hnone =>
    have hfound := h.checkFound
    rw [h.checkProgram] at hfound
    cases (congrArg Option.isSome hnone).symm.trans hfound
  | noRun hruns hnone =>
    have hrun : p.run = true := h.run.trans hruns
    have hfound := h.runFound hrun
    rw [h.runProgram, if_pos hrun] at hfound
    cases (congrArg Option.isSome hnone).symm.trans hfound
  | system herror => cases herror.symm.trans h.allocator

end Plan

namespace Harness

def relinted (h : Harness) (other : Host) (linter : Option String) : Harness :=
  { h with host := other, settings := { h.settings with linter } }

variable {h : Harness} {other : Host} {linter : Option String} {inv : Invocation} {p : Plan}
  {program : Option Path} {q : Redirection} {pass : Pass} {task : Task} {r : Running}
  {running : List Running} {l : Launched} {s s' u v w x : Session} {e : Failure}

/-! ### The plan -/

theorem plan_unlinted (other : Host) (hplan : h.plan inv s = .ok p v) :
    ∃ v', (h.relinted other none).plan inv s =
        .ok (p.relinted none (if p.run then .capture else .inherit)) v' ∧ v'.tree = v.tree := by
  obtain ⟨resolver, hmake, rfl⟩ := plan_ok hplan
  obtain ⟨sources, known, hsources, hmake⟩ := Effect.bind_ok hmake
  obtain ⟨hreason, hmade, _⟩ := Plan.make_ok hmake
  -- the sources are classified before any linter is looked for
  have hunlinted : ∀ st : Settings, Plan.ofInvocation s.tree h.workingDir st h.environment h.dir
      inv s.resolver = Plan.make s.tree h.workingDir st h.environment inv sources known :=
    fun _ => Effect.bind_of_ok hsources _
  cases hplan' : (h.relinted other none).plan inv s with
  | ok p' v' =>
    obtain ⟨resolver', hmake', rfl⟩ := plan_ok hplan'
    obtain ⟨_, hmade', _⟩ := Plan.make_ok ((hunlinted _).symm.trans hmake')
    obtain rfl := hmade.unlinted hmade'
    exact ⟨_, rfl, rfl⟩
  | error e v' =>
    obtain ⟨resolver', hmake', _⟩ := plan_error hplan'
    have hrefused := Plan.make_error ((hunlinted _).symm.trans hmake')
    exact absurd hrefused (hmade.not_refused hreason)

/-! ### One launch -/

def begun (h : Harness) (r : Running) (s : Session) (t : FileTree) : Session :=
  ((s.add (h.announced r.task)).withTree t).add [.spawned r.pass]

inductive Begins (h : Harness) (inv : Invocation) (p : Plan) (pass : Pass) (s : Session) :
    Running → Session → Prop where
  | started {task : Task} {child : Child} {t : FileTree} :
      Task.build pass inv p h.settings h.dir h.environment = .ok task →
      task.fault? (task.environment h.environment) = none →
      h.host.spawn task (task.environment h.environment) s.tree = .ok (child, t) →
      Begins h inv p pass s ⟨task, child⟩ (h.begun ⟨task, child⟩ s t)

theorem launchNow_eq (hbuild : Task.build pass inv p h.settings h.dir h.environment = .ok task)
    (s : Session) : h.launchNow inv p pass s = h.spawn task (s.add (h.announced task)) := by
  obtain ⟨_, rfl, _⟩ := build_ok hbuild
  unfold launchNow
  rw [hbuild, Effect.bind_of_ok (show Run.lift (.ok task) s = .ok task s from rfl),
    Effect.bind_of_ok (debug_eq h _ s)]
  rfl

theorem launch_iff : h.launch inv p running pass s = .ok r u ↔ Begins h inv p pass s r u := by
  constructor
  · intro hl
    have hnow := launch_ok hl
    obtain ⟨task, child, t, hbuild, hspawn, rfl, _⟩ := launchNow_ok hnow
    rw [launchNow_eq hbuild] at hnow
    cases hf : task.fault? (task.environment h.environment) with
    | some failure =>
      rw [spawn, hf] at hnow
      cases hnow
    | none =>
      obtain ⟨child', t', hspawn', hr, rfl⟩ := spawn_ok hnow
      cases hr
      exact .started hbuild hf hspawn'
  · intro hb
    cases hb with
    | @started task child t hbuild hf hspawn =>
      refine Effect.tryCatch_of_ok ?_ _
      rw [launchNow_eq hbuild, spawn]
      simp only [hf, Effect.get_bind, Session.tree_add, hspawn, Effect.set_bind]
      rw [Effect.bind_of_ok (Run.record_eq _ _)]
      rfl

theorem Begins.session (hb : Begins h inv p pass s r u) : u = h.begun r s u.tree := by
  cases hb
  rfl

theorem Begins.built (hb : Begins h inv p pass s r u) :
    Task.build pass inv p h.settings h.dir h.environment = .ok r.task ∧
      r.task.fault? (r.task.environment h.environment) = none := by
  cases hb with
  | started hbuild hf _ => exact ⟨hbuild, hf⟩

theorem build_relinted (hpass : pass ≠ .lint)
    (hbuild : Task.build pass inv p h.settings h.dir h.environment = .ok task) :
    Task.build pass inv (p.relinted program q) { h.settings with linter } h.dir h.environment =
      .ok { task with redirection := q } := by
  unfold Task.build at hbuild
  split at hbuild
  next heligible =>
    cases hbuild
    cases pass with
    | lint => exact absurd rfl hpass
    | check | run => exact if_pos heligible
  next => cases hbuild

/-- The host starts a compiler as the first host does, even if it is redirected in another way. -/
def Follows (h : Harness) (other : Host) (p : Plan) (q : Redirection) : Prop :=
  ∀ task env t, task.pass ≠ .lint → task.redirection = p.redirection →
    other.spawn { task with redirection := q } env t = h.host.spawn task env t

theorem Begins.relinted (linter : Option String) (program : Option Path)
    (hfollows : Follows h other p q) (hpass : pass ≠ .lint) (hb : Begins h inv p pass s r u)
    (htree : s'.tree = s.tree) :
    Begins (h.relinted other linter) inv (p.relinted program q) pass s' (r.redirected q)
      (h.begun r s' u.tree) := by
  cases hb with
  | @started task child t hbuild hf hspawn =>
    obtain ⟨_, hkind, hred⟩ := build_ok hbuild
    have hspawn' : other.spawn { task with redirection := q } (task.environment h.environment)
        s'.tree = .ok (child, t) := by
      rw [hfollows task _ _ (hkind ▸ hpass) hred, htree]
      exact hspawn
    exact .started (build_relinted hpass hbuild) hf hspawn'

/-! ### The launch of the compilers -/

def launchCompilers (h : Harness) (inv : Invocation) (p : Plan) : Run (Running × Option Running) :=
  h.launch inv p [] .check >>= fun check =>
    (if p.run then some <$> h.launch inv p [check] .run else pure none) >>= fun run =>
      pure (check, run)

def launchLint (h : Harness) (inv : Invocation) (p : Plan) (compilers : Running × Option Running) :
    Run Launched :=
  (if p.lint then some <$> h.launch inv p (compilers.1 :: compilers.2.toList) .lint
    else pure none) >>= fun lint => pure ⟨compilers.1, compilers.2, lint⟩

theorem launchAll_split (h : Harness) (inv : Invocation) (p : Plan) :
    h.launchAll inv p = h.launchCompilers inv p >>= h.launchLint inv p := by
  unfold launchAll launchCompilers launchLint
  cases p.run <;> cases p.lint <;> simp

theorem launchLint_ok {compilers : Running × Option Running}
    (hl : h.launchLint inv p compilers s = .ok l u) :
    l.check = compilers.1 ∧ l.run = compilers.2 ∧
      (p.lint = true → ∃ r, l.lint = some r ∧ Begins h inv p .lint s r u) ∧
      (p.lint = false → l.lint = none ∧ u = s) := by
  obtain ⟨lint, v, hlint, hl⟩ := Effect.bind_ok hl
  cases hl
  refine ⟨rfl, rfl, ?_, ?_⟩
  · intro hp
    rw [if_pos hp] at hlint
    obtain ⟨r, hr, rfl⟩ := Effect.map_ok hlint
    exact ⟨r, rfl, launch_iff.1 hr⟩
  · intro hp
    rw [if_neg (Bool.eq_false_iff.1 hp)] at hlint
    cases hlint
    exact ⟨rfl, rfl⟩

theorem launchCompilers_ok {compilers : Running × Option Running}
    (hl : h.launchCompilers inv p s = .ok compilers u) :
    ∃ v, Begins h inv p .check s compilers.1 v ∧
      (p.run = true → ∃ r, compilers.2 = some r ∧ Begins h inv p .run v r u) ∧
      (p.run = false → compilers.2 = none ∧ u = v) := by
  obtain ⟨check, v, hcheck, hl⟩ := Effect.bind_ok hl
  obtain ⟨run, w, hrun, hl⟩ := Effect.bind_ok hl
  cases hl
  refine ⟨v, launch_iff.1 hcheck, ?_, ?_⟩
  · intro hp
    rw [if_pos hp] at hrun
    obtain ⟨r, hr, rfl⟩ := Effect.map_ok hrun
    exact ⟨r, rfl, launch_iff.1 hr⟩
  · intro hp
    rw [if_neg (Bool.eq_false_iff.1 hp)] at hrun
    cases hrun
    exact ⟨rfl, rfl⟩

/-- With another linter the compilers are started alike, and in the same sessions if they begin in
the same. -/
theorem launchCompilers_relinted {compilers : Running × Option Running} (linter : Option String)
    (program : Option Path) (hfollows : Follows h other p q)
    (hl : h.launchCompilers inv p s = .ok compilers u) (htree : s'.tree = s.tree) :
    ∃ u', (h.relinted other linter).launchCompilers inv (p.relinted program q) s' =
        .ok (compilers.1.redirected q, compilers.2.map (·.redirected q)) u' ∧
      u'.tree = u.tree ∧ (s' = s → u' = u) := by
  obtain ⟨check, run⟩ := compilers
  obtain ⟨v, hcheck, hrun, hnone⟩ := launchCompilers_ok hl
  have hcheck' := hcheck.relinted linter program hfollows (by decide) htree
  have hv : s' = s → h.begun check s' v.tree = v := by
    rintro rfl
    exact hcheck.session.symm
  unfold launchCompilers
  rw [Effect.bind_of_ok (launch_iff.2 hcheck')]
  cases hp : p.run with
  | true =>
    obtain ⟨r, hr, hbegins⟩ := hrun hp
    have htold : (h.begun check s' v.tree).tree = v.tree := rfl
    have hr' := hbegins.relinted linter program hfollows (by decide) htold
    have hwanted : (p.relinted program q).run = true := hp
    rw [if_pos hwanted, Effect.bind_of_ok (Effect.map_of_ok (launch_iff.2 hr') some)]
    refine ⟨h.begun r (h.begun check s' v.tree) u.tree, ?_, rfl, ?_⟩
    · dsimp only at hr
      rw [hr]
      rfl
    · intro hs
      rw [hv hs]
      exact hbegins.session.symm
  | false =>
    obtain ⟨hr, rfl⟩ := hnone hp
    have hunwanted : (p.relinted program q).run = false := hp
    rw [if_neg (Bool.eq_false_iff.1 hunwanted)]
    dsimp only at hr
    rw [hr]
    exact ⟨_, rfl, rfl, hv⟩

end Harness
end TriplePass

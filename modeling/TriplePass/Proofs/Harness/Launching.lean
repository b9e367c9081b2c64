import TriplePass.Proofs.Harness.Milestones
import TriplePass.Proofs.Plan.Making

/-! # Starting the tasks of a plan

The tasks of a plan are started one after the other, each in the files that the one before has
left. When the host refuses a task, those that are already running are waited for; nothing else
happens in between.
-/
namespace TriplePass

def Pass.launchOrder : List Pass :=
  [.check, .run, .lint]

namespace Harness
variable {h : Harness} {inv : Invocation} {p : Plan} {pass : Pass} {task : Task}
  {running rs : List Running} {r : Running} {s u : Session} {e : Failure}

def debugged (h : Harness) (message : String) : List Event :=
  Run.logged (h.console.debugText message)

theorem debug_eq (h : Harness) (message : String) (s : Session) :
    h.debug message s = .ok () (s.add (h.debugged message)) :=
  Run.log_eq _ s

/-- A plan is made of what the session holds, and only the resolver learns from it. -/
theorem plan_ok (hp : h.plan inv s = .ok p u) :
    ∃ resolver, Plan.ofInvocation s.tree h.workingDir h.settings h.environment h.dir inv
        s.resolver = .ok p resolver ∧
      u = { s with resolver }.add (h.debugged ("plan " ++ p.describe)) := by
  obtain ⟨q, v, hq, hp⟩ := Effect.bind_ok hp
  rw [Effect.bind_of_ok (debug_eq h _ v)] at hp
  cases hp
  unfold Run.lookup at hq
  cases hmake : Plan.ofInvocation s.tree h.workingDir h.settings h.environment h.dir inv
      s.resolver with
  | ok a resolver =>
    simp only [hmake] at hq
    cases hq
    exact ⟨resolver, rfl, rfl⟩
  | error e resolver =>
    simp only [hmake] at hq
    cases hq

theorem plan_error (hp : h.plan inv s = .error e u) :
    ∃ resolver, Plan.ofInvocation s.tree h.workingDir h.settings h.environment h.dir inv
        s.resolver = .error e resolver ∧ u = { s with resolver } := by
  rcases Effect.bind_error hp with hq | ⟨q, v, _, hp⟩
  · unfold Run.lookup at hq
    cases hmake : Plan.ofInvocation s.tree h.workingDir h.settings h.environment h.dir inv
        s.resolver with
    | ok a resolver =>
      simp only [hmake] at hq
      cases hq
    | error e resolver =>
      simp only [hmake] at hq
      cases hq
      exact ⟨resolver, rfl, rfl⟩
  · rw [Effect.bind_of_ok (debug_eq h _ v)] at hp
    cases hp

theorem spawn_ok (hs : h.spawn task s = .ok r u) :
    ∃ child t, h.host.spawn task (task.environment h.environment) s.tree = .ok (child, t) ∧
      r = ⟨task, child⟩ ∧ u = (s.withTree t).add [.spawned task.pass] := by
  unfold spawn at hs
  cases hf : task.fault? (task.environment h.environment) with
  | some failure =>
    simp only [hf] at hs
    cases hs
  | none =>
    simp only [hf, Effect.get_bind] at hs
    cases hh : h.host.spawn task (task.environment h.environment) s.tree with
    | error e =>
      simp only [hh] at hs
      cases hs
    | ok started =>
      obtain ⟨child, t⟩ := started
      simp only [hh, Effect.set_bind] at hs
      rw [Effect.bind_of_ok (Run.record_eq _ _)] at hs
      cases hs
      exact ⟨child, t, rfl, rfl, rfl⟩

/-- A task is not started because of a fault of its own, or because the host refuses it. -/
theorem spawn_error (hs : h.spawn task s = .error e u) :
    u = s ∧ (task.fault? (task.environment h.environment) = some e ∨
      ∃ errno, h.host.spawn task (task.environment h.environment) s.tree = .error errno ∧
        e = .harness (.launch task.command (.ofErrno errno))) := by
  unfold spawn at hs
  cases hf : task.fault? (task.environment h.environment) with
  | some failure =>
    simp only [hf] at hs
    cases hs
    exact ⟨rfl, .inl rfl⟩
  | none =>
    simp only [hf, Effect.get_bind] at hs
    cases hh : h.host.spawn task (task.environment h.environment) s.tree with
    | error errno =>
      simp only [hh] at hs
      cases hs
      exact ⟨rfl, .inr ⟨errno, rfl, rfl⟩⟩
    | ok started =>
      obtain ⟨child, t⟩ := started
      simp only [hh, Effect.set_bind] at hs
      rw [Effect.bind_of_ok (Run.record_eq _ _)] at hs
      cases hs

theorem build_ok {dir : Path} {st : Settings} {env : Environment}
    (hb : Task.build pass inv p st dir env = .ok task) :
    p.isEligible pass = true ∧ task.pass = pass ∧ task.redirection = p.redirection := by
  unfold Task.build at hb
  split at hb
  · cases hb
    exact ⟨by assumption, rfl, rfl⟩
  · cases hb

def announced (h : Harness) (task : Task) : List Event :=
  h.debugged ("launch kind=" ++ task.pass.name ++ " command=\"" ++ task.render ++ "\"")

theorem launchNow_ok (hl : h.launchNow inv p pass s = .ok r u) :
    ∃ task child t, Task.build pass inv p h.settings h.dir h.environment = .ok task ∧
      h.host.spawn task (task.environment h.environment) s.tree = .ok (child, t) ∧
      r = ⟨task, child⟩ ∧
      u = ((s.add (h.announced task)).withTree t).add [.spawned pass] := by
  unfold launchNow at hl
  cases hb : Task.build pass inv p h.settings h.dir h.environment with
  | error e =>
    rw [hb] at hl
    cases hl
  | ok task =>
    rw [hb, Effect.bind_of_ok (show Run.lift (.ok task) s = .ok task s from rfl),
      Effect.bind_of_ok (debug_eq h _ s)] at hl
    obtain ⟨_, rfl, _⟩ := build_ok hb
    obtain ⟨child, t, hspawn, rfl, rfl⟩ := spawn_ok hl
    exact ⟨task, child, t, rfl, hspawn, rfl, rfl⟩

/-- The ways in which a pass may fail to start without the host having a say. -/
inductive Unfit (h : Harness) (inv : Invocation) (p : Plan) (pass : Pass) : Failure → Prop where
  | ineligible : p.isEligible pass = false → Unfit h inv p pass (.ineligible pass)
  | illegalVariable {task : Task} :
      Task.build pass inv p h.settings h.dir h.environment = .ok task →
      task.fault? (task.environment h.environment) = some .illegalVariable →
      Unfit h inv p pass .illegalVariable
  | embeddedNul {task : Task} :
      Task.build pass inv p h.settings h.dir h.environment = .ok task →
      task.fault? (task.environment h.environment) = some .embeddedNul →
      Unfit h inv p pass .embeddedNul

theorem unfit_of_fault (hb : Task.build pass inv p h.settings h.dir h.environment = .ok task)
    (hf : task.fault? (task.environment h.environment) = some e) : Unfit h inv p pass e := by
  have hkind : e = .illegalVariable ∨ e = .embeddedNul := by
    unfold Task.fault? at hf
    split at hf
    · exact .inl (Option.some.inj hf).symm
    · split at hf
      · exact .inr (Option.some.inj hf).symm
      · cases hf
  rcases hkind with rfl | rfl
  · exact .illegalVariable hb hf
  · exact .embeddedNul hb hf

theorem launchNow_error (hl : h.launchNow inv p pass s = .error e u) :
    Unfit h inv p pass e ∨ ∃ task errno, Task.build pass inv p h.settings h.dir h.environment = .ok task ∧
      h.host.spawn task (task.environment h.environment) s.tree = .error errno ∧
      e = .harness (.launch task.command (.ofErrno errno)) ∧ u = s.add (h.announced task) := by
  unfold launchNow at hl
  cases hb : Task.build pass inv p h.settings h.dir h.environment with
  | error failure =>
    rw [hb] at hl
    cases hl
    unfold Task.build at hb
    split at hb
    · cases hb
    next hineligible =>
      cases hb
      exact .inl (.ineligible (by simpa using hineligible))
  | ok task =>
    rw [hb, Effect.bind_of_ok (show Run.lift (.ok task) s = .ok task s from rfl),
      Effect.bind_of_ok (debug_eq h _ s)] at hl
    obtain ⟨_, rfl, _⟩ := build_ok hb
    obtain ⟨rfl, hfault | ⟨errno, hspawn, rfl⟩⟩ := spawn_error hl
    · exact .inl (unfit_of_fault hb hfault)
    · exact .inr ⟨task, errno, rfl, hspawn, rfl, rfl⟩

theorem waitAll_eq (rs : List Running) (s : Session) :
    waitAll rs s = .ok () (Running.awaitedAll rs s) := by
  induction rs generalizing s with
  | nil => rfl
  | cons r rest ih =>
    unfold waitAll
    rw [Effect.bind_of_ok (r.wait_eq s)]
    exact ih (r.awaited s)

theorem launch_ok (hl : h.launch inv p running pass s = .ok r u) :
    h.launchNow inv p pass s = .ok r u := by
  unfold launch at hl
  cases hn : h.launchNow inv p pass s with
  | ok r' v =>
    rw [Effect.tryCatch_of_ok hn] at hl
    exact hl
  | error e v =>
    rw [Effect.tryCatch_of_error hn] at hl
    rcases launchNow_error hn with hunfit | ⟨task, errno, _, _, rfl, _⟩
    · cases hunfit <;> cases hl
    · dsimp only at hl
      rw [Effect.bind_of_ok (waitAll_eq running v)] at hl
      cases hl

/-- A refusal by the host is passed on after those that are running have been waited for. -/
theorem launch_error (hl : h.launch inv p running pass s = .error e u) :
    Unfit h inv p pass e ∨ ∃ task errno, Task.build pass inv p h.settings h.dir h.environment = .ok task ∧
      h.host.spawn task (task.environment h.environment) s.tree = .error errno ∧
      e = .harness (.launch task.command (.ofErrno errno)) ∧
      u = Running.awaitedAll running (s.add (h.announced task)) := by
  unfold launch at hl
  cases hn : h.launchNow inv p pass s with
  | ok r' v =>
    rw [Effect.tryCatch_of_ok hn] at hl
    cases hl
  | error e' v =>
    rw [Effect.tryCatch_of_error hn] at hl
    rcases launchNow_error hn with hunfit | ⟨task, errno, hbuild, hspawn, rfl, rfl⟩
    · left
      have hsame : e' = e := by cases hunfit <;> cases hl <;> rfl
      exact hsame ▸ hunfit
    · right
      dsimp only at hl
      rw [Effect.bind_of_ok (waitAll_eq running _)] at hl
      cases hl
      exact ⟨task, errno, hbuild, hspawn, rfl, rfl⟩

/-- The tasks of a row of passes, started by the host one after the other: each finds the files
that the one before has left. -/
inductive Starts (h : Harness) (inv : Invocation) (p : Plan) :
    FileTree → List Pass → List Running → FileTree → Prop where
  | nil (t : FileTree) : Starts h inv p t [] [] t
  | cons {t t' t'' : FileTree} {pass : Pass} {passes : List Pass} {task : Task} {child : Child}
      {rs : List Running} :
      Task.build pass inv p h.settings h.dir h.environment = .ok task →
      h.host.spawn task (task.environment h.environment) t = .ok (child, t') →
      Starts h inv p t' passes rs t'' →
      Starts h inv p t (pass :: passes) (⟨task, child⟩ :: rs) t''

theorem Starts.passes {t t' : FileTree} {passes : List Pass}
    (hs : Starts h inv p t passes rs t') : rs.map Running.pass = passes := by
  induction hs with
  | nil => rfl
  | cons hb _ _ ih =>
    obtain ⟨_, hpass, _⟩ := build_ok hb
    rw [List.map_cons, ih]
    exact congrArg (· :: _) hpass

theorem Starts.redirected {t t' : FileTree} {passes : List Pass}
    (hs : Starts h inv p t passes rs t') : ∀ r ∈ rs, r.task.redirection = p.redirection := by
  induction hs with
  | nil => simp
  | cons hb _ _ ih =>
    obtain ⟨_, _, hred⟩ := build_ok hb
    exact List.forall_mem_cons.mpr ⟨hred, ih⟩

theorem Starts.captured {t t' : FileTree} {passes : List Pass}
    (hs : Starts h inv p t passes rs t') (hp : p.redirection = .capture) :
    ∀ r ∈ rs, r.isCaptured = true := by
  intro r hr
  simp [Running.isCaptured, hs.redirected r hr, hp]

def launchEach (h : Harness) (inv : Invocation) (p : Plan) (running : List Running) :
    List Pass → Run (List Running)
  | [] => return running
  | pass :: passes => do
    let r ← h.launch inv p running pass
    launchEach h inv p (running ++ [r]) passes

theorem launchEach_ok {passes : List Pass} {all : List Running}
    (hl : h.launchEach inv p running passes s = .ok all u) :
    ∃ rs, all = running ++ rs ∧ Starts h inv p s.tree passes rs u.tree ∧
      u.milestones = s.milestones ++ passes.map .spawned ∧ u.output = s.output := by
  induction passes generalizing running s with
  | nil =>
    cases hl
    exact ⟨[], by simp, .nil _, by simp, rfl⟩
  | cons pass passes ih =>
    obtain ⟨r, v, hr, hl⟩ := Effect.bind_ok hl
    obtain ⟨task, child, t, hbuild, hspawn, rfl, rfl⟩ := launchNow_ok (launch_ok hr)
    obtain ⟨rs, rfl, hstarts, hmile, hout⟩ := ih hl
    refine ⟨⟨task, child⟩ :: rs, by simp, .cons hbuild hspawn hstarts, ?_, ?_⟩
    · rw [hmile]
      simp [announced, debugged]
    · rw [hout]
      simp [announced, debugged]

theorem launchEach_error {passes : List Pass}
    (hl : h.launchEach inv p running passes s = .error e u) :
    (∃ pass ∈ passes, Unfit h inv p pass e) ∨ ∃ before pass after rs t task errno, passes = before ++ pass :: after ∧
      Starts h inv p s.tree before rs t ∧
      Task.build pass inv p h.settings h.dir h.environment = .ok task ∧
      h.host.spawn task (task.environment h.environment) t = .error errno ∧
      e = .harness (.launch task.command (.ofErrno errno)) ∧
      ∃ v, v.tree = t ∧ v.milestones = s.milestones ++ before.map .spawned ∧
        v.output = s.output ∧ u = Running.awaitedAll (running ++ rs) v := by
  induction passes generalizing running s with
  | nil => cases hl
  | cons pass passes ih =>
    rcases Effect.bind_error hl with hl | ⟨r, v, hr, hl⟩
    · -- this is the pass that is not started
      rcases launch_error hl with hunfit | ⟨task, errno, hbuild, hspawn, rfl, rfl⟩
      · exact .inl ⟨pass, List.mem_cons_self, hunfit⟩
      · refine .inr ⟨[], pass, passes, [], s.tree, task, errno, rfl, .nil _, hbuild, hspawn, rfl,
          s.add (h.announced task), rfl, ?_, ?_, by simp⟩
        · simp [announced, debugged]
        · simp [announced, debugged]
    · -- this one is started, and a later one is not
      obtain ⟨task, child, t, hbuild, hspawn, rfl, rfl⟩ := launchNow_ok (launch_ok hr)
      rcases ih hl with ⟨pass', hmem, hunfit⟩ | ⟨before, pass', after, rs, t', task', errno, rfl, hstarts, hbuild',
        hspawn', rfl, v, htree, hmile, hout, rfl⟩
      · exact .inl ⟨pass', List.mem_cons_of_mem _ hmem, hunfit⟩
      · refine .inr ⟨pass :: before, pass', after, ⟨task, child⟩ :: rs, t', task', errno, rfl,
          .cons hbuild hspawn hstarts, hbuild', hspawn', rfl, v, htree, ?_, ?_, by simp⟩
        · rw [hmile]
          simp [announced, debugged]
        · rw [hout]
          simp [announced, debugged]

end Harness

namespace Launched

def started (l : Launched) : List Running :=
  l.check :: (l.run.toList ++ l.lint.toList)

def awaited (l : Launched) : List Running :=
  l.check :: (l.lint.toList ++ l.run.toList)

theorem awaited_perm (l : Launched) : l.awaited.Perm l.started :=
  List.perm_append_comm.cons l.check

end Launched

namespace Harness
variable {h : Harness} {inv : Invocation} {p : Plan} {s u : Session} {e : Failure}

/-- The eligible passes of a plan with a check, one by one. -/
theorem launchOrder_eligible (hc : p.check = true) :
    Pass.launchOrder.filter p.isEligible =
      .check :: ((if p.run then [.run] else []) ++ (if p.lint then [.lint] else [])) := by
  simp only [Pass.launchOrder, List.filter, Plan.isEligible, hc]
  cases p.run <;> cases p.lint <;> rfl

theorem launchAll_eq (hc : p.check = true) :
    Launched.started <$> h.launchAll inv p =
      h.launchEach inv p [] (Pass.launchOrder.filter p.isEligible) := by
  rw [launchOrder_eligible hc]
  simp only [launchAll, Effect.ite_bind, launchEach, List.nil_append, map_bind]
  refine bind_congr fun check => ?_
  cases p.run <;> cases p.lint <;>
    simp [launchEach, Launched.started]

theorem launchAll_shape {l : Launched} (hl : h.launchAll inv p s = .ok l u) :
    l.run.isSome = p.run ∧ l.lint.isSome = p.lint := by
  simp only [launchAll, Effect.ite_bind] at hl
  obtain ⟨check, _, _, hl⟩ := Effect.bind_ok hl
  obtain ⟨run, _, hrun, hl⟩ := Effect.bind_ok hl
  obtain ⟨lint, _, hlint, hl⟩ := Effect.bind_ok hl
  cases hl
  constructor
  · cases hp : p.run with
    | true =>
      rw [if_pos hp] at hrun
      obtain ⟨r, _, rfl⟩ := Effect.map_ok hrun
      rfl
    | false =>
      rw [if_neg (by simp [hp])] at hrun
      cases hrun
      rfl
  · cases hp : p.lint with
    | true =>
      rw [if_pos hp] at hlint
      obtain ⟨r, _, rfl⟩ := Effect.map_ok hlint
      rfl
    | false =>
      rw [if_neg (by simp [hp])] at hlint
      cases hlint
      rfl

theorem launchAll_ok (hc : p.check = true) {l : Launched} (hl : h.launchAll inv p s = .ok l u) :
    Starts h inv p s.tree (Pass.launchOrder.filter p.isEligible) l.started u.tree ∧
      u.milestones = s.milestones ++ (Pass.launchOrder.filter p.isEligible).map .spawned ∧
      u.output = s.output := by
  have heach := Effect.map_of_ok hl Launched.started
  rw [launchAll_eq hc] at heach
  obtain ⟨rs, hrs, hstarts, hmile, hout⟩ := launchEach_ok heach
  rw [List.nil_append] at hrs
  exact ⟨hrs ▸ hstarts, hmile, hout⟩

/-- Each child of a plan carries out the pass that it was started for. -/
theorem launched_passes (hc : p.check = true) {l : Launched} {t t' : FileTree}
    (hshape : l.run.isSome = p.run ∧ l.lint.isSome = p.lint)
    (hs : Starts h inv p t (Pass.launchOrder.filter p.isEligible) l.started t') :
    l.check.pass = .check ∧ (∀ r ∈ l.run, r.pass = .run) ∧ ∀ r ∈ l.lint, r.pass = .lint := by
  obtain ⟨hrun, hlint⟩ := hshape
  have hpasses := hs.passes
  rw [launchOrder_eligible hc, ← hrun, ← hlint] at hpasses
  obtain ⟨check, run, lint⟩ := l
  cases run <;> cases lint <;> simp_all [Launched.started]

/-- The children of a plan go through the eligible passes in either order. -/
theorem awaited_passes (hc : p.check = true) {l : Launched} {t t' : FileTree}
    (hshape : l.run.isSome = p.run ∧ l.lint.isSome = p.lint)
    (hs : Starts h inv p t (Pass.launchOrder.filter p.isEligible) l.started t') :
    l.awaited.map Running.pass = p.eligible := by
  obtain ⟨hcheck, hrun, hlint⟩ := launched_passes hc hshape hs
  simp only [Plan.eligible, Pass.waitOrder, List.filter, Plan.isEligible, hc, ← hshape.1,
    ← hshape.2]
  obtain ⟨check, run, lint⟩ := l
  cases run <;> cases lint <;> simp_all [Launched.awaited]

theorem launchAll_error (hc : p.check = true) (hl : h.launchAll inv p s = .error e u) :
    (∃ pass, p.isEligible pass = true ∧ Unfit h inv p pass e) ∨ ∃ before pass after rs t task errno,
      Pass.launchOrder.filter p.isEligible = before ++ pass :: after ∧
      Starts h inv p s.tree before rs t ∧
      Task.build pass inv p h.settings h.dir h.environment = .ok task ∧
      h.host.spawn task (task.environment h.environment) t = .error errno ∧
      e = .harness (.launch task.command (.ofErrno errno)) ∧
      ∃ v, v.tree = t ∧ v.milestones = s.milestones ++ before.map .spawned ∧
        v.output = s.output ∧ u = Running.awaitedAll rs v := by
  have heach := Effect.map_of_error hl Launched.started
  rw [launchAll_eq hc] at heach
  rcases launchEach_error heach with ⟨pass, hmem, hunfit⟩ | hrefused
  · exact .inl ⟨pass, (List.mem_filter.1 hmem).2, hunfit⟩
  · exact .inr hrefused

end Harness
end TriplePass

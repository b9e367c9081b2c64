import TriplePass.Proofs.Harness.Finishing

/-! # A run from its launch to its end

Once the passes of a plan are started, the check is waited for and shown, and its status settles
which of the two ways out is taken. Both wait for the lint and then for the run, and both report
what these have left.
-/
namespace TriplePass.Harness
variable {h : Harness} {inv : Invocation} {p : Plan} {l : Launched} {check : Outcome}
  {s u v w : Session} {r : Result} {e : Failure}

def checked (h : Harness) (l : Launched) (s : Session) : Session :=
  (h.finished l.check s).add (shown l.check (l.check.outcome s.tree).text)

@[simp] theorem tree_checked (h : Harness) (l : Launched) (s : Session) :
    (h.checked l s).tree = l.check.leaves s.tree := rfl

def endsEarly (h : Harness) (check : Outcome) : Bool :=
  !check.ok && h.settings.exitEarly

def conclude (h : Harness) (p : Plan) (l : Launched) (check : Outcome) : Run Result :=
  if h.endsEarly check then h.finishEarly p l check else h.finishAll p l check

/-- The ways in which a run goes on behind its check, and what it returns. -/
inductive Ended (h : Harness) (p : Plan) (l : Launched) (check : Outcome) (s : Session) :
    Result → Session → Prop where
  | early : h.endsEarly check = true →
      Ended h p l check s
        { plan := p, status := check.status
          outcomes := check :: outcomes (l.lint.toList ++ l.run.toList) s.tree }
        (h.finishedEach (l.lint.toList ++ l.run.toList) (s.add (h.cutShort check)))
  | full {lint run : Option Outcome} {report : Option Coverage.Report} {v w : Session} :
      h.endsEarly check = false → LintStage h p l.lint s lint v →
      RunStage h p check l.run v run report w →
      Ended h p l check s
        { plan := p
          status := Status.aggregate (some check.status) (run.map (·.status)) (lint.map (·.status))
          outcomes := check :: (lint.toList ++ run.toList)
          coverage := report }
        (w.add (h.statusTold (Status.aggregate (some check.status) (run.map (·.status))
          (lint.map (·.status)))))

theorem conclude_ok (hc : h.conclude p l check s = .ok r u) : Ended h p l check s r u := by
  unfold conclude at hc
  split at hc
  next hearly =>
    rw [finishEarly_eq] at hc
    cases hc
    exact .early hearly
  next hlate =>
    obtain ⟨lint, v, run, report, w, hlint, hrun, rfl, rfl⟩ := finishAll_ok hc
    exact .full (Bool.eq_false_iff.2 hlate) hlint hrun

theorem run_of_launched {arguments : List String}
    (hplan : h.plan (Invocation.ofArguments arguments) s = .ok p v)
    (hlaunch : h.launchAll (Invocation.ofArguments arguments) p v = .ok l w) :
    h.run arguments s =
      if h.takesFrom l.check (l.check.outcome w.tree).text = true then
        h.conclude p l (l.check.outcome w.tree) (h.checked l w)
      else .error .unwritable (h.finished l.check w) := by
  have hcheck := finishCheck_eq h l.check w
  unfold run
  rw [Effect.bind_of_ok hplan, Effect.bind_of_ok hlaunch]
  split at hcheck
  next htaken =>
    rw [Effect.bind_of_ok hcheck, if_pos htaken]
    rfl
  next hrefused => rw [Effect.bind_of_error hcheck, if_neg hrefused]

/-- A run that returns has made a plan, launched it, shown its check, and come to one of its
ends. -/
theorem run_ok {arguments : List String} (hr : h.run arguments s = .ok r u) :
    ∃ p v l w, h.plan (Invocation.ofArguments arguments) s = .ok p v ∧
      h.launchAll (Invocation.ofArguments arguments) p v = .ok l w ∧
      h.takesFrom l.check (l.check.outcome w.tree).text = true ∧
      Ended h p l (l.check.outcome w.tree) (h.checked l w) r u := by
  have hwhole := hr
  unfold run at hr
  obtain ⟨p, v, hplan, hr⟩ := Effect.bind_ok hr
  obtain ⟨l, w, hlaunch, _⟩ := Effect.bind_ok hr
  rw [run_of_launched hplan hlaunch] at hwhole
  split at hwhole
  next htaken => exact ⟨p, v, l, w, hplan, hlaunch, htaken, conclude_ok hwhole⟩
  next => cases hwhole

theorem Ended.plan_eq (he : Ended h p l check s r u) : r.plan = p := by
  cases he <;> rfl

end TriplePass.Harness

import TriplePass.Proofs.Harness.LintStage
import TriplePass.Proofs.Harness.RunStage

/-! # The end of a run

Behind the check come the lint and the run, and then the status. The only faults left are a lint
that cannot be shown, a run that cannot be shown, and a survey of the listings that the system
refuses or whose report cannot be shown.
-/
namespace TriplePass.Harness
variable {h : Harness} {p : Plan} {l : Launched} {s u : Session} {e : Failure}

theorem finishAll_eq (h : Harness) (p : Plan) (l : Launched) (check : Outcome) :
    h.finishAll p l check = h.lintPart p l.lint >>= fun lint =>
      h.runPart p check l.run >>= fun (run, coverage) => do
        let status := Status.aggregate (some check.status) (run.map (·.status)) (lint.map (·.status))
        h.debug ("aggregate status=" ++ toString status)
        return { plan := p, status, outcomes := check :: (lint.toList ++ run.toList), coverage } := by
  obtain ⟨_, run, lint⟩ := l
  cases lint <;> cases run <;> simp [finishAll, lintPart, runPart]

def statusTold (h : Harness) (status : Int) : List Event :=
  h.debugged ("aggregate status=" ++ toString status)

theorem finishAll_ok {check : Outcome} {result : Result}
    (hf : h.finishAll p l check s = .ok result u) :
    ∃ lint v run report w, LintStage h p l.lint s lint v ∧
      RunStage h p check l.run v run report w ∧
      result = {
        plan := p
        status := Status.aggregate (some check.status) (run.map (·.status)) (lint.map (·.status))
        outcomes := check :: (lint.toList ++ run.toList)
        coverage := report } ∧
      u = w.add (h.statusTold result.status) := by
  rw [finishAll_eq] at hf
  obtain ⟨lint, v, hlint, hf⟩ := Effect.bind_ok hf
  obtain ⟨⟨run, report⟩, w, hrun, hf⟩ := Effect.bind_ok hf
  dsimp only at hf
  rw [Effect.bind_of_ok (debug_eq h _ w)] at hf
  cases hf
  exact ⟨lint, v, run, report, w, lintPart_ok hlint, runPart_ok hrun, rfl, rfl⟩

inductive Unfinished (h : Harness) (p : Plan) (l : Launched) (check : Outcome) (t u : FileTree) :
    Failure → Prop where
  | lint {r : Running} {e : Failure} : l.lint = some r → Unshown h r t e →
      Unfinished h p l check t u e
  | run {r : Running} {e : Failure} : l.run = some r →
      RunFault h p check r (Running.settled l.lint.toList t) u e → Unfinished h p l check t u e

theorem Unfinished.not_harness {check : Outcome} {t t' : FileTree} {reason : HarnessError} :
    ¬Unfinished h p l check t t' (.harness reason) := by
  rintro (⟨_, hunshown⟩ | ⟨_, hfault⟩)
  · cases hunshown
  · cases hfault

theorem finishAll_error {check : Outcome} (hf : h.finishAll p l check s = .error e u) :
    Unfinished h p l check s.tree u.tree e := by
  rw [finishAll_eq] at hf
  rcases Effect.bind_error hf with hlint | ⟨lint, v, hlint, hf⟩
  · obtain ⟨r, hr, hunshown⟩ := lintPart_error hlint
    exact .lint hr hunshown
  · have htree := (lintPart_ok hlint).tree
    rcases Effect.bind_error hf with hrun | ⟨⟨run, report⟩, w, _, hf⟩
    · obtain ⟨r, hr, hfault⟩ := runPart_error hrun
      rw [htree] at hfault
      exact .run hr hfault
    · dsimp only at hf
      rw [Effect.bind_of_ok (debug_eq h _ w)] at hf
      cases hf

end TriplePass.Harness

import TriplePass.Proofs.Coverage.Survey
import TriplePass.Proofs.Harness.Lifecycle
import TriplePass.Proofs.Harness.Showing
import TriplePass.Proofs.Text.Content
import TriplePass.Proofs.Text.Strict

/-! # The output of the tools

Captured output is passed on part by part: that of the check, that of the lint without its noise,
that of the run without what the check has shown, and the lines of the coverage report. No part is
lost, moved or shown twice. Children that write to the harness's own streams are left alone.
-/
namespace TriplePass

/-! ### Parts of the output -/

namespace Console

end Console

namespace Coverage

def Report.text (r : Report) : String :=
  String.join (r.diagnostics.map (·.render ++ "\n"))

end Coverage

/-- What a text still has to say to somebody who has been shown another one. -/
def remaining (shown text : String) : String :=
  if shown.toList <+: text.toList then String.ofList (text.toList.drop shown.toList.length)
  else text

namespace Running

end Running

namespace Result

def outcome? (r : Result) (pass : Pass) : Option Outcome :=
  r.outcomes.find? (·.pass == pass)

end Result

open Session (Shows)

/-! ### What the stages of a run show -/

namespace Harness
variable {h : Harness} {inv : Invocation} {p : Plan} {l : Launched} {r : Running}
  {s u v w : Session}

def plain (o : Outcome) : Outcome :=
  { o with diagnostics := [] }

theorem plain_outcome (r : Running) (t : FileTree) : plain (r.outcome t) = r.outcome t := by
  unfold plain Running.outcome
  dsimp only
  split <;> rfl

theorem plain_outcomes (rs : List Running) (t : FileTree) :
    (outcomes rs t).map plain = outcomes rs t := by
  induction rs generalizing t with
  | nil => rfl
  | cons r rest ih => rw [outcomes, List.map_cons, plain_outcome, ih]

theorem LintStage.plain_eq {lint : Option Running} {o : Option Outcome}
    (hl : LintStage h p lint s o u) : o.toList.map plain = outcomes lint.toList s.tree := by
  cases hl with
  | absent => rfl
  | @shown r _ o messages hreport =>
    have ho : plain o = r.outcome s.tree := by
      unfold LintReport at hreport
      split at hreport
      · rw [Lint.filterOutcome_ok hreport]
        exact plain_outcome r s.tree
      · rw [hreport.1, plain_outcome]
    exact congrArg (· :: []) ho

theorem RunStage.plain_eq {check : Outcome} {run : Option Running} {o : Option Outcome}
    {report : Option Coverage.Report} (hr : RunStage h p check run s o report u) :
    o.toList.map plain = outcomes run.toList s.tree := by
  cases hr with
  | absent => rfl
  | @unsurveyed r => exact congrArg (· :: []) (plain_outcome r s.tree)
  | @surveyed r => exact congrArg (· :: []) (plain_outcome r s.tree)

theorem outcomes_append (rs more : List Running) (t : FileTree) :
    outcomes (rs ++ more) t = outcomes rs t ++ outcomes more (Running.settled rs t) := by
  induction rs generalizing t with
  | nil => rfl
  | cons r rest ih => exact congrArg (r.outcome t :: ·) (ih (r.leaves t))

variable {check : Outcome} {result : Result}

theorem outcome?_check {others : List Outcome} (hcheck : check.pass = .check)
    (h : result.outcomes = check :: others) : result.outcome? .check = some check := by
  rw [Result.outcome?, h, List.find?_cons_of_pos (by simp [hcheck])]

theorem outcome?_others {lint run : Option Outcome} (hcheck : check.pass = .check)
    (hlint : ∀ o ∈ lint, o.pass = .lint) (hrun : ∀ o ∈ run, o.pass = .run)
    (h : result.outcomes = check :: (lint.toList ++ run.toList)) :
    result.outcome? .lint = lint ∧ result.outcome? .run = run := by
  rw [Result.outcome?, Result.outcome?, h]
  cases lint <;> cases run <;> simp_all

end Harness
end TriplePass

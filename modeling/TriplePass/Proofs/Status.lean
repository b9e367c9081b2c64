import TriplePass.CommandLine

/-! # Statuses that count

Of the statuses of a lint four are forgiven. What is left is one of the statuses that went in, or
zero, so a status that fits the system is not lost when the system keeps its last byte.
-/
namespace TriplePass.Status

def forgiven : List Int :=
  [0, 1, -11, 139]

theorem ofLint_some_eq_zero_iff (status : Int) :
    ofLint (some status) = 0 ↔ status ∈ forgiven := by
  have hcases : isCrash status = true ∨ (status == lintFound) = true ↔
      status = -11 ∨ status = 139 ∨ status = 1 := by
    simp [isCrash, lintFound, or_assoc]
  simp only [ofLint, Bool.or_eq_true, hcases, forgiven, List.mem_cons, List.not_mem_nil, or_false]
  split <;> omega

theorem ofLint_eq_zero_iff (lint : Option Int) :
    ofLint lint = 0 ↔ ∀ status ∈ lint, status ∈ forgiven := by
  cases lint with
  | none => simp [ofLint]
  | some status => simp [ofLint_some_eq_zero_iff]

theorem ofLint_eq (lint : Option Int) : ofLint lint = 0 ∨ lint = some (ofLint lint) := by
  cases lint with
  | none => exact .inl rfl
  | some status =>
    unfold ofLint
    dsimp only
    split
    · exact .inl rfl
    · exact .inr rfl

theorem firstNonZero_eq_zero_iff (status : Option Int) (otherwise : Int) :
    firstNonZero status otherwise = 0 ↔ (∀ x ∈ status, x = 0) ∧ otherwise = 0 := by
  cases status with
  | none => simp [firstNonZero]
  | some x =>
    unfold firstNonZero
    dsimp only
    split <;> simp_all

theorem firstNonZero_eq (status : Option Int) (otherwise : Int) :
    firstNonZero status otherwise = otherwise ∨
      status = some (firstNonZero status otherwise) := by
  cases status with
  | none => exact .inl rfl
  | some x =>
    unfold firstNonZero
    dsimp only
    split
    · exact .inl rfl
    · exact .inr rfl

/-- The build is good if the check and the run are, and the lint is forgiven. -/
theorem aggregate_eq_zero_iff (check run lint : Option Int) :
    aggregate check run lint = 0 ↔
      (∀ x ∈ check, x = 0) ∧ (∀ x ∈ run, x = 0) ∧ ∀ x ∈ lint, x ∈ forgiven := by
  rw [aggregate, firstNonZero_eq_zero_iff, firstNonZero_eq_zero_iff, ofLint_eq_zero_iff]

/-- No status is made up. -/
theorem aggregate_eq (check run lint : Option Int) :
    aggregate check run lint = 0 ∨ some (aggregate check run lint) ∈ [check, run, lint] := by
  unfold aggregate
  rcases firstNonZero_eq check (firstNonZero run (ofLint lint)) with hcheck | hcheck
  · rw [hcheck]
    rcases firstNonZero_eq run (ofLint lint) with hrun | hrun
    · rw [hrun]
      rcases ofLint_eq lint with hlint | hlint
      · exact .inl hlint
      · exact .inr (by simp [← hlint])
    · exact .inr (by simp [← hrun])
  · exact .inr (by simp [← hcheck])

theorem aggregate_of_check {status : Int} (h : status ≠ 0) (run lint : Option Int) :
    aggregate (some status) run lint = status := by
  rw [aggregate, firstNonZero]
  exact if_neg h

/-- A lint that is forgiven, or comes behind a failure, is as good as none. -/
theorem aggregate_without_lint {check run lint : Option Int}
    (h : (∀ x ∈ lint, x ∈ forgiven) ∨ (∃ x ∈ check, x ≠ 0) ∨ ∃ x ∈ run, x ≠ 0) :
    aggregate check run lint = aggregate check run none := by
  rcases h with hlint | ⟨x, hcheck, hx⟩ | ⟨x, hrun, hx⟩
  · rw [aggregate, (ofLint_eq_zero_iff lint).2 hlint]
    rfl
  · rw [Option.mem_def.1 hcheck, aggregate_of_check hx, aggregate_of_check hx]
  · have hfirst : ∀ otherwise, firstNonZero run otherwise = x := by
      intro otherwise
      rw [Option.mem_def.1 hrun, firstNonZero]
      exact if_neg hx
    rw [aggregate, aggregate, hfirst, hfirst]

/-- A status that a child can have is kept well enough to tell success from failure. -/
theorem processStatus_eq_zero_iff {status : Int} (hlow : -64 ≤ status) (hhigh : status ≤ 255) :
    CommandLine.processStatus status = 0 ↔ status = 0 := by
  unfold CommandLine.processStatus
  omega

end TriplePass.Status

import TriplePass.Proofs.Harness.Waiting
import TriplePass.Proofs.Lint.Filter

/-! # The lint of a run

A captured lint is filtered before it is shown. That fails for a number that is too long, and for
a character that the standard output lacks. A lint that writes to the harness's own streams is left
as it is. A crash is warned of either way.
-/
namespace TriplePass.Harness
variable {h : Harness} {p : Plan} {r : Running} {s u : Session} {e : Failure}

def lintTold (h : Harness) (o : Outcome) (messages : List Lint.Message) : List Event :=
  h.debugged ("lint diagnostics=" ++ toString o.diagnostics.length) ++
    Run.forwarded .stdout (Lint.joined .stdout messages) ++
    Run.forwarded .stderr (Lint.joined .stderr messages)

def lintShown (h : Harness) (r : Running) (o : Outcome) (messages : List Lint.Message) :
    List Event :=
  if r.isCaptured then h.lintTold o messages else []

@[simp] theorem milestones_lintShown (h : Harness) (r : Running) (o : Outcome)
    (messages : List Lint.Message) :
    (h.lintShown r o messages).filter Event.isMilestone = [] := by
  unfold lintShown
  split
  · simp [lintTold, debugged]
  · rfl

def crashWarned (h : Harness) (p : Plan) (o : Outcome) : List Event :=
  if Status.isCrash o.status then
    Run.logged (h.console.warn (programName ++ ": " ++ linterName p ++ " crashed with status " ++
      toString o.status ++ "; lint ignored"))
  else []

@[simp] theorem milestones_crashWarned (h : Harness) (p : Plan) (o : Outcome) :
    (h.crashWarned p o).filter Event.isMilestone = [] := by
  unfold crashWarned
  split
  · simp
  · rfl

theorem warnOfCrash_eq (h : Harness) (p : Plan) (o : Outcome) (s : Session) :
    h.warnOfCrash p o s = .ok () (s.add (h.crashWarned p o)) := by
  unfold warnOfCrash crashWarned
  cases Status.isCrash o.status with
  | true => exact Run.log_eq _ s
  | false =>
    simp only [Bool.false_eq_true, ↓reduceIte, Session.add_nil]
    rfl

def LintReport (r : Running) (t : FileTree) (o : Outcome) (messages : List Lint.Message) : Prop :=
  if r.isCaptured then Lint.filterOutcome (r.outcome t) = .ok (o, messages)
  else o = r.outcome t ∧ messages = []

theorem LintReport.pass {t : FileTree} {o : Outcome} {messages : List Lint.Message}
    (ho : LintReport r t o messages) : o.pass = r.pass := by
  unfold LintReport at ho
  split at ho
  · rw [Lint.filterOutcome_ok ho]
    exact r.outcome_pass t
  · rw [ho.1]
    exact r.outcome_pass t

/-- Of a captured lint everything but its noise is shown. -/
theorem LintReport.joined {t : FileTree} {o : Outcome} {messages : List Lint.Message}
    (ho : LintReport r t o messages) (hr : r.isCaptured = true) (stream : Stream) :
    Lint.joined stream messages = Lint.withoutNoise (o.text stream) := by
  rw [LintReport, if_pos hr] at ho
  have htext : o.text stream = (r.outcome t).text stream := by
    rw [Lint.filterOutcome_ok ho]
    cases stream <;> rfl
  rw [htext, Lint.joined_eq ho]

theorem showLint_eq (h : Harness) (o : Outcome) (s : Session) :
    h.showLint o s =
      match Lint.filterOutcome o with
      | .ok (o', messages) =>
        if h.takes (Lint.joined .stdout messages) = true then .ok o' (s.add (h.lintTold o' messages))
        else .error .unwritable
          (s.add (h.debugged ("lint diagnostics=" ++ toString o'.diagnostics.length)))
      | .error e => .error e s := by
  unfold showLint
  cases hf : Lint.filterOutcome o with
  | error e => rfl
  | ok filtered =>
    obtain ⟨o', messages⟩ := filtered
    have hlift : Run.lift (.ok (o', messages)) s = .ok (o', messages) s := rfl
    have hforward := forward_eq h (Lint.joined · messages)
      (s.add (h.debugged ("lint diagnostics=" ++ toString o'.diagnostics.length)))
    rw [Effect.bind_of_ok hlift]
    dsimp only at hforward ⊢
    rw [Effect.bind_of_ok (debug_eq h _ _)]
    split at hforward
    next htaken =>
      rw [Effect.bind_of_ok hforward, if_pos htaken, Session.add_add, lintTold, List.append_assoc]
      rfl
    next hrefused => rw [Effect.bind_of_error hforward, if_neg hrefused]

theorem finishLint_shown (h : Harness) (p : Plan) (r : Running) (s : Session) :
    h.finishLint p r s =
      ((if r.isCaptured then h.showLint (r.outcome s.tree) else pure (r.outcome s.tree)) >>= fun o =>
        h.warnOfCrash p o >>= fun _ => pure o) (h.finished r s) := by
  simp only [finishLint, Effect.ite_bind]
  rw [Effect.bind_of_ok (finish_eq h r s)]

theorem finishLint_ok {o : Outcome} (hl : h.finishLint p r s = .ok o u) :
    ∃ messages, LintReport r s.tree o messages ∧
      u = (h.finished r s).add (h.lintShown r o messages ++ h.crashWarned p o) := by
  rw [finishLint_shown] at hl
  obtain ⟨o', v, ho, hl⟩ := Effect.bind_ok hl
  rw [Effect.bind_of_ok (warnOfCrash_eq h p o' v)] at hl
  cases hl
  unfold LintReport lintShown
  cases hc : r.isCaptured with
  | true =>
    rw [if_pos hc, showLint_eq] at ho
    cases hf : Lint.filterOutcome (r.outcome s.tree) with
    | error e =>
      rw [hf] at ho
      cases ho
    | ok filtered =>
      rw [hf] at ho
      dsimp only at ho
      split at ho
      next =>
        cases ho
        exact ⟨filtered.2, rfl, by simp⟩
      next => cases ho
  | false =>
    rw [if_neg (by simp [hc])] at ho
    cases ho
    exact ⟨[], ⟨rfl, rfl⟩, by simp⟩

def Unreadable (r : Running) (t : FileTree) (digits : Nat) : Prop :=
  ∃ stream, ∃ line ∈ Text.linesAny ((r.outcome t).text stream).toList,
    Lint.HasLongNumber line digits

inductive Unshown (h : Harness) (r : Running) (t : FileTree) : Failure → Prop where
  | unreadable {digits : Nat} : Unreadable r t digits → Unshown h r t (.longNumber digits)
  | unwritable : r.isCaptured = true →
      h.takes (Lint.withoutNoise (r.outcome t).stdout) = false → Unshown h r t .unwritable

theorem showLint_error (hc : r.isCaptured = true) {t : FileTree}
    (hl : h.showLint (r.outcome t) s = .error e u) : Unshown h r t e := by
  rw [showLint_eq] at hl
  cases hf : Lint.filterOutcome (r.outcome t) with
  | error e' =>
    rw [hf] at hl
    cases hl
    obtain ⟨digits, stream, rfl, hline⟩ := Lint.filterOutcome_error hf
    exact .unreadable ⟨stream, hline⟩
  | ok filtered =>
    rw [hf] at hl
    dsimp only at hl
    split at hl
    next => cases hl
    next hrefused =>
      cases hl
      rw [Lint.joined_eq hf] at hrefused
      exact .unwritable hc (Bool.eq_false_iff.2 hrefused)

theorem finishLint_error (hl : h.finishLint p r s = .error e u) : Unshown h r s.tree e := by
  rw [finishLint_shown] at hl
  rcases Effect.bind_error hl with ho | ⟨o', v, _, hl⟩
  · cases hc : r.isCaptured with
    | true =>
      rw [if_pos hc] at ho
      exact showLint_error hc ho
    | false =>
      rw [if_neg (by simp [hc])] at ho
      cases ho
  · rw [Effect.bind_of_ok (warnOfCrash_eq h p o' v)] at hl
    cases hl

inductive LintStage (h : Harness) (p : Plan) :
    Option Running → Session → Option Outcome → Session → Prop where
  | absent (s : Session) : LintStage h p none s none s
  | shown {r : Running} {s : Session} {o : Outcome} {messages : List Lint.Message} :
      LintReport r s.tree o messages →
      LintStage h p (some r) s (some o)
        ((h.finished r s).add (h.lintShown r o messages ++ h.crashWarned p o))

theorem LintStage.tree {lint : Option Running} {o : Option Outcome}
    (hl : LintStage h p lint s o u) : u.tree = Running.settled lint.toList s.tree := by
  cases hl <;> rfl

def lintPart (h : Harness) (p : Plan) : Option Running → Run (Option Outcome)
  | some r => some <$> h.finishLint p r
  | none => pure none

theorem lintPart_ok {lint : Option Running} {o : Option Outcome}
    (hl : h.lintPart p lint s = .ok o u) : LintStage h p lint s o u := by
  cases lint with
  | none =>
    cases hl
    exact .absent s
  | some r =>
    obtain ⟨o, ho, rfl⟩ := Effect.map_ok hl
    obtain ⟨messages, hreport, rfl⟩ := finishLint_ok ho
    exact .shown hreport

theorem lintPart_error {lint : Option Running} (hl : h.lintPart p lint s = .error e u) :
    ∃ r, lint = some r ∧ Unshown h r s.tree e := by
  cases lint with
  | none => cases hl
  | some r => exact ⟨r, rfl, finishLint_error (Effect.map_error hl)⟩

end TriplePass.Harness

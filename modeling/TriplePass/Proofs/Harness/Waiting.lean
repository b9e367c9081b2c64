import TriplePass.Proofs.Harness.Launching

/-! # Waiting for tasks

Waiting cannot fail, whatever a child does, and neither can the way out after a failed check. What
is waited for, and what is passed on of its output, is given by equations. Only the standard output
can refuse what a captured child has written.
-/
namespace TriplePass.Harness
variable {h : Harness} {p : Plan} {l : Launched} {r : Running} {s u : Session}

def finished (h : Harness) (r : Running) (s : Session) : Session :=
  let o := r.outcome s.tree
  (r.awaited s).add
    (h.debugged ("exit kind=" ++ o.pass.name ++ " status=" ++ toString o.status))

@[simp] theorem milestones_finished (h : Harness) (r : Running) (s : Session) :
    (h.finished r s).milestones = s.milestones ++ [.waited r.pass] := by
  simp [finished, Running.awaited, debugged]

theorem finish_eq (h : Harness) (r : Running) (s : Session) :
    h.finish r s = .ok (r.outcome s.tree) (h.finished r s) := by
  unfold finish
  rw [Effect.bind_of_ok (r.wait_eq s), Effect.bind_of_ok (debug_eq h _ _)]
  rfl

def finishedEach (h : Harness) (rs : List Running) (s : Session) : Session :=
  rs.foldl (fun s r => h.finished r s) s

theorem tree_finishedEach (h : Harness) (rs : List Running) (s : Session) :
    (h.finishedEach rs s).tree = Running.settled rs s.tree := by
  induction rs generalizing s with
  | nil => rfl
  | cons r rest ih => exact ih (h.finished r s)

theorem milestones_finishedEach (h : Harness) (rs : List Running) (s : Session) :
    (h.finishedEach rs s).milestones = s.milestones ++ rs.map fun r => .waited r.pass := by
  induction rs generalizing s with
  | nil => simp [finishedEach]
  | cons r rest ih =>
    change (h.finishedEach rest (h.finished r s)).milestones = _
    rw [ih]
    simp

def outcomes : List Running → FileTree → List Outcome
  | [], _ => []
  | r :: rest, t => r.outcome t :: outcomes rest (r.leaves t)

theorem outcomes_passes (rs : List Running) (t : FileTree) :
    (outcomes rs t).map (·.pass) = rs.map Running.pass := by
  induction rs generalizing t with
  | nil => rfl
  | cons r rest ih =>
    simp only [outcomes, List.map_cons, ih, r.outcome_pass]

theorem finishEach_eq (h : Harness) (rs : List Running) (s : Session) :
    h.finishEach rs s = .ok (outcomes rs s.tree) (h.finishedEach rs s) := by
  induction rs generalizing s with
  | nil => rfl
  | cons r rest ih =>
    unfold finishEach
    rw [Effect.bind_of_ok (finish_eq h r s), Effect.bind_of_ok (ih _)]
    rfl

def shown (r : Running) (text : Stream → String) : List Event :=
  if r.isCaptured then
    Run.forwarded .stdout (text .stdout) ++ Run.forwarded .stderr (text .stderr)
  else []

@[simp] theorem milestones_shown (r : Running) (text : Stream → String) :
    (shown r text).filter Event.isMilestone = [] := by
  unfold shown
  split
  · simp
  · rfl

def takesFrom (h : Harness) (r : Running) (text : Stream → String) : Bool :=
  !r.isCaptured || h.takes (text .stdout)

theorem forwardOf_eq (h : Harness) (r : Running) (text : Stream → String) (s : Session) :
    h.forwardOf r text s =
      if h.takesFrom r text = true then .ok () (s.add (shown r text))
      else .error .unwritable s := by
  unfold forwardOf shown takesFrom
  cases r.isCaptured with
  | true =>
    rw [if_pos rfl, if_pos rfl, Bool.not_true, Bool.false_or]
    exact forward_eq h text s
  | false =>
    rw [if_neg Bool.false_ne_true, if_neg Bool.false_ne_true, Session.add_nil]
    rfl

theorem finishCheck_eq (h : Harness) (r : Running) (s : Session) :
    h.finishCheck r s =
      if h.takesFrom r (r.outcome s.tree).text = true then
        .ok (r.outcome s.tree) ((h.finished r s).add (shown r (r.outcome s.tree).text))
      else .error .unwritable (h.finished r s) := by
  have hforward := forwardOf_eq h r (r.outcome s.tree).text (h.finished r s)
  unfold finishCheck
  rw [Effect.bind_of_ok (finish_eq h r s)]
  by_cases htaken : h.takesFrom r (r.outcome s.tree).text = true
  · rw [if_pos htaken] at hforward ⊢
    rw [Effect.bind_of_ok hforward]
    rfl
  · rw [if_neg htaken] at hforward ⊢
    rw [Effect.bind_of_error hforward]

theorem finishCheck_ok {check : Outcome} (hf : h.finishCheck r s = .ok check u) :
    h.takesFrom r (r.outcome s.tree).text = true ∧ check = r.outcome s.tree ∧
      u = (h.finished r s).add (shown r (r.outcome s.tree).text) := by
  rw [finishCheck_eq] at hf
  split at hf
  next htaken =>
    cases hf
    exact ⟨htaken, rfl, rfl⟩
  next => cases hf

theorem finishCheck_error {e : Failure} (hf : h.finishCheck r s = .error e u) :
    e = .unwritable ∧ h.takesFrom r (r.outcome s.tree).text = false := by
  rw [finishCheck_eq] at hf
  split at hf
  next => cases hf
  next hrefused =>
    cases hf
    exact ⟨rfl, Bool.eq_false_iff.2 hrefused⟩

def cutShort (h : Harness) (check : Outcome) : List Event :=
  Run.logged (h.console.info (programName ++ ": check failed with status " ++
    toString check.status ++ "; skipping lint and unittest output"))

theorem finishEarly_eq (h : Harness) (p : Plan) (l : Launched) (check : Outcome) (s : Session) :
    h.finishEarly p l check s =
      .ok { plan := p, status := check.status
            outcomes := check :: outcomes (l.lint.toList ++ l.run.toList) s.tree }
        (h.finishedEach (l.lint.toList ++ l.run.toList) (s.add (h.cutShort check))) := by
  unfold finishEarly
  rw [Effect.bind_of_ok (Run.log_eq _ _), Effect.bind_of_ok (finishEach_eq h _ _)]
  rfl

end TriplePass.Harness

import TriplePass.Proofs.Harness.Waiting

/-! # The run of the unit tests, and its listings

What the check has not shown of the run is passed on. Where coverage is wanted and the tests did
not fail by an assertion, the listings are looked at; only the system can refuse that. The standard
output can refuse what the run has written, and what the report says.
-/
namespace TriplePass.Harness
variable {h : Harness} {p : Plan} {r : Running} {s u : Session} {e : Failure}

def surveyTold (h : Harness) (report : Coverage.Report) : List Event :=
  report.diagnostics.flatMap (fun d => Run.forwarded .stdout d.render) ++
    report.consumed.flatMap (fun listing => h.debugged ("consumed listing=" ++ listing.name)) ++
    report.removed.flatMap (fun listing => h.debugged ("removed listing=" ++ listing.name))

@[simp] theorem milestones_surveyTold (h : Harness) (report : Coverage.Report) :
    (h.surveyTold report).filter Event.isMilestone = [] := by
  simp [surveyTold, debugged, List.filter_flatMap]

theorem survey_cases {α : Type} (x : Coverage.Survey α) (s : Session) :
    (∃ a t, x s.tree = .ok a t ∧ Run.survey x s = .ok a (s.withTree t)) ∨
      ∃ e t, x s.tree = .error e t ∧ Run.survey x s = .error (.system e) (s.withTree t) := by
  unfold Run.survey
  cases x s.tree with
  | ok a t => exact .inl ⟨a, t, rfl, rfl⟩
  | error e t => exact .inr ⟨e, t, rfl, rfl⟩

/-- A look at the listings ends in its report, in a refusal of the system, or at a notice that the
standard output does not take; the listings are done with by then. -/
theorem reportCoverage_cases (h : Harness) (p : Plan) (s : Session) :
    (∃ report t, Coverage.run h.workingDir h.dir p.sources s.tree = .ok report t ∧
      (∀ d ∈ report.diagnostics, h.takes d.render = true) ∧
      h.reportCoverage p s =
        .ok report (((s.add [.surveyed]).withTree t).add (h.surveyTold report))) ∨
    (∃ errno t, Coverage.run h.workingDir h.dir p.sources s.tree = .error errno t ∧
      h.reportCoverage p s = .error (.system errno) ((s.add [.surveyed]).withTree t)) ∨
    ∃ report u, Coverage.run h.workingDir h.dir p.sources s.tree = .ok report u.tree ∧
      (∃ d ∈ report.diagnostics, h.takes d.render = false) ∧
      h.reportCoverage p s = .error .unwritable u := by
  unfold reportCoverage
  rw [Effect.bind_of_ok (Run.record_eq _ s)]
  rcases survey_cases (Coverage.run h.workingDir h.dir p.sources) (s.add [.surveyed]) with
    ⟨report, t, hrun, hsurvey⟩ | ⟨errno, t, hrun, hsurvey⟩
  · rw [Effect.bind_of_ok hsurvey]
    rcases echoEach_cases h Diagnostic.render report.diagnostics ((s.add [.surveyed]).withTree t)
      with ⟨htaken, hecho⟩ | ⟨hrefused, u, htree, hecho⟩
    · refine .inl ⟨report, t, hrun, htaken, ?_⟩
      rw [Effect.bind_of_ok hecho, Effect.bind_of_ok (Run.forM_eq (fun listing => debug_eq h _) _ _),
        Effect.bind_of_ok (Run.forM_eq (fun listing => debug_eq h _) _ _), Session.add_add,
        Session.add_add]
      simp only [surveyTold, List.append_assoc]
      rfl
    · have hleft : u.tree = t := htree
      exact .inr (.inr ⟨report, u, hleft ▸ hrun, hrefused, Effect.bind_of_error hecho _⟩)
  · exact .inr (.inl ⟨errno, t, hrun, Effect.bind_of_error hsurvey _⟩)

theorem reportCoverage_ok {report : Coverage.Report}
    (hr : h.reportCoverage p s = .ok report u) :
    ∃ t, Coverage.run h.workingDir h.dir p.sources s.tree = .ok report t ∧
      (∀ d ∈ report.diagnostics, h.takes d.render = true) ∧
      u = ((s.add [.surveyed]).withTree t).add (h.surveyTold report) := by
  rcases reportCoverage_cases h p s with ⟨found, t, hrun, htaken, heq⟩ | ⟨_, _, _, heq⟩ |
    ⟨_, _, _, _, heq⟩
  · rw [heq] at hr
    cases hr
    exact ⟨t, hrun, htaken, rfl⟩
  · cases heq.symm.trans hr
  · cases heq.symm.trans hr

theorem reportCoverage_error (hr : h.reportCoverage p s = .error e u) :
    (∃ errno, e = .system errno ∧
      Coverage.run h.workingDir h.dir p.sources s.tree = .error errno u.tree) ∨
    e = .unwritable ∧ ∃ report,
      Coverage.run h.workingDir h.dir p.sources s.tree = .ok report u.tree ∧
        ∃ d ∈ report.diagnostics, h.takes d.render = false := by
  rcases reportCoverage_cases h p s with ⟨_, _, _, _, heq⟩ | ⟨errno, t, hrun, heq⟩ |
    ⟨report, v, hrun, hrefused, heq⟩
  · cases heq.symm.trans hr
  · rw [heq] at hr
    cases hr
    exact .inl ⟨errno, rfl, hrun⟩
  · rw [heq] at hr
    cases hr
    exact .inr ⟨rfl, report, hrun, hrefused⟩

def runShown (h : Harness) (check : Outcome) (r : Running) (s : Session) : Session :=
  (h.finished r s).add (shown r (reconciled (some check) (r.outcome s.tree)))

inductive RunStage (h : Harness) (p : Plan) (check : Outcome) :
    Option Running → Session → Option Outcome → Option Coverage.Report → Session → Prop where
  | absent (s : Session) : RunStage h p check none s none none s
  | unsurveyed {r : Running} {s : Session} :
      Coverage.shouldProcess p.run p.coverage (some (r.outcome s.tree).status) = false →
      h.takesFrom r (reconciled (some check) (r.outcome s.tree)) = true →
      RunStage h p check (some r) s (some (r.outcome s.tree)) none (h.runShown check r s)
  | surveyed {r : Running} {s : Session} {report : Coverage.Report} {t : FileTree} :
      Coverage.shouldProcess p.run p.coverage (some (r.outcome s.tree).status) = true →
      Coverage.run h.workingDir h.dir p.sources (r.leaves s.tree) = .ok report t →
      h.takesFrom r (reconciled (some check) (r.outcome s.tree)) = true →
      (∀ d ∈ report.diagnostics, h.takes d.render = true) →
      RunStage h p check (some r) s (some (r.outcome s.tree)) (some report)
        ((((h.runShown check r s).add [.surveyed]).withTree t).add (h.surveyTold report))

inductive RunFault (h : Harness) (p : Plan) (check : Outcome) (r : Running) (t u : FileTree) :
    Failure → Prop where
  | output : h.takesFrom r (reconciled (some check) (r.outcome t)) = false →
      RunFault h p check r t u .unwritable
  | survey {errno : Errno} :
      Coverage.shouldProcess p.run p.coverage (some (r.outcome t).status) = true →
      Coverage.run h.workingDir h.dir p.sources (r.leaves t) = .error errno u →
      RunFault h p check r t u (.system errno)
  | notice {report : Coverage.Report} {d : Diagnostic} :
      Coverage.shouldProcess p.run p.coverage (some (r.outcome t).status) = true →
      Coverage.run h.workingDir h.dir p.sources (r.leaves t) = .ok report u →
      d ∈ report.diagnostics → h.takes d.render = false → RunFault h p check r t u .unwritable

theorem finishRun_shown (h : Harness) (p : Plan) (check : Outcome) (r : Running) (s : Session) :
    h.finishRun p check r s =
      if h.takesFrom r (reconciled (some check) (r.outcome s.tree)) = true then
        (if Coverage.shouldProcess p.run p.coverage (some (r.outcome s.tree).status) then
          (fun report => (r.outcome s.tree, some report)) <$> h.reportCoverage p
        else pure (r.outcome s.tree, none)) (h.runShown check r s)
      else .error .unwritable (h.finished r s) := by
  have hforward := forwardOf_eq h r (reconciled (some check) (r.outcome s.tree)) (h.finished r s)
  unfold finishRun
  rw [Effect.bind_of_ok (finish_eq h r s), map_eq_pure_bind]
  by_cases htaken : h.takesFrom r (reconciled (some check) (r.outcome s.tree)) = true
  · rw [if_pos htaken] at hforward ⊢
    rw [Effect.bind_of_ok hforward]
    rfl
  · rw [if_neg htaken] at hforward ⊢
    rw [Effect.bind_of_error hforward]

theorem finishRun_ok {check o : Outcome} {report : Option Coverage.Report}
    (hr : h.finishRun p check r s = .ok (o, report) u) :
    RunStage h p check (some r) s (some o) report u := by
  rw [finishRun_shown] at hr
  split at hr
  case isFalse => cases hr
  next htaken =>
  cases hc : Coverage.shouldProcess p.run p.coverage (some (r.outcome s.tree).status) with
  | true =>
    rw [if_pos hc] at hr
    obtain ⟨found, hreport, heq⟩ := Effect.map_ok hr
    cases heq
    obtain ⟨t, hrun, hnotices, rfl⟩ := reportCoverage_ok hreport
    exact .surveyed hc hrun htaken hnotices
  | false =>
    rw [if_neg (by simp [hc])] at hr
    cases hr
    exact .unsurveyed hc htaken

theorem finishRun_error {check : Outcome} (hr : h.finishRun p check r s = .error e u) :
    RunFault h p check r s.tree u.tree e := by
  rw [finishRun_shown] at hr
  split at hr
  case isFalse hrefused =>
    cases hr
    exact .output (Bool.eq_false_iff.2 hrefused)
  cases hc : Coverage.shouldProcess p.run p.coverage (some (r.outcome s.tree).status) with
  | true =>
    rw [if_pos hc] at hr
    rcases reportCoverage_error (Effect.map_error hr) with ⟨errno, rfl, hrun⟩ |
      ⟨rfl, report, hrun, d, hd, hrefused⟩
    · exact .survey hc hrun
    · exact .notice hc hrun hd hrefused
  | false =>
    rw [if_neg (by simp [hc])] at hr
    cases hr

def runPart (h : Harness) (p : Plan) (check : Outcome) :
    Option Running → Run (Option Outcome × Option Coverage.Report)
  | some r => (fun x => (some x.1, x.2)) <$> h.finishRun p check r
  | none => pure (none, none)

theorem runPart_ok {check : Outcome} {run : Option Running} {o : Option Outcome}
    {report : Option Coverage.Report} (hr : h.runPart p check run s = .ok (o, report) u) :
    RunStage h p check run s o report u := by
  cases run with
  | none =>
    cases hr
    exact .absent s
  | some r =>
    obtain ⟨⟨o', report'⟩, hx, heq⟩ := Effect.map_ok hr
    cases heq
    exact finishRun_ok hx

theorem runPart_error {check : Outcome} {run : Option Running}
    (hr : h.runPart p check run s = .error e u) :
    ∃ r, run = some r ∧ RunFault h p check r s.tree u.tree e := by
  cases run with
  | none => cases hr
  | some r => exact ⟨r, rfl, finishRun_error (Effect.map_error hr)⟩

end TriplePass.Harness

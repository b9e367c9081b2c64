import TriplePass.Proofs.Settings.Flags

/-! # Sessions of settings

Settings change in steps: a table is put on top of them, one field is assigned, or the flags of an
environment are loaded. Every step is the update with the table of its entries, and takes place
exactly if these can be read. So settings hold their declared types at any time, a refused step
leaves them as they are, and a step that takes place sets the fields that it names.
-/
namespace TriplePass

namespace Settings
open Layer Result

inductive Step where
  | table (source : String) (data : Table) (regular : data.Regular)
  | field (name : String) (v : Value) (regular : v.Regular)
  | flags (t : FileTree) (workingDir : Place) (env : Environment)

inductive Rejection where
  | load (e : LoadError)
  | assignment (faults : List Fault)
  deriving DecidableEq, Repr

namespace Step

def attempt (s : Settings) : Step → Except Rejection Settings
  | table source data _ => (s.updateFrom source data).mapError (.load ∘ .settings)
  | field name v _ => (s.assign name v).mapError .assignment
  | flags t workingDir env => (addLayer t workingDir s (.flags env)).mapError .load

/-- The settings after a step, which stay as they are if it does not take place. -/
def after (s : Settings) (step : Step) : Settings :=
  match step.attempt s with
  | .ok c => c
  | .error _ => s

def entries : Step → Table
  | table _ data _ => data
  | field name v _ => [(name, v)]
  | flags _ _ env => flagFields.filterMap (flagEntry env) ++ lintEntries env

/-- What a step sets can be read. A name outside the settings is assigned whatever the value. -/
def Accepted : Step → Prop
  | table _ data _ => Valid (Dictionary.get? data)
  | field name v _ => isPrivateName name = true ∨ Valid (Dictionary.get? [(name, v)])
  | flags _ _ env => ∀ suffix ∈ flagFields.map Prod.fst ++ ["NO_LINT"], FlagReadable env suffix

inductive Reports : Step → Rejection → Prop where
  | table {source : String} {data : Table} {regular : data.Regular} {faults : List Fault} :
      Reports (.table source data regular) (.load (.settings (.invalid source faults)))
  | field {name : String} {v : Value} {regular : v.Regular} {faults : List Fault} :
      Reports (.field name v regular) (.assignment faults)
  | flags {t : FileTree} {workingDir : Place} {env : Environment} {flag raw : String} :
      Reports (.flags t workingDir env) (.load (.settings (.badFlag flag raw)))

end Step

def session (steps : List Step) : Settings :=
  steps.foldl Step.after {}

/-! ### Flags -/

section Flags
variable {t : FileTree} {workingDir : Place} {env : Environment} {data : Table}
  {e : SettingsError}

theorem badFlag_of_flag? {suffix : String} (h : flag? env suffix = .error e) :
    ∃ flag raw, e = .badFlag flag raw := by
  unfold flag? at h
  dsimp only at h
  cases hraw : Dictionary.get? env (flagPrefix ++ suffix) with
  | none =>
    rw [hraw] at h
    cases h
  | some raw =>
    simp only [hraw, readFlagText] at h
    split at h
    · cases h
    · split at h
      · cases h
      · exact ⟨_, _, (Except.error.inj h).symm⟩

theorem badFlag_of_readFlags {flags : List (String × Field × Bool)}
    (h : readFlags env flags = .error e) : ∃ flag raw, e = .badFlag flag raw := by
  induction flags with
  | nil =>
    rw [readFlags] at h
    cases hflag : flag? env "NO_LINT" with
    | error e' =>
      rw [hflag] at h
      cases h
      exact badFlag_of_flag? hflag
    | ok b =>
      simp only [hflag, bind, Except.bind] at h
      split at h <;> cases h
  | cons flag rest ih =>
    obtain ⟨suffix, f, inverted⟩ := flag
    rw [readFlags] at h
    cases hflag : flag? env suffix with
    | error e' =>
      rw [hflag] at h
      cases h
      exact badFlag_of_flag? hflag
    | ok b =>
      cases hrest : readFlags env rest with
      | error e' =>
        rw [hflag, hrest] at h
        cases h
        exact ih hrest
      | ok more =>
        rw [hflag, hrest] at h
        cases h

/-- Flags that are read are taken over. -/
theorem exists_addLayer_flags (h : (Layer.flags env).load t workingDir = .ok data)
    (s : Settings) : ∃ c, addLayer t workingDir s (.flags env) = .ok c := by
  obtain ⟨-, rfl⟩ := readFlags_eq_ok.1 (load_flags.1 h)
  obtain ⟨c, hc, -⟩ := exists_update (distinct_flags env) (valid_flags env) s
  exact ⟨c, addLayer_eq_ok.2 ⟨_, h, hc⟩⟩

/-- Nothing but a flag that cannot be read is ever reported. -/
theorem badFlag_of_addLayer {s : Settings} {e : LoadError}
    (h : addLayer t workingDir s (.flags env) = .error e) :
    ∃ flag raw, e = .settings (.badFlag flag raw) := by
  cases hread : readFlags env flagFields with
  | ok data =>
    obtain ⟨c, hc⟩ := exists_addLayer_flags (load_flags.2 hread) s
    rw [hc] at h
    cases h
  | error e' =>
    have hload : (Layer.flags env).load t workingDir = .error (.settings e') := by
      rw [Layer.load, hread]
    rw [addLayer_of_error hload] at h
    cases h
    obtain ⟨flag, raw, rfl⟩ := badFlag_of_readFlags hread
    exact ⟨flag, raw, rfl⟩

end Flags

/-! ### One step -/

section OneStep
variable {s c : Settings} {step : Step} {source name : String} {data : Table} {v : Value}

theorem isPrivateName_name (f : Field) : isPrivateName f.name = false := by
  cases f <;> decide

/-- Assigning a field is the update with one entry. -/
theorem assign_eq_ok (hname : isPrivateName name = false) :
    s.assign name v = .ok c ↔ s.update [(name, v)] = .ok c := by
  rw [assign, if_neg (by rw [hname]; exact Bool.false_ne_true), update, map_eq_ok, map_eq_ok]
  constructor
  · rintro ⟨change, hchange, rfl⟩
    refine ⟨[change], readTable_eq_ok.2 ?_, rfl⟩
    exact .cons (Field.readEntry_eq_ok.1 hchange) .nil
  · rintro ⟨changes, hchanges, rfl⟩
    obtain ⟨change, more, hchange, hmore, rfl⟩ :=
      List.forall₂_cons_left_iff.1 (readTable_eq_ok.1 hchanges)
    cases hmore
    exact ⟨change, Field.readEntry_eq_ok.2 hchange, rfl⟩

theorem assign_private (hname : isPrivateName name = true) : s.assign name v = .ok s :=
  if_pos hname

theorem get?_private (hname : isPrivateName name = true) (f : Field) :
    Dictionary.get? [(name, v)] f.name = none := by
  rw [Dictionary.get?_cons, if_neg]
  · rfl
  · rintro rfl
    rw [isPrivateName_name] at hname
    cases hname

theorem distinct_single : Dictionary.Distinct [(name, v)] := by
  simp [Dictionary.Distinct, Dictionary.names]

/-- A step takes place exactly if it is accepted, and sets exactly what its entries give. -/
theorem Step.attempt_eq_ok : step.attempt s = .ok c ↔
    step.Accepted ∧ ∀ f, c.get f = (given (Dictionary.get? step.entries) f).getD (s.get f) := by
  cases step with
  | table source data regular =>
    rw [Step.attempt, mapError_eq_ok, updateFrom_eq_ok, update_eq_ok regular.distinct]
    rfl
  | field name v regular =>
    rw [Step.attempt, mapError_eq_ok]
    cases hname : isPrivateName name with
    | true =>
      rw [assign_private hname]
      simp only [Step.entries, given_of_none (get?_private hname _), Option.getD_none,
        Step.Accepted, hname, true_or, true_and]
      exact ⟨fun h f => by rw [Except.ok.inj h], fun h => by rw [ext_get h]⟩
    | false =>
      rw [assign_eq_ok hname, update_eq_ok distinct_single]
      simp [Step.entries, Step.Accepted, hname]
  | flags t workingDir env =>
    rw [Step.attempt, mapError_eq_ok, addLayer_flags]
    simp only [Step.entries, Step.Accepted, given_flags]

theorem Step.attempt_accepted (h : step.Accepted) (s : Settings) :
    step.attempt s = .ok (step.after s) := by
  obtain ⟨c, hc⟩ : ∃ c, step.attempt s = .ok c := by
    cases step with
    | table source data regular =>
      obtain ⟨c, hc, -⟩ := exists_update regular.distinct h s
      exact ⟨c, mapError_eq_ok.2 (updateFrom_eq_ok.2 hc)⟩
    | field name v regular =>
      cases hname : isPrivateName name with
      | true => exact ⟨s, mapError_eq_ok.2 (assign_private hname)⟩
      | false =>
        rcases h with h | h
        · rw [hname] at h
          cases h
        · obtain ⟨c, hc, -⟩ := exists_update distinct_single h s
          exact ⟨c, mapError_eq_ok.2 ((assign_eq_ok hname).2 hc)⟩
    | flags t workingDir env =>
      obtain ⟨c, hc, hfields⟩ := exists_update (distinct_flags env) (valid_flags env) s
      refine ⟨c, mapError_eq_ok.2 (addLayer_flags.2 ⟨h, fun f => ?_⟩)⟩
      rw [hfields, given_flags]
  rw [Step.after, hc]

theorem Step.attempt_error {e : Rejection} (h : step.attempt s = .error e) : step.Reports e := by
  cases step with
  | table source data regular =>
    rw [Step.attempt, updateFrom] at h
    cases hupdate : s.update data with
    | ok c =>
      rw [hupdate] at h
      cases h
    | error faults =>
      rw [hupdate] at h
      cases h
      exact .table
  | field name v regular =>
    rw [Step.attempt] at h
    cases hassign : s.assign name v with
    | ok c =>
      rw [hassign] at h
      cases h
    | error faults =>
      rw [hassign] at h
      cases h
      exact .field
  | flags t workingDir env =>
    rw [Step.attempt] at h
    cases hadd : addLayer t workingDir s (.flags env) with
    | ok c =>
      rw [hadd] at h
      cases h
    | error e =>
      rw [hadd] at h
      cases h
      obtain ⟨flag, raw, rfl⟩ := badFlag_of_addLayer hadd
      exact .flags

theorem Step.attempt_refused (h : ¬step.Accepted) (s : Settings) :
    (∃ e, step.attempt s = .error e ∧ step.Reports e) ∧ step.after s = s := by
  cases hattempt : step.attempt s with
  | ok c => exact absurd (Step.attempt_eq_ok.1 hattempt).1 h
  | error e =>
    have hafter : step.after s = s := by
      rw [Step.after, hattempt]
    exact ⟨⟨e, rfl, Step.attempt_error hattempt⟩, hafter⟩

theorem Step.get_after (h : step.Accepted) (s : Settings) (f : Field) :
    (step.after s).get f = (given (Dictionary.get? step.entries) f).getD (s.get f) :=
  (Step.attempt_eq_ok.1 (Step.attempt_accepted h s)).2 f

theorem Step.Accepted.exists_read (h : step.Accepted) {f : Field}
    (hv : Dictionary.get? step.entries f.name = some v) : ∃ x, f.read v = .ok x := by
  cases step with
  | table source data regular => exact Valid.exists_read h hv
  | field name w regular =>
    rcases h with hname | hvalid
    · cases (get?_private hname f).symm.trans hv
    · exact hvalid.exists_read hv
  | flags t workingDir env => exact (valid_flags env).exists_read hv

/-- A field that an accepted step names holds what its entry is read as. -/
theorem Step.get_after_named (h : step.Accepted) (s : Settings) {f : Field}
    (hv : Dictionary.get? step.entries f.name = some v) :
    f.read v = .ok ((step.after s).get f) := by
  obtain ⟨x, hx⟩ := h.exists_read hv
  rw [Step.get_after h, given_eq_read hv, hx]
  rfl

theorem Step.get_after_unnamed {f : Field} (hf : f.name ∉ Dictionary.names step.entries)
    (s : Settings) : (step.after s).get f = s.get f := by
  by_cases h : step.Accepted
  · rw [Step.get_after h, given_of_none (Dictionary.get?_of_not_mem hf)]
    rfl
  · rw [(Step.attempt_refused h s).2]

theorem Step.regular (step : Step) : step.entries.Regular := by
  cases step with
  | table source data regular => exact regular
  | field name v regular =>
    refine ⟨distinct_single, fun q w hw => ?_⟩
    cases List.mem_singleton.1 (distinct_single.mem_iff.2 hw)
    exact regular
  | flags t workingDir env => exact regular_flags env

theorem WellTyped.after (h : s.WellTyped) (step : Step) : (step.after s).WellTyped := by
  by_cases haccepted : step.Accepted
  · exact h.given step.regular (Step.get_after haccepted s)
  · rw [(Step.attempt_refused haccepted s).2]
    exact h

end OneStep

/-! ### Many steps -/

structure Standing (s : Settings) : Prop where
  typed : s.WellTyped
  restored : ∀ r : Settings, r.update s.dump = .ok s
  rewritten : ∀ data, Dictionary.Distinct data → ∀ r c : Settings,
    r.update (Dictionary.overlay s.dump data) = .ok c ↔ s.update data = .ok c
  accepted : ∀ step : Step, step.Accepted → step.attempt s = .ok (step.after s)
  refused : ∀ step : Step, ¬step.Accepted →
    (∃ e, step.attempt s = .error e ∧ step.Reports e) ∧ step.after s = s
  named : ∀ step : Step, step.Accepted → ∀ (f : Field) v,
    Dictionary.get? step.entries f.name = some v → f.read v = .ok ((step.after s).get f)
  unnamed : ∀ (step : Step) (f : Field), f.name ∉ Dictionary.names step.entries →
    (step.after s).get f = s.get f
  composed : ∀ lower upper, Dictionary.Distinct lower → Dictionary.Distinct upper →
    ∀ source source' both (t u : Settings), s.updateFrom source lower = .ok t →
      t.updateFrom source' upper = .ok u →
      s.updateFrom both (Dictionary.overlay lower upper) = .ok u
  flags : ∀ t workingDir env data, (Layer.flags env).load t workingDir = .ok data →
    (Step.flags t workingDir env).attempt s = .ok ((Step.flags t workingDir env).after s)

theorem updateFrom_overlay {s t u : Settings} {lower upper : Table} {source source' : String}
    (hlower : Dictionary.Distinct lower) (hupper : Dictionary.Distinct upper)
    (ht : s.updateFrom source lower = .ok t) (hu : t.updateFrom source' upper = .ok u)
    (both : String) : s.updateFrom both (Dictionary.overlay lower upper) = .ok u := by
  rw [updateFrom_eq_ok] at ht hu ⊢
  exact update_overlay hlower hupper ht hu

theorem attempt_flags {t : FileTree} {workingDir : Place} {env : Environment} {data : Table}
    (h : (Layer.flags env).load t workingDir = .ok data) (s : Settings) :
    (Step.flags t workingDir env).attempt s =
      .ok ((Step.flags t workingDir env).after s) := by
  refine Step.attempt_accepted ?_ s
  obtain ⟨c, hc⟩ := exists_addLayer_flags h s
  exact (addLayer_flags.1 hc).1

theorem WellTyped.standing {s : Settings} (h : s.WellTyped) : s.Standing where
  typed := h
  restored := h.restored
  rewritten := fun _ hdata r _ => h.update_dump hdata r
  accepted := fun _ hstep => Step.attempt_accepted hstep s
  refused := fun _ hstep => Step.attempt_refused hstep s
  named := fun _ hstep _ _ => Step.get_after_named hstep s
  unnamed := fun _ _ hf => Step.get_after_unnamed hf s
  composed := fun _ _ hlower hupper _ _ both _ _ ht hu =>
    updateFrom_overlay hlower hupper ht hu both
  flags := fun _ _ _ _ hload => attempt_flags hload s

theorem WellTyped.session {s : Settings} (h : s.WellTyped) (steps : List Step) :
    (steps.foldl Step.after s).WellTyped := by
  induction steps generalizing s with
  | nil => exact h
  | cons step rest ih => exact ih (h.after step)

/-- At any time of a session that starts with the defaults, every field holds its declared type and
would be read again as it is. A step takes place, and then the fields that it names hold what their
values are read as and the others what they held; or it is refused and nothing changes. Two tables
one after the other are the second on top of the first, and flags that are read are taken over. -/
theorem session_standing (steps : List Step) : (session steps).Standing :=
  (wellTyped_default.session steps).standing

end Settings
end TriplePass

import TriplePass.CommandLine
import TriplePass.Proofs.Settings.Document

/-! # Settings that cannot be loaded

What is wrong in a table or in a flag is reported, and so is a file that is no document. Three
causes are not reported: a file that holds no text, an integer too long to convert, and a file that
the system does not answer for or does not let be read. The harness's own file is looked at only once the project's section
has been taken over.
-/
namespace TriplePass

namespace Layer
variable {t : FileTree} {workingDir : Place} {path : Path} {e : LoadError}

/-- The loading comes to an end, or what is wrong is reported. -/
def Reported {α : Type} (result : Except LoadError α) : Prop :=
  (∃ a, result = .ok a) ∨ ∃ fault, result = .error (.settings fault)

theorem Reported.bind {α β : Type} {result : Except LoadError α} {f : α → Except LoadError β}
    (h : Reported result) (hf : ∀ a, result = .ok a → Reported (f a)) :
    Reported (result >>= f) := by
  rcases h with ⟨a, rfl⟩ | ⟨fault, rfl⟩
  · exact hf a rfl
  · exact .inr ⟨fault, rfl⟩

theorem Unreadable.not_reported {α : Type} (h : Unreadable t workingDir path e) :
    ¬Reported (.error e : Except LoadError α) := by
  rintro (⟨a, ha⟩ | ⟨fault, hfault⟩)
  · cases ha
  · cases hfault
    cases h

theorem reported_readDocument (h : ∀ e, ¬Unreadable t workingDir path e) :
    Reported (readDocument t workingDir path) := by
  rcases written_or t workingDir path with ⟨data, hdata⟩ | hunparsable | ⟨e, he⟩
  · exact .inl ⟨_, hdata.readDocument⟩
  · exact .inr ⟨_, hunparsable.readDocument⟩
  · exact absurd he (h e)

theorem reported_project (h : ∀ e, ¬Unreadable t workingDir path e) (label : String) :
    Reported ((Layer.project path label).load t workingDir) :=
  (reported_readDocument h).bind fun data _ => .inl ⟨projectSection data, rfl⟩

theorem reported_flags (t : FileTree) (workingDir : Place) (env : Environment) :
    Reported ((Layer.flags env).load t workingDir) := by
  simp only [Layer.load]
  split
  next data _ => exact .inl ⟨data, rfl⟩
  next fault _ => exact .inr ⟨fault, rfl⟩

end Layer

namespace Settings
open Layer Result
variable {t : FileTree} {workingDir : Place} {dir : Path} {env : Environment} {s c : Settings}
  {layer : Layer} {data : Table} {e : LoadError}

theorem addLayer_of_error (h : layer.load t workingDir = .error e) (s : Settings) :
    addLayer t workingDir s layer = .error e := by
  rw [addLayer, h]
  rfl

theorem reported_addLayer (h : Reported (layer.load t workingDir)) (s : Settings) :
    Reported (addLayer t workingDir s layer) := by
  refine h.bind fun data _ => ?_
  split
  next s' _ => exact .inl ⟨s', rfl⟩
  next fault _ => exact .inr ⟨fault, rfl⟩

def projectLayer (dir : Path) : Layer :=
  .project (dir.child "pyproject.toml") ""

def ownLayer (dir : Path) : Layer :=
  .document (dir.child ".xdmd.toml") ""

theorem load_eq (t : FileTree) (workingDir : Place) (dir : Path) (env : Environment) :
    load t workingDir dir env =
      addLayer t workingDir {} (projectLayer dir) >>= fun s =>
        addLayer t workingDir s (ownLayer dir) >>= fun s =>
          addLayer t workingDir s (.flags env) := by
  simp only [load, layers, List.foldlM_cons, List.foldlM_nil, bind_pure, projectLayer, ownLayer]

theorem updateFrom_eq_ok {source : String} :
    s.updateFrom source data = .ok c ↔ s.update data = .ok c := by
  unfold updateFrom
  cases s.update data <;> simp

theorem addLayer_eq_ok : addLayer t workingDir s layer = .ok c ↔
    ∃ data, layer.load t workingDir = .ok data ∧ s.update data = .ok c := by
  rw [addLayer, bind_eq_ok]
  refine exists_congr fun data => and_congr_right fun _ => ?_
  rw [← updateFrom_eq_ok]
  cases s.updateFrom layer.describe data <;>
    simp [pure, Except.pure, throw, throwThe, MonadExceptOf.throw]

/-- A table that is not valid is reported. -/
theorem addLayer_invalid (hload : layer.load t workingDir = .ok data)
    (hinvalid : ∀ c, s.update data ≠ .ok c) :
    ∃ fault, addLayer t workingDir s layer = .error (.settings fault) := by
  have hreported := reported_addLayer (.inl ⟨data, hload⟩) s
  rcases hreported with ⟨c, hc⟩ | hfault
  · obtain ⟨data', hload', hupdate⟩ := addLayer_eq_ok.1 hc
    rw [hload] at hload'
    cases hload'
    exact absurd hupdate (hinvalid c)
  · exact hfault

theorem load_project : (projectLayer dir).load t workingDir = .ok data ↔
    ∃ project, Written t workingDir (dir.child "pyproject.toml") project ∧
      normalised (sectionOf project) = data := by
  change projectSection <$> readDocument t workingDir (dir.child "pyproject.toml") = .ok data ↔ _
  simp only [map_eq_ok, readDocument_eq_ok, ← projectSection_normalised]
  constructor
  · rintro ⟨_, ⟨project, hproject, rfl⟩, rfl⟩
    exact ⟨project, hproject, rfl⟩
  · rintro ⟨project, hproject, rfl⟩
    exact ⟨_, ⟨project, hproject, rfl⟩, rfl⟩

/-- A layer that is read from a table is taken over exactly if the table is valid. -/
theorem addLayer_of_tables {P : Table → Prop} {g : Table → Table}
    (hload : ∀ data, layer.load t workingDir = .ok data ↔
      ∃ raw, P raw ∧ normalised (g raw) = data) :
    addLayer t workingDir s layer = .ok c ↔ ∃ raw, P raw ∧ Valid (lastSpelled (g raw)) ∧
      ∀ f, c.get f = (given (lastSpelled (g raw)) f).getD (s.get f) := by
  simp only [addLayer_eq_ok, hload]
  constructor
  · rintro ⟨_, ⟨raw, hraw, rfl⟩, hupdate⟩
    exact ⟨raw, hraw, update_normalised.1 hupdate⟩
  · rintro ⟨raw, hraw, hupdate⟩
    exact ⟨_, ⟨raw, hraw, rfl⟩, update_normalised.2 hupdate⟩

theorem addLayer_project : addLayer t workingDir s (projectLayer dir) = .ok c ↔
    ∃ project, Written t workingDir (dir.child "pyproject.toml") project ∧
      Valid (lastSpelled (sectionOf project)) ∧
      ∀ f, c.get f = (given (lastSpelled (sectionOf project)) f).getD (s.get f) :=
  addLayer_of_tables fun _ => load_project

theorem addLayer_own : addLayer t workingDir s (ownLayer dir) = .ok c ↔
    ∃ own, Written t workingDir (dir.child ".xdmd.toml") own ∧ Valid (lastSpelled own) ∧
      ∀ f, c.get f = (given (lastSpelled own) f).getD (s.get f) :=
  addLayer_of_tables (g := id) fun _ => readDocument_eq_ok

inductive Unreported (t : FileTree) (workingDir : Place) (dir : Path) : LoadError → Prop where
  | project {e : LoadError} : Unreadable t workingDir (dir.child "pyproject.toml") e →
      Unreported t workingDir dir e
  | own {project : Table} {e : LoadError} :
      Written t workingDir (dir.child "pyproject.toml") project →
      Valid (lastSpelled (sectionOf project)) →
      Unreadable t workingDir (dir.child ".xdmd.toml") e → Unreported t workingDir dir e

theorem Unreported.load (h : Unreported t workingDir dir e) (env : Environment) :
    Settings.load t workingDir dir env = .error e := by
  rw [load_eq]
  cases h with
  | project hread =>
    have hload : (projectLayer dir).load t workingDir = .error e := by
      simp only [projectLayer, Layer.load, hread.readDocument]
      rfl
    rw [addLayer_of_error hload]
    rfl
  | own hproject hvalid hread =>
    have hload : (ownLayer dir).load t workingDir = .error e := hread.readDocument
    obtain ⟨s, hs⟩ := exists_given hvalid {}
    rw [addLayer_project.2 ⟨_, hproject, hvalid, hs⟩]
    simp only [bind, Except.bind, addLayer_of_error hload]

theorem reported_load_iff (env : Environment) :
    Reported (load t workingDir dir env) ↔ ∀ e, ¬Unreported t workingDir dir e := by
  constructor
  · intro h e he
    rw [he.load] at h
    cases he with
    | project hread => exact hread.not_reported h
    | own _ _ hread => exact hread.not_reported h
  · intro h
    rw [load_eq]
    have hproject := reported_project (fun e he => h e (.project he)) ""
    refine (reported_addLayer hproject {}).bind fun s hs => ?_
    obtain ⟨project, hwritten, hvalid, -⟩ := addLayer_project.1 hs
    have hown : Reported ((ownLayer dir).load t workingDir) :=
      reported_readDocument fun e he => h e (.own hwritten hvalid he)
    exact (reported_addLayer hown s).bind fun s _ =>
      reported_addLayer (reported_flags t workingDir env) s

/-- Files of text without oversized integers give settings or a report. -/
theorem reported_load_of_readable (hproject : Readable t workingDir (dir.child "pyproject.toml"))
    (hown : Readable t workingDir (dir.child ".xdmd.toml")) (env : Environment) :
    Reported (load t workingDir dir env) := by
  rw [reported_load_iff]
  rintro e (hread | ⟨_, _, hread⟩)
  · exact hproject.not_unreadable e hread
  · exact hown.not_unreadable e hread

end Settings

namespace CommandLine
open Layer Settings

/-- Loading the settings ends well or in a report exactly if no file is unreadable; files of text
without oversized integers are readable. A report ends the harness with a status of its own and
leaves the files as they are; what is not reported ends it without a status. -/
theorem settings_reported (host : Host) (workingDir : Place) (dir : Path) (env : Environment)
    (t : FileTree) (arguments : List String) :
    (Reported (Settings.load t workingDir dir env) ↔ ∀ e, ¬Unreported t workingDir dir e) ∧
      (Readable t workingDir (dir.child "pyproject.toml") →
        Readable t workingDir (dir.child ".xdmd.toml") →
        Reported (Settings.load t workingDir dir env)) ∧
      (∀ fault, Settings.load t workingDir dir env = .error (.settings fault) →
        run host workingDir dir env t arguments = ⟨.ok settingsErrorCode,
          { tree := t, events := [.logged (Console.fail {} fault.message)] }⟩) ∧
      ∀ e, Unreported t workingDir dir e →
        Settings.load t workingDir dir env = .error e ∧
          run host workingDir dir env t arguments = ⟨.error (.load e), { tree := t }⟩ := by
  refine ⟨reported_load_iff env, fun hproject hown => reported_load_of_readable hproject hown env,
    fun fault hfault => ?_, fun e he => ⟨he.load env, ?_⟩⟩
  · simp only [run, hfault]
  · have hload := he.load env
    have hreported : ∀ fault, e ≠ .settings fault := by
      rintro fault rfl
      exact (reported_load_iff env).1 (.inr ⟨fault, hload⟩) _ he
    unfold run
    split
    next s hs =>
      rw [hload] at hs
      cases hs
    next fault hfault =>
      rw [hload] at hfault
      cases hfault
      exact absurd rfl (hreported fault)
    next e' _ he' =>
      rw [hload] at he'
      cases he'
      rfl

def brokenTree : FileTree where
  entries := [([".xdmd.toml"], .file false [0xFF])]

theorem settings_not_text :
    Settings.load brokenTree [] (Path.ofString ".") [] = .error .notText ∧
      (run { spawn := fun _ _ _ => .error .absent } [] (Path.ofString ".") [] brokenTree []).code =
        .error (.load .notText) := by
  have hload : Settings.load brokenTree [] (Path.ofString ".") [] = .error .notText := by
    decide +kernel
  exact ⟨hload, by simp only [run, hload]⟩

end CommandLine
end TriplePass

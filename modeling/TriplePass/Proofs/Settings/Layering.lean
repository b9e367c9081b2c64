import TriplePass.Proofs.Settings.Rewriting

/-! # Settings in layers

Of the keys that spell one name the last one counts, and a flag counts only if it is set. In the
settings that are loaded every field holds what the last layer gives it that sets it. A table that
is not valid is reported, whatever the later layers would set.
-/
namespace TriplePass

namespace Settings
open Layer Result
variable {t : FileTree} {workingDir : Place} {dir : Path} {env : Environment} {c : Settings}

/-- Every field holds what the last of the layers gives it that sets it, or its default. -/
structure Layered (t : FileTree) (workingDir : Place) (dir : Path) (env : Environment)
    (project own : Table) (c : Settings) : Prop where
  projectFile : Written t workingDir (dir.child "pyproject.toml") project
  ownFile : Written t workingDir (dir.child ".xdmd.toml") own
  validSection : Valid (lastSpelled (sectionOf project))
  validOwn : Valid (lastSpelled own)
  flags : ∀ suffix ∈ ["DEBUG", "NO_COLOR", "NO_EMOJI", "NO_DEMANGLE", "EXIT_EARLY", "NO_LINT"],
    FlagReadable env suffix
  fields : ∀ f, c.get f =
    (((flagGiven env f).or (given (lastSpelled own) f)).or
      (given (lastSpelled (sectionOf project)) f)).getD (({} : Settings).get f)

theorem load_eq_ok : load t workingDir dir env = .ok c ↔
    ∃ project own, Layered t workingDir dir env project own c := by
  rw [load_eq]
  simp only [bind_eq_ok, addLayer_project, addLayer_own, addLayer_flags]
  constructor
  · rintro ⟨s₁, ⟨project, hproject, hsection, h₁⟩, s₂, ⟨own, hown, hvalid, h₂⟩, hflags, h₃⟩
    refine ⟨project, own, hproject, hown, hsection, hvalid, hflags, fun f => ?_⟩
    rw [Option.getD_or, Option.getD_or, h₃, h₂, h₁]
  · rintro ⟨project, own, hproject, hown, hsection, hvalid, hflags, hfields⟩
    obtain ⟨s₁, h₁⟩ := exists_given hsection {}
    obtain ⟨s₂, h₂⟩ := exists_given hvalid s₁
    refine ⟨s₁, ⟨project, hproject, hsection, h₁⟩, s₂, ⟨own, hown, hvalid, h₂⟩, hflags, ?_⟩
    intro f
    rw [hfields, Option.getD_or, Option.getD_or, h₂, h₁]

theorem load_invalid_section {project : Table}
    (hproject : Written t workingDir (dir.child "pyproject.toml") project)
    (hinvalid : ¬Valid (lastSpelled (sectionOf project))) (env : Environment) :
    ∃ fault, load t workingDir dir env = .error (.settings fault) := by
  have hload := load_project.2 ⟨project, hproject, rfl⟩
  obtain ⟨fault, hfault⟩ := addLayer_invalid (s := {}) hload fun c hc =>
    hinvalid (update_normalised.1 hc).1
  refine ⟨fault, ?_⟩
  rw [load_eq, hfault]
  rfl

theorem load_invalid_own {own : Table}
    (hown : Written t workingDir (dir.child ".xdmd.toml") own)
    (hinvalid : ¬Valid (lastSpelled own)) (env : Environment) :
    (∃ fault, load t workingDir dir env = .error (.settings fault)) ∨
      ∃ e, Unreadable t workingDir (dir.child "pyproject.toml") e := by
  by_cases hproject : ∃ e, Unreadable t workingDir (dir.child "pyproject.toml") e
  · exact .inr hproject
  · have hread : ∀ e, ¬Unreported t workingDir dir e := by
      rintro e (hun | ⟨-, -, hun⟩)
      · exact hproject ⟨e, hun⟩
      · cases hun.readDocument.symm.trans hown.readDocument
    rcases (reported_load_iff env).2 hread with ⟨c, hc⟩ | hfault
    · obtain ⟨project, own', hlayered⟩ := load_eq_ok.1 hc
      rw [hlayered.ownFile.unique hown] at hlayered
      exact absurd hlayered.validOwn hinvalid
    · exact .inl hfault

/-- The settings that are loaded are those of the layers, field by field, with the extra variables
as they are written; it makes no difference whether they are written out and read anew for every
layer. A table with an unknown name or a value that no field can read is reported, whatever comes
after it. -/
theorem load_layered (t : FileTree) (workingDir : Place) (dir : Path) (env : Environment) :
    (∀ c, load t workingDir dir env = .ok c ↔
        ∃ project own, Layered t workingDir dir env project own c) ∧
      (∀ c, rewritten t workingDir dir env = .ok c ↔ load t workingDir dir env = .ok c) ∧
      (∀ find vars, given find .extraEnvironment = some (.bindings vars) ↔
        find "extra_environment" = some (.table (vars.map fun v => (v.1, .string v.2)))) ∧
      (∀ project, Written t workingDir (dir.child "pyproject.toml") project →
        ¬Valid (lastSpelled (sectionOf project)) →
        ∃ fault, load t workingDir dir env = .error (.settings fault)) ∧
      ∀ own, Written t workingDir (dir.child ".xdmd.toml") own → ¬Valid (lastSpelled own) →
        (∃ fault, load t workingDir dir env = .error (.settings fault)) ∨
          ∃ e, Unreadable t workingDir (dir.child "pyproject.toml") e :=
  ⟨fun _ => load_eq_ok, fun _ => rewritten_eq_ok, fun _ _ => given_extraEnvironment,
    fun _ hproject hinvalid => load_invalid_section hproject hinvalid env,
    fun _ hown hinvalid => load_invalid_own hown hinvalid env⟩

/-- A flag that is spelled twice, the first time with a word that is no truth value. -/
def spelledText : String :=
  "use-color = \"maybe\"\nuse_color = false\n"

def spelledTree : FileTree where
  entries := [([".xdmd.toml"], .file false (Utf8.encode spelledText))]

def textAndFlag? : Except Toml.Fault Table → Option (String × String × String × Bool)
  | .ok [(first, .string text), (second, .boolean b)] => some (first, text, second, b)
  | _ => none

theorem eq_of_textAndFlag? {document : Except Toml.Fault Table} {first text second : String}
    {b : Bool} (h : textAndFlag? document = some (first, text, second, b)) :
    document = .ok [(first, .string text), (second, .boolean b)] := by
  unfold textAndFlag? at h
  split at h
  · cases h
    rfl
  · cases h

theorem read_spelledText : Toml.read spelledText.toList =
    .ok [("use-color", .string "maybe"), ("use_color", .boolean false)] :=
  eq_of_textAndFlag? (by decide +kernel)

theorem load_spelled_over :
    Written spelledTree [] ((Path.ofString ".").child ".xdmd.toml")
        [("use-color", .string "maybe"), ("use_color", .boolean false)] ∧
      Field.useColor.read (.string "maybe") =
        .error [⟨[.key "use_color"], .unreadableFlag⟩] ∧
      load spelledTree [] (Path.ofString ".") [] = .ok { useColor := false } := by
  have hbytes : spelledTree =
      { entries := [([".xdmd.toml"], .file false (spelledText.toList.flatMap String.utf8EncodeChar))] } := by
    rw [spelledTree, Utf8.encode_eq]
  have hfile : spelledTree.isFile [] ((Path.ofString ".").child ".xdmd.toml") = .ok true := by
    rw [hbytes]
    decide +kernel
  have hread : spelledTree.read [] ((Path.ofString ".").child ".xdmd.toml") =
      .ok (Utf8.encode spelledText) := by
    rw [hbytes, Utf8.encode_eq]
    decide +kernel
  have hload : load spelledTree [] (Path.ofString ".") [] = .ok { useColor := false } := by
    rw [hbytes]
    decide +kernel
  exact ⟨.document hfile hread read_spelledText, by decide +kernel, hload⟩

end Settings
end TriplePass

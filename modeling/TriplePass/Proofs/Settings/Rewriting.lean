import TriplePass.Proofs.Settings.Flags
import TriplePass.Proofs.Toml.Tidy

/-! # Layers put on top of what is written out

The table of every layer holds each name once, and so do the tables in it: a document does, a
section is one of the tables of a document, and no flag sets a field that another one sets. So a
layer that is taken over field by field is one that is put on top of the settings as they are
written out, with all of it read from scratch.
-/
namespace TriplePass

namespace Value
variable {v : Value} {entries : Table} {name : String}

theorem Tidy.regular (h : v.Tidy) : v.Regular := by
  cases v with
  | table entries => exact (tidy_table_iff.1 h).1
  | _ => trivial

theorem Tidy.of_get? (h : Tidy (.table entries)) (hv : Dictionary.get? entries name = some v) :
    v.Tidy := by
  obtain ⟨hdistinct, hvalues⟩ := tidy_table_iff.1 h
  exact hvalues _ (hdistinct.mem_iff.2 hv)

theorem Tidy.table_regular (h : Tidy (.table entries)) : entries.Regular :=
  ⟨(tidy_table_iff.1 h).1, fun _ _ hv => (h.of_get? hv).regular⟩

end Value

namespace Layer
open Value Result
variable {t : FileTree} {workingDir : Place} {path : Path} {layer : Layer} {data : Table}

theorem Written.tidy (h : Written t workingDir path data) : Tidy (.table data) := by
  cases h with
  | absent => exact tidy_nil
  | document _ _ hdata => exact Toml.tidy_read hdata

theorem tidy_lastSpelled (h : Tidy (.table data)) {name : String} {v : Value}
    (hv : lastSpelled data name = some v) : v.Tidy := by
  obtain ⟨e, he, rfl⟩ := Option.map_eq_some_iff.1 hv
  exact (tidy_table_iff.1 h).2 e (List.mem_reverse.1 (List.mem_of_find?_eq_some he))

theorem tidy_normalised (h : Tidy (.table data)) : Tidy (.table (normalised data)) := by
  have hdistinct : Dictionary.Distinct (normalised data) := Dictionary.distinct_rename _ _
  refine tidy_table_iff.2 ⟨hdistinct, fun e he => ?_⟩
  have hget := hdistinct.mem_iff.1 he
  rw [get?_normalised] at hget
  exact tidy_lastSpelled h hget

theorem tidy_entriesOf {v? : Option Value} (h : ∀ v, v? = some v → v.Tidy) {entries : Table}
    (hentries : entriesOf v? = some entries) : Tidy (.table entries) := by
  unfold entriesOf at hentries
  split at hentries
  · cases hentries
    exact h _ rfl
  · cases hentries

theorem tidy_sectionOf (h : Tidy (.table data)) : Tidy (.table (sectionOf data)) := by
  unfold sectionOf
  cases hsection : (entriesOf (lastSpelled data "tool")).bind fun tool =>
    entriesOf (Dictionary.get? tool "xdmd") with
  | none => exact tidy_nil
  | some entries =>
    obtain ⟨tool, htool, hentries⟩ := Option.bind_eq_some_iff.1 hsection
    have htidy : Tidy (.table tool) := tidy_entriesOf (fun _ => tidy_lastSpelled h) htool
    exact tidy_entriesOf (fun _ => htidy.of_get?) hentries

theorem regular_load (h : layer.load t workingDir = .ok data) : data.Regular := by
  cases layer with
  | document path label =>
    obtain ⟨raw, hraw, rfl⟩ := readDocument_eq_ok.1 h
    exact (tidy_normalised hraw.tidy).table_regular
  | project path label =>
    obtain ⟨document, hdocument, rfl⟩ := map_eq_ok.1 h
    obtain ⟨raw, hraw, rfl⟩ := readDocument_eq_ok.1 hdocument
    rw [projectSection_normalised]
    exact (tidy_normalised (tidy_sectionOf hraw.tidy)).table_regular
  | flags env =>
    obtain ⟨-, rfl⟩ := readFlags_eq_ok.1 (load_flags.1 h)
    exact regular_flags env

end Layer

namespace Settings
open Layer Result
variable {t : FileTree} {workingDir : Place} {s c : Settings} {layer : Layer}

/-- The settings written out, with a layer on top, read from scratch. -/
def rewriteLayer (t : FileTree) (workingDir : Place) (s : Settings) (layer : Layer) :
    Except LoadError Settings := do
  let data ← layer.load t workingDir
  (({} : Settings).updateFrom layer.describe (Dictionary.overlay s.dump data)).mapError .settings

def rewritten (t : FileTree) (workingDir : Place) (dir : Path) (env : Environment) :
    Except LoadError Settings :=
  (layers dir env).foldlM (rewriteLayer t workingDir) {}

theorem rewriteLayer_eq_ok (hs : s.WellTyped) :
    rewriteLayer t workingDir s layer = .ok c ↔ addLayer t workingDir s layer = .ok c := by
  rw [rewriteLayer, bind_eq_ok, addLayer_eq_ok]
  refine exists_congr fun data => and_congr_right fun hload => ?_
  rw [mapError_eq_ok, updateFrom_eq_ok, hs.update_dump (regular_load hload).distinct]

theorem WellTyped.addLayer (hs : s.WellTyped) (h : addLayer t workingDir s layer = .ok c) :
    c.WellTyped := by
  obtain ⟨data, hload, hupdate⟩ := addLayer_eq_ok.1 h
  have hregular := regular_load hload
  exact hs.given hregular ((update_eq_ok hregular.distinct).1 hupdate).2

theorem foldlM_rewriteLayer (hs : s.WellTyped) (layers : List Layer) :
    layers.foldlM (rewriteLayer t workingDir) s = .ok c ↔
      layers.foldlM (Settings.addLayer t workingDir) s = .ok c := by
  induction layers generalizing s with
  | nil => rfl
  | cons layer rest ih =>
    rw [List.foldlM_cons, List.foldlM_cons, bind_eq_ok, bind_eq_ok]
    refine exists_congr fun next => ?_
    rw [rewriteLayer_eq_ok hs]
    exact and_congr_right fun hnext => ih (hs.addLayer hnext)

theorem rewritten_eq_ok {dir : Path} {env : Environment} :
    rewritten t workingDir dir env = .ok c ↔ load t workingDir dir env = .ok c :=
  foldlM_rewriteLayer wellTyped_default (layers dir env)

end Settings
end TriplePass

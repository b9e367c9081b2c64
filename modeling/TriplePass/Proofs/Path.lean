import TriplePass.Path
import TriplePass.Proofs.Text.Fields

/-! # The names of a written path

What a path was written with is not kept, but its names and its text are never empty.
-/
namespace TriplePass.Path

theorem fields_slash (s : String) :
    Text.fields "/" s = (Text.fieldsFrom ['/'] 0 s.toList).map String.ofList :=
  rfl

/-- The names on the way are without slashes, and neither empty nor a point. -/
theorem mem_names {s f : String} (hf : f ∈ (ofString s).names) :
    isName f = true ∧ '/' ∉ f.toList := by
  obtain ⟨hfield, hname⟩ := List.mem_filter.1 hf
  rw [fields_slash] at hfield
  obtain ⟨l, hl, rfl⟩ := List.mem_map.1 hfield
  refine ⟨hname, ?_⟩
  rw [String.toList_ofList]
  exact Text.not_mem_field hl

theorem names_of_name {f : String} (hslash : '/' ∉ f.toList) (hname : isName f = true) :
    (ofString f).names = [f] := by
  rw [ofString, fields_slash, Text.fieldsFrom_of_not_mem hslash, List.map_singleton,
    String.ofList_toList, List.filter_cons_of_pos hname, List.filter_nil]

/-- The last name of a path names itself. -/
theorem name_ofString_name (s : String) : (ofString (ofString s).name).name = (ofString s).name := by
  cases hlast : (ofString s).names.getLast? with
  | none =>
    have hempty : (ofString s).name = "" := by rw [name, hlast, Option.getD_none]
    rw [hempty]
    decide
  | some f =>
    have hf : (ofString s).name = f := by rw [name, hlast, Option.getD_some]
    obtain ⟨hname, hslash⟩ := mem_names (List.mem_of_getLast? hlast)
    rw [hf, name, names_of_name hslash hname, List.getLast?_singleton, Option.getD_some]

/-- What comes behind a slash, if it is a name, is the last of the path. -/
theorem name_append {dir f : String} (front : List Char) (hslash : '/' ∉ f.toList)
    (hname : isName f = true) (hdir : dir.toList = front ++ '/' :: f.toList) :
    (ofString dir).name = f := by
  have hfields : Text.fields "/" dir =
      (Text.fieldsFrom ['/'] 0 front).map String.ofList ++ [f] := by
    rw [fields_slash, hdir, Text.fieldsFrom_append, Text.fieldsFrom_of_not_mem hslash,
      List.map_append, List.map_singleton, String.ofList_toList]
  have hnames : (ofString dir).names =
      ((Text.fieldsFrom ['/'] 0 front).map String.ofList).filter isName ++ [f] := by
    rw [ofString, hfields, List.filter_append, List.filter_cons_of_pos hname, List.filter_nil]
  rw [name, hnames, List.getLast?_concat, Option.getD_some]

theorem intercalate_ne_empty {separator f : String} (hf : f ≠ "") (rest : List String) :
    separator.intercalate (f :: rest) ≠ "" := by
  cases rest with
  | nil => simpa using hf
  | cons g rest =>
    rw [String.intercalate_cons_cons]
    intro h
    exact hf (String.append_eq_empty_iff.1 (String.append_eq_empty_iff.1 h).1).1

theorem toString_ofString_ne_empty (s : String) : (ofString s).toString ≠ "" := by
  unfold toString
  by_cases h : (ofString s).anchor = .relative ∧ (ofString s).names = []
  · rw [if_pos h]
    decide
  · rw [if_neg h]
    intro hempty
    obtain ⟨hanchor, hnames⟩ := String.append_eq_empty_iff.1 hempty
    have hrelative : (ofString s).anchor = .relative := by
      cases ha : (ofString s).anchor with
      | relative => rfl
      | root | doubleRoot =>
        rw [ha] at hanchor
        exact absurd hanchor (by decide)
    cases hn : (ofString s).names with
    | nil => exact h ⟨hrelative, hn⟩
    | cons f rest =>
      obtain ⟨hname, _⟩ := mem_names (hn ▸ List.mem_cons_self)
      have hf : f ≠ "" := by
        rintro rfl
        exact absurd hname (by decide)
      rw [hn] at hnames
      exact intercalate_ne_empty hf rest hnames

end TriplePass.Path

import TriplePass.Text.Search

/-! # Fields between single characters -/
namespace TriplePass.Text
variable {c : Char}

theorem fieldsFrom_cons_separator (c : Char) (s : List Char) :
    fieldsFrom [c] 0 (c :: s) = [] :: fieldsFrom [c] 0 s := by
  simp [fieldsFrom]

theorem fieldsFrom_cons {a : Char} (h : a ≠ c) (s : List Char) :
    fieldsFrom [c] 0 (a :: s) = extendFirst a (fieldsFrom [c] 0 s) := by
  simp [fieldsFrom, Ne.symm h]

theorem extendFirst_ne_nil (a : Char) (fs : List (List Char)) : extendFirst a fs ≠ [] := by
  cases fs <;> simp [extendFirst]

theorem fieldsFrom_ne_nil (c : Char) (s : List Char) : fieldsFrom [c] 0 s ≠ [] := by
  cases s with
  | nil => simp [fieldsFrom]
  | cons a s =>
    by_cases h : a = c
    · rw [h, fieldsFrom_cons_separator]
      simp
    · rw [fieldsFrom_cons h]
      exact extendFirst_ne_nil a _

theorem extendFirst_append (a : Char) {fs : List (List Char)} (hne : fs ≠ [])
    (gs : List (List Char)) : extendFirst a (fs ++ gs) = extendFirst a fs ++ gs := by
  cases fs with
  | nil => exact absurd rfl hne
  | cons f fs => rfl

theorem fieldsFrom_append (c : Char) (l m : List Char) :
    fieldsFrom [c] 0 (l ++ c :: m) = fieldsFrom [c] 0 l ++ fieldsFrom [c] 0 m := by
  induction l with
  | nil => simp [fieldsFrom]
  | cons a l ih =>
    by_cases h : a = c
    · rw [h, List.cons_append, fieldsFrom_cons_separator, fieldsFrom_cons_separator, ih,
        List.cons_append]
    · rw [List.cons_append, fieldsFrom_cons h, fieldsFrom_cons h, ih,
        extendFirst_append a (fieldsFrom_ne_nil c l)]

/-- A text without the separator is one field. -/
theorem fieldsFrom_of_not_mem {s : List Char} (hs : c ∉ s) : fieldsFrom [c] 0 s = [s] := by
  induction s with
  | nil => rfl
  | cons a s ih =>
    have ha : a ≠ c := fun h => hs (h ▸ List.mem_cons_self)
    have hrest : c ∉ s := fun h => hs (List.mem_cons_of_mem a h)
    rw [fieldsFrom_cons ha, ih hrest, extendFirst]

/-- No field has the separator in it. -/
theorem not_mem_field {s f : List Char} (hf : f ∈ fieldsFrom [c] 0 s) : c ∉ f := by
  induction s generalizing f with
  | nil =>
    rw [fieldsFrom, List.mem_singleton] at hf
    simp [hf]
  | cons a s ih =>
    by_cases h : a = c
    · rw [h, fieldsFrom_cons_separator, List.mem_cons] at hf
      rcases hf with rfl | hf
      · exact List.not_mem_nil
      · exact ih hf
    · rw [fieldsFrom_cons h] at hf
      cases hfs : fieldsFrom [c] 0 s with
      | nil => exact absurd hfs (fieldsFrom_ne_nil c s)
      | cons g gs =>
        rw [hfs, extendFirst, List.mem_cons] at hf
        rcases hf with rfl | hf
        · have hg : c ∉ g := ih (hfs ▸ List.mem_cons_self)
          rintro (_ | ⟨_, hmem⟩)
          · exact h rfl
          · exact hg hmem
        · exact ih (hfs ▸ List.mem_cons_of_mem g hf)

/-! ### Joining fields again -/

theorem fieldsFrom_eq_splitOn (c : Char) (s : List Char) : fieldsFrom [c] 0 s = s.splitOn c := by
  induction s with
  | nil => rfl
  | cons a s ih =>
    have hsplit := List.splitOnP_cons_eq_if_modifyHead (p := (· == c)) a s
    have hne := fieldsFrom_ne_nil c s
    rw [List.splitOn, hsplit, ← List.splitOn, ← ih]
    by_cases h : a = c
    · rw [h, fieldsFrom_cons_separator, if_pos (beq_self_eq_true c)]
    · rw [fieldsFrom_cons h, if_neg (by simpa using h)]
      cases hfs : fieldsFrom [c] 0 s with
      | nil => exact absurd hfs hne
      | cons f fs => rfl

theorem intercalate_fieldsFrom (c : Char) (s : List Char) :
    [c].intercalate (fieldsFrom [c] 0 s) = s := by
  rw [fieldsFrom_eq_splitOn]
  exact List.intercalate_splitOn c

theorem fieldsFrom_intercalate {fs : List (List Char)} (hne : fs ≠ []) (h : ∀ f ∈ fs, c ∉ f) :
    fieldsFrom [c] 0 ([c].intercalate fs) = fs := by
  rw [fieldsFrom_eq_splitOn]
  exact List.splitOn_intercalate c h hne

theorem fields_intercalate {separator : String} (hs : separator.toList = [c]) {fs : List String}
    (hne : fs ≠ []) (h : ∀ f ∈ fs, c ∉ f.toList) :
    fields separator (separator.intercalate fs) = fs := by
  have hchars : ∀ f ∈ fs.map String.toList, c ∉ f := by
    intro f hf
    obtain ⟨g, hg, rfl⟩ := List.mem_map.1 hf
    exact h g hg
  rw [fields, String.toList_intercalate, hs,
    fieldsFrom_intercalate (by simpa using hne) hchars, List.map_map]
  simp

/-- A joined text falls into the fields of its parts. -/
theorem fieldsFrom_flatMap {ls : List (List Char)} (hne : ls ≠ []) :
    fieldsFrom [c] 0 ([c].intercalate ls) = ls.flatMap (fieldsFrom [c] 0) := by
  induction ls with
  | nil => exact absurd rfl hne
  | cons l rest ih =>
    cases rest with
    | nil => simp
    | cons m rest =>
      rw [List.intercalate_cons_cons, List.append_assoc, List.singleton_append, fieldsFrom_append,
        ih (List.cons_ne_nil m rest)]
      exact List.flatMap_cons.symm

theorem fields_flatMap {separator : String} (hs : separator.toList = [c]) {texts : List String}
    (hne : texts ≠ []) :
    fields separator (separator.intercalate texts) = texts.flatMap (fields separator) := by
  have hchars : texts.map String.toList ≠ [] := by simpa using hne
  have hfields : fields separator = fun s => (fieldsFrom [c] 0 s.toList).map String.ofList :=
    funext fun s => by rw [fields, hs]
  rw [hfields]
  dsimp only
  rw [String.toList_intercalate, hs, fieldsFrom_flatMap hchars, List.flatMap_map, List.map_flatMap]

/-- With fewer pieces a joined text only loses characters. -/
theorem intercalate_sublist {α : Type} (separator : List α) {l m : List (List α)}
    (h : l.Sublist m) : (separator.intercalate l).Sublist (separator.intercalate m) := by
  induction h with
  | slnil => exact List.Sublist.refl _
  | @cons l m f h ih =>
    cases m with
    | nil =>
      rw [List.sublist_nil.1 h]
      exact List.nil_sublist _
    | cons g rest =>
      rw [List.intercalate_cons_cons]
      exact ih.trans (List.sublist_append_right _ _)
  | @cons_cons l m f h ih =>
    cases l with
    | nil =>
      cases m with
      | nil => exact List.Sublist.refl _
      | cons g rest =>
        rw [List.intercalate_singleton, List.intercalate_cons_cons, List.append_assoc]
        exact List.sublist_append_left _ _
    | cons g rest =>
      cases m with
      | nil => cases h
      | cons g' rest' =>
        rw [List.intercalate_cons_cons, List.intercalate_cons_cons]
        exact (List.Sublist.refl _).append ih

end TriplePass.Text

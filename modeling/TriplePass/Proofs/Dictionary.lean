import TriplePass.Dictionary

/-! # Overlaid dictionaries

A dictionary names each of its entries once, and setting an entry keeps it so. An overlay answers
as the upper dictionary does where that has an entry, and as the lower one does elsewhere.
-/
namespace TriplePass.Dictionary
variable {β : Type} {d upper : Dictionary β} {name q : String} {value : β}

def names (d : Dictionary β) : List String :=
  d.map Prod.fst

def Distinct (d : Dictionary β) : Prop :=
  d.names.Nodup

instance : Decidable d.Distinct :=
  inferInstanceAs (Decidable d.names.Nodup)

theorem get?_cons (e : String × β) (d : Dictionary β) (q : String) :
    get? (e :: d) q = if q = e.1 then some e.2 else d.get? q := by
  obtain ⟨n, v⟩ := e
  unfold get?
  by_cases h : q = n
  · simp [h]
  · simp [List.lookup_cons, h, show (q == n) = false by simp [h]]

theorem get?_append (d upper : Dictionary β) (q : String) :
    get? (d ++ upper) q = (d.get? q).or (upper.get? q) := by
  induction d with
  | nil => rfl
  | cons e rest ih =>
    rw [List.cons_append, get?_cons, get?_cons, ih]
    split <;> rfl

theorem get?_of_not_mem (h : q ∉ d.names) : d.get? q = none := by
  induction d with
  | nil => rfl
  | cons e rest ih =>
    simp only [names, List.map_cons, List.mem_cons, not_or] at h
    rw [get?_cons, if_neg h.1, ih h.2]

theorem mem_names_set : q ∈ (d.set name value).names ↔ q = name ∨ q ∈ d.names := by
  induction d with
  | nil => simp [set, names]
  | cons e rest ih =>
    obtain ⟨n, v⟩ := e
    by_cases hn : n = name
    · simp [set, names, hn]
    · simp only [set, if_neg hn, names, List.map_cons, List.mem_cons] at ih ⊢
      rw [ih]
      exact or_left_comm

theorem Distinct.set (h : d.Distinct) (name : String) (value : β) :
    (d.set name value).Distinct := by
  induction d with
  | nil => simp [Dictionary.set, Distinct, names]
  | cons e rest ih =>
    obtain ⟨n, v⟩ := e
    obtain ⟨hfresh, hrest⟩ := List.nodup_cons.1 h
    by_cases hn : n = name
    · rw [Dictionary.set, if_pos hn]
      exact List.nodup_cons.2 ⟨hn ▸ hfresh, hrest⟩
    · rw [Dictionary.set, if_neg hn]
      refine List.nodup_cons.2 ⟨fun hmem => ?_, ih hrest⟩
      rcases mem_names_set.1 hmem with heq | hmem
      · exact hn heq
      · exact hfresh hmem

theorem Distinct.overlay (h : d.Distinct) (upper : Dictionary β) : (overlay d upper).Distinct := by
  induction upper generalizing d with
  | nil => exact h
  | cons e rest ih => exact ih (h.set e.1 e.2)

theorem distinct_rename (change : String → String) (d : Dictionary β) :
    (rename change d).Distinct := by
  have hempty : Distinct ([] : Dictionary β) := List.nodup_nil
  exact hempty.overlay _

theorem Distinct.mem_iff (h : d.Distinct) : (q, value) ∈ d ↔ d.get? q = some value := by
  induction d with
  | nil => simp [get?]
  | cons e rest ih =>
    obtain ⟨hfresh, hrest⟩ := List.nodup_cons.1 h
    rw [List.mem_cons, get?_cons, ih hrest]
    by_cases hq : q = e.1
    · -- the name does not come again
      rw [if_pos hq, get?_of_not_mem (hq ▸ hfresh)]
      simp [Prod.ext_iff, hq, eq_comm]
    · simp [Prod.ext_iff, hq]

/-- Of the entries that are set one after the other, the last one of a name counts. -/
theorem get?_overlay_last (d upper : Dictionary β) (q : String) :
    (overlay d upper).get? q = (get? upper.reverse q).or (d.get? q) := by
  induction upper generalizing d with
  | nil => rfl
  | cons e rest ih =>
    rw [overlay_cons, ih, get?_set, List.reverse_cons, get?_append, get?_cons, Option.or_assoc]
    split <;> rfl

theorem get?_rename (change : String → String) (d : Dictionary β) (q : String) :
    (rename change d).get? q = (d.reverse.find? (change ·.1 = q)).map Prod.snd := by
  rw [rename, get?_overlay_last, ← List.map_reverse]
  induction d.reverse with
  | nil => rfl
  | cons e rest ih =>
    rw [List.map_cons, get?_cons]
    by_cases hq : change e.1 = q
    · simp [hq]
    · simpa [hq, Ne.symm hq] using ih

theorem get?_overlay (h : upper.Distinct) (d : Dictionary β) (q : String) :
    (overlay d upper).get? q = (upper.get? q).or (d.get? q) := by
  induction upper generalizing d with
  | nil => rfl
  | cons e rest ih =>
    obtain ⟨hfresh, hrest⟩ := List.nodup_cons.1 h
    rw [overlay_cons, ih hrest, get?_set, get?_cons]
    by_cases hq : q = e.1
    · -- the first entry is not set over again by a later one
      rw [if_pos hq, if_pos hq, get?_of_not_mem (hq ▸ hfresh)]
      rfl
    · rw [if_neg hq, if_neg hq]

end TriplePass.Dictionary

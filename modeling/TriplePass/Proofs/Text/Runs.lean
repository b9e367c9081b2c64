import Mathlib.Data.List.TakeWhile

/-! # Runs of characters

A text starts with a run of characters of a class, which goes as far as the first other one.
-/
namespace TriplePass.Text
variable {p : Char → Bool} {s l m run : List Char} {c : Char}

theorem takeWhile_all (h : ∀ a ∈ l, p a = true) (hc : p c = false) (m : List Char) :
    (l ++ c :: m).takeWhile p = l := by
  rw [List.takeWhile_append_of_pos h, List.takeWhile_cons_of_neg (Bool.eq_false_iff.1 hc),
    List.append_nil]

theorem dropWhile_all (h : ∀ a ∈ l, p a = true) (hc : p c = false) (m : List Char) :
    (l ++ c :: m).dropWhile p = c :: m := by
  rw [List.dropWhile_append_of_pos h, List.dropWhile_cons_of_neg (Bool.eq_false_iff.1 hc)]

/-- A text without a first run of characters is what starts behind them with another. -/
theorem dropWhile_eq_iff :
    s.dropWhile p = m ↔ (∀ c ∈ m.head?, p c = false) ∧ ∃ run, (∀ c ∈ run, p c = true) ∧
      s = run ++ m := by
  constructor
  · rintro rfl
    refine ⟨?_, s.takeWhile p, fun c hc => List.mem_takeWhile_imp hc,
      List.takeWhile_append_dropWhile.symm⟩
    intro c hc
    have hhead := List.head?_dropWhile_not p s
    rw [Option.mem_def.1 hc] at hhead
    simpa using hhead
  · rintro ⟨hhead, run, hrun, rfl⟩
    cases m with
    | nil => rw [List.append_nil, List.dropWhile_eq_nil_iff.2 hrun]
    | cons c m => exact dropWhile_all hrun (hhead c rfl) m

/-- A text is the run that it starts with, and what is behind it. -/
theorem exists_run (p : Char → Bool) (s : List Char) :
    ∃ run rest, s = run ++ rest ∧ s.takeWhile p = run ∧ (∀ c ∈ run, p c = true) ∧
      ∀ c ∈ rest.head?, p c = false := by
  refine ⟨s.takeWhile p, s.dropWhile p, List.takeWhile_append_dropWhile.symm, rfl, ?_, ?_⟩
  · intro c hc
    exact List.mem_takeWhile_imp hc
  · exact (dropWhile_eq_iff.1 rfl).1

theorem takeWhile_run (hrun : ∀ c ∈ run, p c = true) (hhead : ∀ c ∈ m.head?, p c = false) :
    (run ++ m).takeWhile p = run := by
  cases m with
  | nil => rw [List.append_nil, List.takeWhile_eq_self_iff.2 hrun]
  | cons c m => exact takeWhile_all hrun (hhead c rfl) m

end TriplePass.Text

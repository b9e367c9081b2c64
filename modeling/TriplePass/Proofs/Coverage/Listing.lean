import TriplePass.Coverage.Listing
import TriplePass.Proofs.Text.Lines
import TriplePass.Proofs.Text.Utf8

/-! # A listing is read row by row

Whatever bytes a row holds, it is judged on its own: neither a damaged row nor the line feed at
its end changes what is read of another.
-/
namespace TriplePass.Coverage

/-- The numbers, counted from `n`, of the rows that pass a test. -/
def numbersFrom {α : Type} (n : Nat) (p : α → Bool) (rows : List α) : List Nat :=
  ((rows.zipIdx n).filter fun row => p row.1).map (·.2)

section Numbers
variable {α β : Type}

@[simp] theorem numbersFrom_nil (n : Nat) (p : α → Bool) : numbersFrom n p [] = [] :=
  rfl

theorem numbersFrom_cons (n : Nat) (p : α → Bool) (row : α) (rows : List α) :
    numbersFrom n p (row :: rows) =
      if p row then n :: numbersFrom (n + 1) p rows else numbersFrom (n + 1) p rows := by
  unfold numbersFrom
  cases h : p row <;> simp [List.zipIdx_cons, h]

theorem numbersFrom_map (n : Nat) (p : β → Bool) (f : α → β) (rows : List α) :
    numbersFrom n p (rows.map f) = numbersFrom n (fun row => p (f row)) rows := by
  induction rows generalizing n with
  | nil => rfl
  | cons row rows ih => simp [numbersFrom_cons, ih]

theorem numbersFrom_congr {p q : α → Bool} {rows : List α} (h : ∀ row ∈ rows, p row = q row)
    (n : Nat) : numbersFrom n p rows = numbersFrom n q rows := by
  induction rows generalizing n with
  | nil => rfl
  | cons row rows ih =>
    have hrow := h row (by simp)
    have hrest := ih fun r hr => h r (List.mem_cons_of_mem row hr)
    simp [numbersFrom_cons, hrow, hrest]

theorem numbersFrom_append (n : Nat) (p : α → Bool) (front back : List α) :
    numbersFrom n p (front ++ back) =
      numbersFrom n p front ++ numbersFrom (n + front.length) p back := by
  simp [numbersFrom, List.zipIdx_append]

theorem mem_numbersFrom {n k : Nat} {p : α → Bool} {rows : List α} :
    k ∈ numbersFrom n p rows ↔ ∃ i row, k = n + i ∧ rows[i]? = some row ∧ p row = true := by
  simp only [numbersFrom, List.mem_map, List.mem_filter, Prod.exists, exists_eq_right,
    List.mk_mem_zipIdx_iff_le_and_getElem?_sub]
  constructor
  · rintro ⟨row, ⟨hle, hrow⟩, hp⟩
    exact ⟨k - n, row, (Nat.add_sub_of_le hle).symm, hrow, hp⟩
  · rintro ⟨i, row, rfl, hrow, hp⟩
    exact ⟨row, ⟨Nat.le_add_right n i, by rwa [Nat.add_sub_cancel_left]⟩, hp⟩

theorem le_of_mem_numbersFrom {n k : Nat} {p : α → Bool} {rows : List α}
    (h : k ∈ numbersFrom n p rows) : n ≤ k := by
  obtain ⟨i, _, rfl, -⟩ := mem_numbersFrom.1 h
  exact Nat.le_add_right n i

/-- Two tests, one stricter than the other, number the same rows only if they agree on each. -/
theorem numbersFrom_eq_iff {p q : α → Bool} {rows : List α}
    (hstrict : ∀ row ∈ rows, q row = true → p row = true) (n : Nat) :
    numbersFrom n p rows = numbersFrom n q rows ↔ ∀ row ∈ rows, p row = true → q row = true := by
  induction rows generalizing n with
  | nil => simp
  | cons row rows ih =>
    have hrest := ih (fun r hr => hstrict r (List.mem_cons_of_mem row hr)) (n + 1)
    rw [numbersFrom_cons, numbersFrom_cons, List.forall_mem_cons, ← hrest]
    cases hp : p row with
    | false =>
      have hq : q row = false := by
        cases hq : q row with
        | false => rfl
        | true => exact absurd (hstrict row (by simp) hq) (by simp [hp])
      simp [hq]
    | true =>
      cases hq : q row with
      | true => simp
      | false =>
        -- the number of this row is missing on the right
        have hmissing : n ∉ numbersFrom (n + 1) q rows := by
          intro h
          have := le_of_mem_numbersFrom h
          omega
        constructor
        · intro h
          rw [if_pos rfl, if_neg Bool.false_ne_true] at h
          exact absurd (h ▸ List.mem_cons_self) hmissing
        · rintro ⟨h, _⟩
          exact absurd (h rfl) Bool.false_ne_true

end Numbers

theorem zeroLinesFrom_eq (n : Nat) (lines : List (List Char)) :
    zeroLinesFrom n lines = numbersFrom n isZeroLine lines := by
  induction lines generalizing n with
  | nil => rfl
  | cons line lines ih => rw [zeroLinesFrom, numbersFrom_cons, ih]

theorem isZeroLine_iff {line : List Char} :
    isZeroLine line = true ↔ ∃ offset < 3, sentinel <+: line.drop offset := by
  simp only [isZeroLine, isZeroLineAt, sentinelOffsets, List.any_cons, List.any_nil, fromOffset,
    Bool.or_false, Bool.or_eq_true, List.isPrefixOf_iff_prefix]
  constructor
  · rintro (h | h | h)
    · exact ⟨0, by omega, h⟩
    · exact ⟨1, by omega, h⟩
    · exact ⟨2, by omega, h⟩
  · rintro ⟨offset, hlt, h⟩
    match offset with
    | 0 => exact Or.inl h
    | 1 => exact Or.inr (Or.inl h)
    | 2 => exact Or.inr (Or.inr h)

theorem isZeroLine_newline (line : List Char) :
    isZeroLine (line ++ ['\n']) = isZeroLine line := by
  rw [Bool.eq_iff_iff, isZeroLine_iff, isZeroLine_iff]
  have hdrop (offset : Nat) :
      sentinel <+: (line ++ ['\n']).drop offset ↔ sentinel <+: line.drop offset := by
    rw [List.drop_append]
    cases offset - line.length with
    | zero =>
      rw [List.drop_zero, List.prefix_concat_iff]
      constructor
      · rintro (h | h)
        · have hmem : '\n' ∈ sentinel := by
            rw [h]
            simp
          exact absurd hmem (by decide)
        · exact h
      · exact Or.inr
    | succ k => simp
  simp [hdrop]

/-! ### Rows of bytes -/

theorem decode_rows (rows : List Bytes) :
    Utf8.decode (rows.flatMap (· ++ [10])) = (rows.map Utf8.decode).flatMap (· ++ ['\n']) := by
  induction rows with
  | nil => rfl
  | cons row rows ih =>
    have hcut := Utf8.decode_append_ascii (b := 10) (by decide) row (rows.flatMap (· ++ [10]))
    rw [List.flatMap_cons, List.append_assoc, List.singleton_append, hcut, ih]
    simp

theorem newline_not_mem_decode {row : Bytes} (h : 10 ∉ row) : '\n' ∉ Utf8.decode row :=
  fun hmem => h (Utf8.mem_decode hmem (by decide) (by decide))

theorem return_not_mem_decode {row : Bytes} (h : 13 ∉ row) : '\r' ∉ Utf8.decode row :=
  fun hmem => h (Utf8.mem_decode hmem (by decide) (by decide))

theorem uncovered_rows {rows : List Bytes} (hrows : ∀ row ∈ rows, 10 ∉ row ∧ 13 ∉ row) :
    uncovered (rows.flatMap (· ++ [10])) =
      numbersFrom 1 (fun row => isZeroLine (Utf8.decode row)) rows := by
  have hnewline : ∀ line ∈ rows.map Utf8.decode, '\n' ∉ line := by
    intro line hline
    obtain ⟨row, hrow, rfl⟩ := List.mem_map.1 hline
    exact newline_not_mem_decode (hrows row hrow).1
  have hreturn : '\r' ∉ (rows.map Utf8.decode).flatMap (· ++ ['\n']) := by
    intro hmem
    obtain ⟨line, hline, hmem⟩ := List.mem_flatMap.1 hmem
    obtain ⟨row, hrow, rfl⟩ := List.mem_map.1 hline
    rcases List.mem_append.1 hmem with h | h
    · exact return_not_mem_decode (hrows row hrow).2 h
    · exact absurd h (by decide)
  rw [uncovered, Text.ofContent, decode_rows, Text.foldNewlines_eq hreturn,
    Text.lines_rows hnewline, zeroLinesFrom_eq, numbersFrom_map, numbersFrom_map]
  exact numbersFrom_congr (fun row _ => isZeroLine_newline (Utf8.decode row)) 1

end TriplePass.Coverage

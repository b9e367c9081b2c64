import TriplePass.Proofs.Coverage.Grouping

/-! # Damage stays in its row

A listing is decoded as a whole before it is cut into lines, but a line feed ends whatever character
is open in front of it. So each row is judged by its own bytes, whether the last one is closed or
not: what is damaged in one row, even cut off in the middle of a character, changes neither the
number nor the judgement of another.
-/
namespace TriplePass.Coverage
variable {rows : List Bytes} {content : Bytes} {t : FileTree} {workingDir : Place} {listing : Path}

/-! ### The last line feed -/

/-- A line feed at the end of a text closes its last line, or is a line of its own. -/
theorem exists_lines_concat (s : List Char) :
    ∃ closed last, Text.lines (s ++ ['\n']) = closed ++ [last ++ ['\n']] ∧
      Text.lines s = closed ++ if last = [] then [] else [last] := by
  refine ⟨(s.foldl Text.Cutting.feed {}).lines.reverse,
    (s.foldl Text.Cutting.feed {}).line.reverse, ?_, ?_⟩
  · simp [Text.lines, List.foldl_append, Text.Cutting.feed, Text.Cutting.close, Text.Cutting.finish]
  · rw [Text.lines, Text.Cutting.finish]
    split
    next h => simp [List.isEmpty_iff.1 h]
    next h => simp [List.isEmpty_iff.not.1 h, Text.Cutting.close]

/-- It does not matter whether the last row is closed. -/
theorem uncovered_concat (h : 13 ∉ content) : uncovered (content ++ [10]) = uncovered content := by
  have hdecode : Utf8.decode (content ++ [10]) = Utf8.decode content ++ ['\n'] :=
    Utf8.decode_append_ascii (by decide) content []
  have hreturn : '\r' ∉ Utf8.decode content := return_not_mem_decode h
  have hreturn' : '\r' ∉ Utf8.decode content ++ ['\n'] := by simpa using hreturn
  obtain ⟨closed, last, hclosed, hopen⟩ := exists_lines_concat (Utf8.decode content)
  rw [uncovered_eq, uncovered_eq, Text.ofContent, Text.ofContent, hdecode,
    Text.foldNewlines_eq hreturn, Text.foldNewlines_eq hreturn', hclosed, hopen,
    numbersFrom_append, numbersFrom_append]
  congr 1
  rw [numbersFrom_cons, isZeroLine_newline]
  split_ifs with hzero hempty hempty
  · rw [hempty] at hzero
    exact absurd hzero (by decide)
  · rw [numbersFrom_cons, if_pos hzero]
  · rfl
  · rw [numbersFrom_cons, if_neg hzero]

/-! ### Rows of a file -/

def IsFileOf (content : Bytes) (rows : List Bytes) : Prop :=
  content = rows.flatMap (· ++ [10]) ∨ content = [10].intercalate rows

theorem intercalate_concat (hrows : rows ≠ []) :
    [10].intercalate rows ++ [10] = rows.flatMap (· ++ [10]) := by
  induction rows with
  | nil => exact absurd rfl hrows
  | cons row rest ih =>
    cases rest with
    | nil => simp
    | cons second rest => simp [List.intercalate_cons_cons, ← ih (List.cons_ne_nil _ _)]

theorem uncovered_file (hrows : ∀ row ∈ rows, 10 ∉ row ∧ 13 ∉ row) (h : IsFileOf content rows) :
    uncovered content = numbersFrom 1 (fun row => isZeroLine (Utf8.decode row)) rows := by
  rcases h with rfl | rfl
  · exact uncovered_rows hrows
  by_cases hnil : rows = []
  · subst hnil
    exact @uncovered_rows [] hrows
  · have hreturn : 13 ∉ [10].intercalate rows := by
      intro hmem
      have hclosed : 13 ∈ rows.flatMap (· ++ [10]) := by
        rw [← intercalate_concat hnil]
        exact List.mem_append_left _ hmem
      obtain ⟨row, hrow, hmem⟩ := List.mem_flatMap.1 hclosed
      rcases List.mem_append.1 hmem with hmem | hmem
      · exact (hrows row hrow).2 hmem
      · exact absurd hmem (by decide)
    rw [← uncovered_concat hreturn, intercalate_concat hnil, uncovered_rows hrows]

theorem mem_uncovered_file (hrows : ∀ row ∈ rows, 10 ∉ row ∧ 13 ∉ row)
    (h : IsFileOf content rows) {k : Nat} :
    k ∈ uncovered content ↔
      ∃ i row, k = i + 1 ∧ rows[i]? = some row ∧ isZeroLine (Utf8.decode row) = true := by
  simp only [uncovered_file hrows h, mem_numbersFrom, Nat.add_comm 1]

/-- A line without room for the sentinel is none that was never executed. -/
theorem length_of_isZeroLine {line : List Char} (h : isZeroLine line = true) :
    sentinel.length ≤ line.length := by
  obtain ⟨offset, -, hprefix⟩ := isZeroLine_iff.1 h
  have hlength := hprefix.length_le
  rw [List.length_drop] at hlength
  exact Nat.le_trans hlength (Nat.sub_le _ _)

/-- The rows reported of a listing, in ascending order, are those whose own bytes read as a line
that was never executed. Two listings that agree in a row agree on that row, whatever else is in
them, and a row that is too short is never reported. -/
theorem uncovered_rowwise (hrows : ∀ row ∈ rows, 10 ∉ row ∧ 13 ∉ row) (h : IsFileOf content rows)
    (hread : t.read workingDir listing = .ok content) :
    (uncoveredAt t workingDir listing).Pairwise (· < ·) ∧
      (∀ k, k ∈ uncoveredAt t workingDir listing ↔
        ∃ i row, k = i + 1 ∧ rows[i]? = some row ∧ isZeroLine (Utf8.decode row) = true) ∧
      (∀ other content', (∀ row ∈ other, 10 ∉ row ∧ 13 ∉ row) → IsFileOf content' other →
        ∀ i : Nat, other[i]? = rows[i]? →
          (i + 1 ∈ uncovered content' ↔ i + 1 ∈ uncoveredAt t workingDir listing)) ∧
      ∀ (i : Nat) (row : Bytes), rows[i]? = some row →
        (Utf8.decode row).length < sentinel.length →
          i + 1 ∉ uncoveredAt t workingDir listing := by
  have huncovered : uncoveredAt t workingDir listing = uncovered content := by
    simp only [uncoveredAt, hread]
  rw [huncovered]
  refine ⟨?_, fun _ => mem_uncovered_file hrows h, ?_, ?_⟩
  · rw [uncovered_file hrows h]
    exact ascending_numbersFrom 1 _ rows
  · intro other content' hother h' i hagree
    rw [mem_uncovered_file hother h', mem_uncovered_file hrows h]
    refine exists_congr fun j => exists_congr fun row => and_congr_right fun hj => ?_
    rw [← Nat.succ.inj hj, hagree]
  · intro i row hrow hshort hmem
    obtain ⟨j, row', hj, hrow', hzero⟩ := (mem_uncovered_file hrows h).1 hmem
    cases Nat.succ.inj hj
    cases hrow.symm.trans hrow'
    have := length_of_isZeroLine hzero
    omega

/-- A character that is cut off, a row that was never executed with an ill-formed byte behind its
bar, and an open row that is too short. -/
def damagedRows : List Bytes :=
  [[0xE2, 0x82], [48, 48, 48, 48, 48, 48, 48, 124, 0xFF], [48, 48]]

def damagedTree : FileTree where
  entries := [(["a.lst"], .file false ([10].intercalate damagedRows))]

theorem uncovered_rowwise_damaged :
    (∀ row ∈ damagedRows, 10 ∉ row ∧ 13 ∉ row) ∧
      IsFileOf ([10].intercalate damagedRows) damagedRows ∧
      damagedTree.read [] (Path.ofString "a.lst") = .ok ([10].intercalate damagedRows) ∧
      2 ∈ uncoveredAt damagedTree [] (Path.ofString "a.lst") ∧
      1 ∉ uncoveredAt damagedTree [] (Path.ofString "a.lst") := by
  have hrows : ∀ row ∈ damagedRows, 10 ∉ row ∧ 13 ∉ row := by decide
  have hfile : IsFileOf ([10].intercalate damagedRows) damagedRows := .inr rfl
  have hread : damagedTree.read [] (Path.ofString "a.lst") =
      .ok ([10].intercalate damagedRows) := by decide +kernel
  obtain ⟨-, hmem, -, hshort⟩ := uncovered_rowwise hrows hfile hread
  exact ⟨hrows, hfile, hread, (hmem 2).2 ⟨1, _, rfl, rfl, by decide⟩, hshort 0 _ rfl (by decide)⟩

end TriplePass.Coverage

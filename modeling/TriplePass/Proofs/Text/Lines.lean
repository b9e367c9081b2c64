import TriplePass.Text.Lines

/-! # Cutting a text into lines

Rows that are each closed by a line feed are the lines of the text they make up. However a text is
cut, its lines in a row are the text again.
-/
namespace TriplePass.Text

theorem foldl_folding {s : List Char} (hs : '\r' ∉ s) (text : List Char) :
    s.foldl Folding.feed ⟨false, text⟩ = ⟨false, s.reverse ++ text⟩ := by
  induction s generalizing text with
  | nil => rfl
  | cons c s ih =>
    have hc : c ≠ '\r' := fun h => hs (h ▸ List.mem_cons_self)
    have hrest : '\r' ∉ s := fun h => hs (List.mem_cons_of_mem c h)
    rw [List.foldl_cons, Folding.feed, if_neg hc]
    simp [ih hrest]

/-- A text without carriage returns is read as it stands. -/
theorem foldNewlines_eq {s : List Char} (hs : '\r' ∉ s) : foldNewlines s = s := by
  rw [foldNewlines, foldl_folding hs]
  simp

theorem foldl_cutting {row : List Char} (hrow : '\n' ∉ row) (t : Cutting) :
    row.foldl Cutting.feed t = { t with line := row.reverse ++ t.line } := by
  induction row generalizing t with
  | nil => rfl
  | cons c row ih =>
    have hc : c ≠ '\n' := fun h => hrow (h ▸ List.mem_cons_self)
    have hrest : '\n' ∉ row := fun h => hrow (List.mem_cons_of_mem c h)
    rw [List.foldl_cons, Cutting.feed, if_neg hc, ih hrest]
    simp

theorem feed_row {row : List Char} (hrow : '\n' ∉ row) (closed : List (List Char)) :
    (row ++ ['\n']).foldl Cutting.feed ⟨false, [], closed⟩ =
      ⟨false, [], (row ++ ['\n']) :: closed⟩ := by
  rw [List.foldl_append, foldl_cutting hrow]
  simp [Cutting.feed, Cutting.close]

theorem feed_rows {rows : List (List Char)} (hrows : ∀ row ∈ rows, '\n' ∉ row)
    (closed : List (List Char)) :
    (rows.flatMap (· ++ ['\n'])).foldl Cutting.feed ⟨false, [], closed⟩ =
      ⟨false, [], (rows.map (· ++ ['\n'])).reverse ++ closed⟩ := by
  induction rows generalizing closed with
  | nil => rfl
  | cons row rows ih =>
    rw [List.flatMap_cons, List.foldl_append, feed_row (hrows row (by simp)),
      ih fun r hr => hrows r (List.mem_cons_of_mem row hr)]
    simp

theorem lines_rows {rows : List (List Char)} (hrows : ∀ row ∈ rows, '\n' ∉ row) :
    lines (rows.flatMap (· ++ ['\n'])) = rows.map (· ++ ['\n']) := by
  rw [lines, feed_rows hrows]
  simp [Cutting.finish]

namespace Cutting

def read (t : Cutting) : List Char :=
  t.lines.reverse.flatten ++ t.line.reverse

theorem read_close (t : Cutting) : t.close.read = t.read := by
  simp [read, close]

theorem read_extend (t : Cutting) (c : Char) : (t.extend c).read = t.read ++ [c] := by
  have hline : ({ t with line := c :: t.line } : Cutting).read = t.read ++ [c] := by
    simp [read]
  unfold extend
  dsimp only
  split
  · exact hline
  split
  · rw [read_close]
    exact hline
  · exact hline

theorem read_feedAny (t : Cutting) (c : Char) : (t.feedAny c).read = t.read ++ [c] := by
  unfold feedAny
  split
  · split
    · rw [read_close]
      simp [read]
    · rw [read_extend, read_close]
  · exact read_extend t c

theorem flatten_finish (t : Cutting) : t.finish.flatten = t.read := by
  unfold finish
  split
  next hempty =>
    rw [read, List.isEmpty_iff.1 hempty]
    simp
  · simp [close, read]

end Cutting

theorem read_foldl_feedAny (s : List Char) (t : Cutting) :
    (s.foldl Cutting.feedAny t).read = t.read ++ s := by
  induction s generalizing t with
  | nil => simp
  | cons c s ih =>
    rw [List.foldl_cons, ih, Cutting.read_feedAny, List.append_assoc, List.singleton_append]

theorem flatten_linesAny (s : List Char) : (linesAny s).flatten = s := by
  rw [linesAny, Cutting.flatten_finish, read_foldl_feedAny]
  rfl

end TriplePass.Text

import Mathlib.Algebra.Group.Nat.Defs
import TriplePass.Proofs.Coverage.Listing

/-! # Counters in a listing

A row counts the executions of its line in a column of fixed width. Seven zeros before the bar are
read as a line that never executed, and seven zeros also end the count of a line that was executed
ten million times: the column is wide enough for such a count as soon as it has eight places.
-/
namespace TriplePass.Coverage

/-- A row of a listing: how often its line was executed, if it is code at all, and the line. -/
structure Row (width : Nat) where
  count : Option Nat
  text : String
  fits : ∀ n ∈ count, n < 10 ^ width
  oneLine : '\n' ∉ text.toList ∧ '\r' ∉ text.toList

def counter (width : Nat) : Option Nat → List Char
  | none => List.replicate width ' '
  | some 0 => List.replicate width '0'
  | some (n + 1) => (Nat.toDigits 10 (n + 1)).leftpad width ' '

namespace Row
variable {width : Nat}

def line (row : Row width) : List Char :=
  counter width row.count ++ '|' :: row.text.toList

def neverExecuted (row : Row width) : Bool :=
  row.count == some 0

def endsInZeros (row : Row width) : Bool :=
  row.count.any fun n => n % 10 ^ 7 == 0

theorem neverExecuted_iff (row : Row width) : row.neverExecuted = true ↔ row.count = some 0 :=
  beq_iff_eq

theorem endsInZeros_iff (row : Row width) :
    row.endsInZeros = true ↔ ∃ n ∈ row.count, 10 ^ 7 ∣ n := by
  simp [endsInZeros, Option.any_eq_true, Nat.dvd_iff_mod_eq_zero]

theorem endsInZeros_of_neverExecuted (row : Row width) (h : row.neverExecuted = true) :
    row.endsInZeros = true :=
  row.endsInZeros_iff.2 ⟨0, row.neverExecuted_iff.1 h, Nat.dvd_zero _⟩

end Row

def listing {width : Nat} (rows : List (Row width)) : String :=
  String.ofList (rows.flatMap fun row => row.line ++ ['\n'])

/-! ### The zeros at the end of a count -/

theorem concat_suffix_concat {α : Type} {l m : List α} {a b : α} :
    l ++ [a] <:+ m ++ [b] ↔ a = b ∧ l <:+ m := by
  rw [← List.reverse_prefix, ← List.reverse_prefix]
  simp

theorem digitChar_eq_zero : ∀ d < 10, '0' = Nat.digitChar d ↔ d = 0 := by
  decide

theorem pow_succ_dvd {k n : Nat} : 10 ^ (k + 1) ∣ n ↔ n % 10 = 0 ∧ 10 ^ k ∣ n / 10 := by
  rw [Nat.pow_succ']
  constructor
  · rintro ⟨m, rfl⟩
    rw [Nat.mul_assoc]
    refine ⟨Nat.mul_mod_right 10 _, ?_⟩
    rw [Nat.mul_div_cancel_left _ (by decide)]
    exact Nat.dvd_mul_right (10 ^ k) m
  · rintro ⟨hmod, m, hm⟩
    refine ⟨m, ?_⟩
    rw [Nat.mul_assoc, ← hm]
    omega

/-- A number ends in as many zeros as there are tens in it. -/
theorem zeros_suffix_toDigits {k n : Nat} (hn : 0 < n) :
    List.replicate k '0' <:+ Nat.toDigits 10 n ↔ 10 ^ k ∣ n := by
  induction k generalizing n with
  | zero => simp
  | succ k ih =>
    rw [List.replicate_succ', pow_succ_dvd]
    rcases Nat.lt_or_ge n 10 with hlt | hge
    · have hsuffix := concat_suffix_concat (l := List.replicate k '0') (m := []) (a := '0')
        (b := Nat.digitChar n)
      rw [List.nil_append] at hsuffix
      rw [Nat.toDigits_of_lt_base hlt, hsuffix, digitChar_eq_zero n hlt]
      constructor
      · rintro ⟨hzero, _⟩
        omega
      · rintro ⟨hmod, _⟩
        omega
    · have hmod : n % 10 < 10 := Nat.mod_lt n (by decide)
      rw [Nat.toDigits_of_base_le (by decide) hge, concat_suffix_concat,
        digitChar_eq_zero (n % 10) hmod, ih (Nat.div_pos hge (by decide))]

theorem zeros_suffix_blanks {k m : Nat} {l : List Char} :
    List.replicate k '0' <:+ List.replicate m ' ' ++ l ↔ List.replicate k '0' <:+ l := by
  induction m with
  | zero => simp
  | succ m ih =>
    rw [List.replicate_succ, List.cons_append, List.suffix_cons_iff, ih]
    constructor
    · rintro (h | h)
      · have hblank : ' ' ∈ List.replicate k '0' := by
          rw [h]
          simp
        exact absurd (List.eq_of_mem_replicate hblank) (by decide)
      · exact h
    · exact Or.inr

/-- Seven zeros end the column exactly where ten million divides the count. -/
theorem zeros_suffix_counter {width : Nat} (hwidth : 7 ≤ width) (count : Option Nat) :
    List.replicate 7 '0' <:+ counter width count ↔ count.any (fun n => n % 10 ^ 7 == 0) := by
  match count with
  | none =>
    have hblank := zeros_suffix_blanks (k := 7) (m := width) (l := [])
    rw [List.append_nil] at hblank
    rw [counter, hblank, List.suffix_nil, Option.any_none]
    decide
  | some 0 =>
    have hzeros : List.replicate 7 '0' <:+ List.replicate width '0' := by
      refine ⟨List.replicate (width - 7) '0', ?_⟩
      rw [List.replicate_append_replicate, Nat.sub_add_cancel hwidth]
    simpa [counter] using hzeros
  | some (n + 1) =>
    rw [counter, List.leftpad, zeros_suffix_blanks, zeros_suffix_toDigits (Nat.succ_pos n),
      Nat.dvd_iff_mod_eq_zero, Option.any_some, beq_iff_eq]

/-! ### Lines -/

theorem mem_counter {width : Nat} {count : Option Nat} {c : Char}
    (h : c ∈ counter width count) : c = ' ' ∨ c.isDigit = true := by
  match count with
  | none => exact Or.inl (List.eq_of_mem_replicate h)
  | some 0 =>
    right
    rw [List.eq_of_mem_replicate h]
    decide
  | some (n + 1) =>
    rcases List.mem_append.1 h with h | h
    · exact Or.inl (List.eq_of_mem_replicate h)
    · exact Or.inr (Nat.isDigit_of_mem_toDigits (by decide) (by decide) h)

theorem bar_not_mem_counter (width : Nat) (count : Option Nat) : '|' ∉ counter width count := by
  intro h
  rcases mem_counter h with h | h <;> exact absurd h (by decide)

theorem counter_ascii {width : Nat} {count : Option Nat} {c : Char}
    (h : c ∈ counter width count) : 0x20 ≤ c.toNat ∧ c.toNat < 0x80 := by
  rcases mem_counter h with rfl | h
  · decide
  · simp only [Char.isDigit, Bool.and_eq_true, decide_eq_true_eq, UInt32.le_iff_toNat_le] at h
    change 48 ≤ c.toNat ∧ c.toNat ≤ 57 at h
    omega

theorem length_counter {width : Nat} (hwidth : 0 < width) {count : Option Nat}
    (hfits : ∀ n ∈ count, n < 10 ^ width) : (counter width count).length = width := by
  match count with
  | none => simp [counter]
  | some 0 => simp [counter]
  | some (n + 1) =>
    have hlength := (Nat.length_toDigits_le_iff (b := 10) (by decide) hwidth).2
      (hfits (n + 1) rfl)
    rw [counter, List.length_leftpad]
    omega

/-- The text before the first bar is unique. -/
theorem before_bar {a b x y : List Char} (ha : '|' ∉ a) (hb : '|' ∉ b)
    (h : a ++ '|' :: x = b ++ '|' :: y) : a = b := by
  induction a generalizing b with
  | nil =>
    cases b with
    | nil => rfl
    | cons c b =>
      have hc : '|' = c := (List.cons.inj h).1
      exact absurd (hc ▸ List.mem_cons_self) hb
  | cons c a ih =>
    cases b with
    | nil =>
      have hc : c = '|' := (List.cons.inj h).1
      exact absurd (hc ▸ List.mem_cons_self) ha
    | cons d b =>
      obtain ⟨hcd, hrest⟩ := List.cons.inj h
      have hab := ih (fun hmem => ha (List.mem_cons_of_mem c hmem))
        (fun hmem => hb (List.mem_cons_of_mem d hmem)) hrest
      rw [hcd, hab]

/-- A column of seven, eight or nine places is a zero count if its last seven are zeros; what
follows the bar does not matter. -/
theorem isZeroLine_column {column : List Char} (text : List Char) (hbar : '|' ∉ column)
    (hshort : 7 ≤ column.length) (hlong : column.length ≤ 9) :
    isZeroLine (column ++ '|' :: text) = true ↔ List.replicate 7 '0' <:+ column := by
  have hsentinel : sentinel = List.replicate 7 '0' ++ ['|'] := by decide
  rw [isZeroLine_iff, hsentinel]
  constructor
  · rintro ⟨offset, hlt, rest, hrest⟩
    rw [List.drop_append_of_le_length (by omega), List.append_assoc, List.singleton_append]
      at hrest
    have hzeros : '|' ∉ List.replicate 7 '0' := by decide
    have hdrop : '|' ∉ column.drop offset := fun hmem => hbar (List.mem_of_mem_drop hmem)
    rw [before_bar hzeros hdrop hrest]
    exact List.drop_suffix offset column
  · rintro ⟨front, rfl⟩
    rw [List.length_append, List.length_replicate] at hlong
    refine ⟨front.length, by omega, text, ?_⟩
    simp

theorem isZeroLine_row {width : Nat} (hshort : 7 ≤ width) (hlong : width ≤ 9)
    (row : Row width) (text : List Char) :
    isZeroLine (counter width row.count ++ '|' :: text) = row.endsInZeros := by
  have hlength := length_counter (by omega) row.fits
  rw [Bool.eq_iff_iff, isZeroLine_column text (bar_not_mem_counter width row.count) (by omega)
    (by omega)]
  exact zeros_suffix_counter hshort row.count

/-! ### Listings -/

namespace Row
variable {width : Nat}

def bytes (row : Row width) : Bytes :=
  row.line.flatMap String.utf8EncodeChar

theorem mem_line {row : Row width} {c : Char} (h : c ∈ row.line) (hc : c.toNat < 0x20) :
    c ∈ row.text.toList := by
  rcases List.mem_append.1 h with h | h
  · have hprinted := (counter_ascii h).1
    omega
  · rcases List.mem_cons.1 h with rfl | h
    · exact absurd hc (by decide)
    · exact h

theorem break_not_mem_bytes (row : Row width) : 10 ∉ row.bytes ∧ 13 ∉ row.bytes := by
  constructor
  · intro h
    have hline := Utf8.mem_of_byte_mem (c := '\n') (by decide) h
    exact row.oneLine.1 (mem_line hline (by decide))
  · intro h
    have hline := Utf8.mem_of_byte_mem (c := '\r') (by decide) h
    exact row.oneLine.2 (mem_line hline (by decide))

theorem decode_bytes (row : Row width) :
    ∃ text, Utf8.decode row.bytes = counter width row.count ++ '|' :: text := by
  have hascii : ∀ c ∈ counter width row.count ++ ['|'], c.toNat < 0x80 := by
    intro c h
    rcases List.mem_append.1 h with h | h
    · exact (counter_ascii h).2
    · rw [List.mem_singleton.1 h]
      decide
  refine ⟨Utf8.decode (row.text.toList.flatMap String.utf8EncodeChar), ?_⟩
  have hread := Utf8.decode_ascii hascii (row.text.toList.flatMap String.utf8EncodeChar)
  simpa [bytes, line] using hread

end Row

theorem encode_listing {width : Nat} (rows : List (Row width)) :
    Utf8.encode (listing rows) = (rows.map Row.bytes).flatMap (· ++ [10]) := by
  have hnewline : String.utf8EncodeChar '\n' = [10] := by decide
  rw [Utf8.encode_eq, listing, String.toList_ofList, List.flatMap_assoc, List.flatMap_map]
  simp only [List.flatMap_append, List.flatMap_singleton, hnewline]
  rfl

theorem uncovered_encode_listing {width : Nat} (hshort : 7 ≤ width) (hlong : width ≤ 9)
    (rows : List (Row width)) :
    uncovered (Utf8.encode (listing rows)) = numbersFrom 1 Row.endsInZeros rows := by
  have hbreaks : ∀ bytes ∈ rows.map Row.bytes, 10 ∉ bytes ∧ 13 ∉ bytes := by
    intro bytes h
    obtain ⟨row, _, rfl⟩ := List.mem_map.1 h
    exact row.break_not_mem_bytes
  rw [encode_listing, uncovered_rows hbreaks, numbersFrom_map]
  refine numbersFrom_congr (fun row _ => ?_) 1
  obtain ⟨text, htext⟩ := row.decode_bytes
  rw [htext, isZeroLine_row hshort hlong]

/-- The rows reported are those whose count ends in seven zeros. They are the rows that were never
executed exactly if no row was executed a multiple of ten million times. -/
theorem uncovered_listing {width : Nat} (hshort : 7 ≤ width) (hlong : width ≤ 9)
    (rows : List (Row width)) :
    uncovered (Utf8.encode (listing rows)) = numbersFrom 1 Row.endsInZeros rows ∧
      (uncovered (Utf8.encode (listing rows)) = numbersFrom 1 Row.neverExecuted rows ↔
        ∀ row ∈ rows, ∀ n ∈ row.count, 10 ^ 7 ∣ n → n = 0) := by
  have hread := uncovered_encode_listing hshort hlong rows
  refine ⟨hread, ?_⟩
  rw [hread, numbersFrom_eq_iff fun row _ => row.endsInZeros_of_neverExecuted]
  constructor
  · intro h row hrow n hn hdvd
    have hnever := h row hrow (row.endsInZeros_iff.2 ⟨n, hn, hdvd⟩)
    have hzero : some n = some 0 := hn.symm.trans (row.neverExecuted_iff.1 hnever)
    exact Option.some.inj hzero
  · intro h row hrow hends
    obtain ⟨n, hn, hdvd⟩ := row.endsInZeros_iff.1 hends
    have hzero := h row hrow n hn hdvd
    exact row.neverExecuted_iff.2 (hzero ▸ hn)

def tenMillion : Row 8 where
  count := some (10 ^ 7)
  text := "x"
  fits := by simp
  oneLine := by decide

def unexecuted : Row 8 where
  count := some 0
  text := "0000000|"
  fits := by simp
  oneLine := by decide

theorem uncovered_eight_columns :
    7 ≤ 8 ∧ 8 ≤ 9 ∧
      uncovered (Utf8.encode (listing [tenMillion, unexecuted])) =
        numbersFrom 1 Row.endsInZeros [tenMillion, unexecuted] :=
  ⟨by decide, by decide,
    (uncovered_listing (by decide) (by decide) [tenMillion, unexecuted]).1⟩

theorem uncovered_ten_million :
    uncovered (Utf8.encode (listing [tenMillion])) = [1] ∧
      numbersFrom 1 Row.neverExecuted [tenMillion] = [] := by
  rw [uncovered_encode_listing (by decide) (by decide)]
  decide

end TriplePass.Coverage

import TriplePass.Proofs.Text.Reading
import TriplePass.Text.Utf8

/-! # ASCII inside UTF-8

A byte below 128 is a character of its own wherever it stands: it closes an ill-formed run, and it
is never part of a longer character. So a text is read alike before and after it, however damaged
the bytes around it are, and an ASCII character is there exactly where its byte is. A byte that no
character has parts the bytes in the same way; what is read there may come of other damage too.
-/
namespace TriplePass.Utf8

def piecesFrom : State → Bytes → List Piece
  | q, [] => rest q
  | q, b :: bs => (step q b.toNat).1 ++ piecesFrom (step q b.toNat).2 bs

theorem pieces_foldl (q : State) (found : List Piece) (bytes : Bytes) :
    (bytes.foldl Run.feed ⟨q, found⟩).pieces = found.reverse ++ piecesFrom q bytes := by
  induction bytes generalizing q found with
  | nil => simp [Run.pieces, piecesFrom]
  | cons b bs ih => simp [Run.feed, piecesFrom, ih]

theorem pieces_eq (bytes : Bytes) : pieces bytes = piecesFrom .start bytes :=
  pieces_foldl .start [] bytes

def shifted : (groups : Nat) → Nat → Nat
  | 0, n => n
  | groups + 1, n => shifted groups (64 * n)

theorem shifted_le (groups : Nat) {m n : Nat} (h : m ≤ n) : shifted groups m ≤ shifted groups n := by
  induction groups generalizing m n with
  | zero => exact h
  | succ groups ih => exact ih (Nat.mul_le_mul_left 64 h)

def State.least : State → Nat
  | .start => 0x80
  | .inside owed low _ value => shifted owed (64 * value + (low - 0x80))

/-- A state in which no ASCII byte goes on and no ASCII character comes about. -/
structure State.Wide (q : State) : Prop where
  least : 0x80 ≤ q.least
  low : ∀ owed low high value, q = .inside owed low high value → 0x80 ≤ low

theorem State.wide_start : State.start.Wide where
  least := by simp [State.least]
  low := nofun

theorem State.wide_inside {owed low high value : Nat} :
    (State.inside owed low high value).Wide ↔
      0x80 ≤ shifted owed (64 * value + (low - 0x80)) ∧ 0x80 ≤ low := by
  constructor
  · intro hq
    exact ⟨hq.least, hq.low _ _ _ _ rfl⟩
  · rintro ⟨hleast, hlow⟩
    refine ⟨hleast, ?_⟩
    intro o l h v heq
    cases heq
    exact hlow

theorem first_wide (b : Nat) : (first b).2.Wide := by
  unfold first
  repeat' split
  all_goals first
    | exact State.wide_start
    | exact State.wide_inside.2 ⟨by simp only [shifted]; omega, by omega⟩

theorem step_wide {q : State} (hq : q.Wide) (b : Nat) : (step q b).2.Wide := by
  cases q with
  | start => exact first_wide b
  | inside owed low high value =>
    obtain ⟨hleast, hlow⟩ := State.wide_inside.1 hq
    simp only [step]
    split
    next hb =>
      cases owed with
      | zero => exact State.wide_start
      | succ owed =>
        refine State.wide_inside.2 ⟨?_, by omega⟩
        have hgrown : 64 * value + (low - 0x80) ≤ 64 * value + (b - 0x80) := by omega
        calc 0x80 ≤ shifted (owed + 1) (64 * value + (low - 0x80)) := hleast
          _ ≤ shifted (owed + 1) (64 * value + (b - 0x80)) := shifted_le (owed + 1) hgrown
          _ = shifted owed (64 * (64 * value + (b - 0x80)) + (0x80 - 0x80)) := by
            rw [shifted, Nat.sub_self, Nat.add_zero]
    next => exact first_wide b

theorem step_ascii {q : State} (hq : q.Wide) {b : Nat} (hb : b < 0x80) :
    step q b = (rest q ++ [some (Char.ofNat b)], .start) := by
  have hfirst : first b = ([some (Char.ofNat b)], .start) := by simp [first, hb]
  cases q with
  | start => exact hfirst
  | inside owed low high value =>
    have hlow := (State.wide_inside.1 hq).2
    have hout : ¬(low ≤ b ∧ b ≤ high) := by omega
    simp [step, hout, hfirst, rest]

/-- A number that is no character reads as the null character. -/
theorem toNat_ofNat (n : Nat) : (Char.ofNat n).toNat = n ∨ (Char.ofNat n).toNat = 0 := by
  by_cases h : n.isValidChar
  · left
    exact congrArg Char.toNat (dif_pos h)
  · right
    exact congrArg Char.toNat (dif_neg h)

/-- A character that a byte completes: it is the byte itself, or far above ASCII. -/
theorem step_found {q : State} (hq : q.Wide) {b : Nat} {c : Char} (hc : some c ∈ (step q b).1) :
    c = Char.ofNat b ∨ c.toNat = 0 ∨ 0x80 ≤ c.toNat := by
  have hfirst : some c ∈ (first b).1 → c = Char.ofNat b := by
    unfold first
    repeat' split
    all_goals simp
  cases q with
  | start => exact Or.inl (hfirst hc)
  | inside owed low high value =>
    obtain ⟨hleast, hlow⟩ := State.wide_inside.1 hq
    simp only [step] at hc
    split at hc
    next hb =>
      cases owed with
      | succ owed => simp at hc
      | zero =>
        rw [shifted] at hleast
        right
        have heq : c = Char.ofNat (64 * value + (b - 0x80)) := by simpa using hc
        rcases toNat_ofNat (64 * value + (b - 0x80)) with h | h
        · right
          rw [heq, h]
          omega
        · left
          rw [heq, h]
    next =>
      left
      exact hfirst (by simpa using hc)

/-! ### Parting the bytes -/

def reader : Text.Reader State UInt8 Piece where
  start := .start
  step q b := step q b.toNat
  rest := rest

theorem piecesFrom_eq (q : State) (bytes : Bytes) : piecesFrom q bytes = reader.readFrom q bytes := by
  induction bytes generalizing q with
  | nil => rfl
  | cons b bs ih =>
    rw [piecesFrom, ih, Text.Reader.readFrom]
    rfl

theorem pieces_read : pieces = reader.read :=
  funext fun bytes => (pieces_eq bytes).trans (piecesFrom_eq .start bytes)

theorem reader_ends {b : UInt8} (hb : b.toNat < 0x80) :
    reader.Ends State.Wide b (some (Char.ofNat b.toNat)) where
  start := State.wide_start
  step _ hq x := step_wide hq x.toNat
  ends _ hq := step_ascii hq hb

theorem toNat_byte {c : Char} (hc : c.toNat < 0x80) : (UInt8.ofNat c.toNat).toNat = c.toNat := by
  rw [UInt8.toNat_ofNat', Nat.mod_eq_of_lt (by omega)]

/-- An ASCII character comes of its own byte. -/
theorem reader_parts {c : Char} (hpos : 0 < c.toNat) (hascii : c.toNat < 0x80) :
    reader.Parts State.Wide (UInt8.ofNat c.toNat) (some c) where
  toEnds := by
    have hends := reader_ends (b := UInt8.ofNat c.toNat) (by rw [toNat_byte hascii]; exact hascii)
    rwa [toNat_byte hascii, Char.ofNat_toNat] at hends
  only q hq x hx := by
    rcases step_found hq hx with h | h | h
    · rcases toNat_ofNat x.toNat with hnat | hnat
      · rw [h, hnat, UInt8.ofNat_toNat]
      · rw [h] at hpos
        omega
    · omega
    · omega
  rest q := by cases q <;> simp [reader, rest]

theorem decode_append_ascii {b : UInt8} (hb : b.toNat < 0x80) (l bs : Bytes) :
    decode (l ++ b :: bs) = decode l ++ Char.ofNat b.toNat :: decode bs := by
  simp only [decode, pieces_read, (reader_ends hb).read_append, List.map_append, List.map_cons,
    Option.getD_some]

theorem decode_cons_ascii {b : UInt8} (hb : b.toNat < 0x80) (bs : Bytes) :
    decode (b :: bs) = Char.ofNat b.toNat :: decode bs :=
  decode_append_ascii hb [] bs

/-- Where an ASCII character is read, its byte stands, and either side is read on its own. -/
theorem decode_parts {c : Char} (hpos : 0 < c.toNat) (hascii : c.toNat < 0x80) :
    Text.PartsAt decode (UInt8.ofNat c.toNat) c := by
  have hparts := (reader_parts hpos hascii).partsAt
  rw [← pieces_read] at hparts
  refine hparts.map (f := (·.getD replacement)) ?_
  intro piece hpiece
  cases piece with
  | none =>
    have hc : replacement = c := hpiece
    rw [← hc] at hascii
    exact absurd hascii (by decide)
  | some d => exact congrArg some hpiece

theorem first_cases (b : Nat) :
    b < 0x80 ∨ (∃ owed low high value, first b = ([], .inside owed low high value)) ∨
      first b = ([none], .start) := by
  unfold first
  split
  next hb => exact .inl hb
  right
  repeat' split
  all_goals simp

theorem piecesFrom_inside_ne_nil (owed low high value : Nat) (bytes : Bytes) :
    piecesFrom (.inside owed low high value) bytes ≠ [] := by
  induction bytes generalizing owed low high value with
  | nil => exact List.cons_ne_nil _ _
  | cons b bs ih =>
    simp only [piecesFrom, step]
    split
    next =>
      cases owed with
      | zero => exact List.cons_ne_nil _ _
      | succ owed => exact ih owed _ _ _
    next => exact List.cons_ne_nil _ _

/-- Nothing but no bytes reads as no text. -/
theorem decode_eq_nil_iff (bytes : Bytes) : decode bytes = [] ↔ bytes = [] := by
  rw [decode, List.map_eq_nil_iff, pieces_eq]
  cases bytes with
  | nil => exact iff_of_true rfl rfl
  | cons b bs =>
    refine iff_of_false ?_ (List.cons_ne_nil b bs)
    rw [piecesFrom, step]
    rcases first_cases b.toNat with hb | ⟨owed, low, high, value, hb⟩ | hb
    · rw [first, if_pos hb]
      exact List.cons_ne_nil _ _
    · rw [hb]
      exact piecesFrom_inside_ne_nil owed low high value bs
    · rw [hb]
      exact List.cons_ne_nil _ _

theorem mem_decode {bytes : Bytes} {c : Char} (hc : c ∈ decode bytes) (hpos : 0 < c.toNat)
    (hascii : c.toNat < 0x80) : UInt8.ofNat c.toNat ∈ bytes := by
  obtain ⟨front, back, hread⟩ := List.append_of_mem hc
  obtain ⟨left, right, rfl, -, -⟩ := (decode_parts hpos hascii bytes front back).1 hread
  exact List.mem_append_right _ List.mem_cons_self

/-! ### Bytes of no character -/

/-- A byte that no character has: it closes an ill-formed run and is one of its own. -/
def IsForeign (b : UInt8) : Prop :=
  b.toNat = 0xC0 ∨ b.toNat = 0xC1 ∨ 0xF5 ≤ b.toNat

def State.Narrow (q : State) : Prop :=
  ∀ owed low high value, q = .inside owed low high value → high ≤ 0xBF

theorem first_narrow (b : Nat) : (first b).2.Narrow := by
  intro owed low high value hq
  unfold first at hq
  repeat' split at hq
  all_goals cases hq
  all_goals omega

theorem step_narrow {q : State} (hq : q.Narrow) (b : Nat) : (step q b).2.Narrow := by
  cases q with
  | start => exact first_narrow b
  | inside owed low high value =>
    simp only [step]
    split
    next =>
      cases owed with
      | zero => nofun
      | succ owed =>
        intro o l h v heq
        cases heq
        omega
    next => exact first_narrow b

theorem first_foreign {b : UInt8} (hb : IsForeign b) : first b.toNat = ([none], .start) := by
  unfold IsForeign at hb
  simp only [first]
  repeat rw [if_neg (by omega)]

theorem reader_ends_foreign {b : UInt8} (hb : IsForeign b) : reader.Ends State.Narrow b none where
  start := nofun
  step _ hq x := step_narrow hq x.toNat
  ends q hq := by
    have hfirst := first_foreign hb
    cases q with
    | start => exact hfirst
    | inside owed low high value =>
      have hhigh := hq _ _ _ _ rfl
      have hout : ¬(low ≤ b.toNat ∧ b.toNat ≤ high) := by
        unfold IsForeign at hb
        omega
      simp [reader, step, hout, hfirst, rest]

theorem decode_append_foreign {b : UInt8} (hb : IsForeign b) (l bs : Bytes) :
    decode (l ++ b :: bs) = decode l ++ replacement :: decode bs := by
  simp only [decode, pieces_read, (reader_ends_foreign hb).read_append, List.map_append,
    List.map_cons, Option.getD_none]

/-! ### Writing -/

theorem toList_loop (bytes : ByteArray) (i : Nat) (r : Bytes) :
    ByteArray.toList.loop bytes i r = r.reverse ++ bytes.data.toList.drop i := by
  fun_induction ByteArray.toList.loop bytes i r with
  | case1 i r hi ih =>
    have hlt : i < bytes.data.toList.length := by simpa using hi
    have hget : bytes.get! i = bytes.data.toList[i] := by
      rw [Array.getElem_toList]
      exact getElem!_pos bytes.data i hi
    rw [ih, List.drop_eq_getElem_cons hlt, hget]
    simp
  | case2 i r hi =>
    have hle : bytes.data.toList.length ≤ i := by simpa using Nat.le_of_not_lt hi
    simp [List.drop_eq_nil_of_le hle]

theorem encode_eq (text : String) : encode text = text.toList.flatMap String.utf8EncodeChar := by
  have hbytes : text.toUTF8 = text.toList.utf8Encode := String.utf8Encode_toList.symm
  rw [encode, hbytes, ByteArray.toList, toList_loop, List.utf8Encode]
  simp

theorem encode_empty : encode "" = [] := by
  rw [encode_eq]
  rfl

theorem encode_append (front back : String) : encode (front ++ back) = encode front ++ encode back := by
  simp only [encode_eq, String.toList_append, List.flatMap_append]

/-- A character above ASCII has no ASCII byte. -/
theorem mem_utf8EncodeChar {c : Char} {b : UInt8} (hb : b ∈ String.utf8EncodeChar c)
    (hascii : b.toNat < 0x80) : b.toNat = c.toNat := by
  simp only [String.utf8EncodeChar] at hb
  split at hb
  next hc =>
    have hbyte : b = UInt8.ofNat c.toNat := List.mem_singleton.1 hb
    have hlt : c.toNat < 256 := by
      change c.toNat ≤ 0x7f at hc
      omega
    rw [hbyte, UInt8.toNat_ofNat', Nat.mod_eq_of_lt hlt]
  next =>
    -- every byte of a longer character has its highest bit set
    exfalso
    repeat' split at hb
    all_goals
      simp only [List.mem_cons, List.not_mem_nil, or_false] at hb
      rcases hb with rfl | hb
      · rw [UInt8.toNat_ofNat'] at hascii
        omega
      · rcases hb with rfl | rfl | rfl <;> (rw [UInt8.toNat_ofNat'] at hascii; omega)

theorem encode_ascii {c : Char} (hc : c.toNat < 0x80) :
    String.utf8EncodeChar c = [UInt8.ofNat c.toNat] := by
  have hle : c.val.toNat ≤ 0x7f := Nat.le_of_lt_succ hc
  simp only [String.utf8EncodeChar, if_pos hle]
  rfl

/-- An ASCII byte is written for its own character only. -/
theorem mem_of_byte_mem {chars : List Char} {c : Char} (hc : c.toNat < 0x80)
    (hb : UInt8.ofNat c.toNat ∈ chars.flatMap String.utf8EncodeChar) : c ∈ chars := by
  obtain ⟨a, ha, hbyte⟩ := List.mem_flatMap.1 hb
  have hnat := toNat_byte hc
  have heq := mem_utf8EncodeChar hbyte (by omega)
  have hca : c = a := Char.toNat_inj.1 (by omega)
  exact hca ▸ ha

/-- ASCII characters are read as they were written. -/
theorem decode_ascii {chars : List Char} (hascii : ∀ c ∈ chars, c.toNat < 0x80) (bs : Bytes) :
    decode (chars.flatMap String.utf8EncodeChar ++ bs) = chars ++ decode bs := by
  induction chars with
  | nil => rfl
  | cons c cs ih =>
    have hc := hascii c (by simp)
    have hnat := toNat_byte hc
    rw [List.flatMap_cons, encode_ascii hc, List.singleton_append, List.cons_append,
      decode_cons_ascii (by omega), hnat, Char.ofNat_toNat,
      ih fun a ha => hascii a (List.mem_cons_of_mem c ha)]
    rfl

/-- A text has at least as many bytes as characters. -/
theorem length_le_utf8ByteSize (text : String) : text.toList.length ≤ text.utf8ByteSize := by
  have hsize : ∀ chars : List Char, chars.length ≤ chars.utf8Encode.size := by
    intro chars
    induction chars with
    | nil => exact Nat.zero_le _
    | cons c cs ih =>
      have hpos := Char.utf8Size_pos c
      rw [List.utf8Encode_cons, ByteArray.size_append, List.utf8Encode_singleton,
        List.size_toByteArray, String.length_utf8EncodeChar, List.length_cons]
      omega
  rw [← String.size_toByteArray, ← String.utf8Encode_toList]
  exact hsize text.toList
end TriplePass.Utf8

import TriplePass.Proofs.Text.Utf8

/-! # Strict reading of UTF-8

The bytes that are read strictly are those that some text is written as, and they are read as that
text. A character is a lead byte with the continuation bytes that it asks for; the number they add
up to is the character.
-/
namespace TriplePass.Utf8
open String (utf8EncodeChar)
variable {b : UInt8} {bytes more : Bytes} {owed low high value n : Nat}

/-! ### Characters byte by byte -/

/-- The continuation bytes of a character, from the bits read before them to its number. -/
inductive Continues : (owed low high value : Nat) → Bytes → Nat → Prop where
  | last {low high value : Nat} {b : UInt8} : low ≤ b.toNat → b.toNat ≤ high →
      Continues 0 low high value [b] (64 * value + (b.toNat - 0x80))
  | more {owed low high value n : Nat} {b : UInt8} {bytes : Bytes} : low ≤ b.toNat →
      b.toNat ≤ high → Continues owed 0x80 0xBF (64 * value + (b.toNat - 0x80)) bytes n →
      Continues (owed + 1) low high value (b :: bytes) n

theorem piecesFrom_continues (h : Continues owed low high value bytes n) (more : Bytes) :
    piecesFrom (.inside owed low high value) (bytes ++ more) =
      some (Char.ofNat n) :: piecesFrom .start more := by
  induction h with
  | last hlow hhigh =>
    simp only [List.cons_append, List.nil_append, piecesFrom, step, if_pos (And.intro hlow hhigh)]
  | more hlow hhigh _ ih =>
    simp only [List.cons_append, piecesFrom, step, if_pos (And.intro hlow hhigh), List.nil_append]
    exact ih

/-- Inside a character only its continuation bytes are well-formed. -/
theorem continues_of_pieces
    (h : ∀ piece ∈ piecesFrom (.inside owed low high value) bytes, piece.isSome = true) :
    ∃ front more n, bytes = front ++ more ∧ Continues owed low high value front n := by
  induction owed generalizing low high value bytes with
  | zero =>
    cases bytes with
    | nil => cases h none List.mem_cons_self
    | cons b more =>
      by_cases hb : low ≤ b.toNat ∧ b.toNat ≤ high
      · exact ⟨[b], more, _, rfl, .last hb.1 hb.2⟩
      · simp only [piecesFrom, step, if_neg hb] at h
        cases h none (List.mem_append_left _ List.mem_cons_self)
  | succ owed ih =>
    cases bytes with
    | nil => cases h none List.mem_cons_self
    | cons b rest =>
      by_cases hb : low ≤ b.toNat ∧ b.toNat ≤ high
      · simp only [piecesFrom, step, if_pos hb, List.nil_append] at h
        obtain ⟨front, more, n, rfl, hfront⟩ := ih h
        exact ⟨b :: front, more, n, rfl, .more hb.1 hb.2 hfront⟩
      · simp only [piecesFrom, step, if_neg hb] at h
        cases h none (List.mem_append_left _ List.mem_cons_self)

/-! ### What characters are written as -/

theorem toNat_char {n : Nat} (h : n.isValidChar) : (Char.ofNat n).val.toNat = n :=
  congrArg Char.toNat (dif_pos h : Char.ofNat n = _)

theorem byte_eq {m : Nat} (h : m = b.toNat) : UInt8.ofNat m = b := by
  rw [h, UInt8.ofNat_toNat]

theorem encodeChar_two {b₁ : UInt8} (hb : 0xC2 ≤ b.toNat ∧ b.toNat ≤ 0xDF)
    (h₁ : 0x80 ≤ b₁.toNat ∧ b₁.toNat ≤ 0xBF)
    (hn : n = 64 * (b.toNat - 0xC0) + (b₁.toNat - 0x80)) :
    utf8EncodeChar (Char.ofNat n) = [b, b₁] := by
  have hvalid : n.isValidChar := .inl (by omega)
  simp only [utf8EncodeChar, toNat_char hvalid]
  rw [if_neg (by omega), if_pos (by omega), byte_eq (b := b) (by omega),
    byte_eq (b := b₁) (by omega)]

theorem encodeChar_three {b₁ b₂ : UInt8} (hb : 0xE0 ≤ b.toNat ∧ b.toNat ≤ 0xEF)
    (h₁ : 0x80 ≤ b₁.toNat ∧ b₁.toNat ≤ 0xBF) (h₂ : 0x80 ≤ b₂.toNat ∧ b₂.toNat ≤ 0xBF)
    (hlong : 0x7FF < n) (hvalid : n < 0xD800 ∨ 0xDFFF < n ∧ n < 0x110000)
    (hn : n = 64 * (64 * (b.toNat - 0xE0) + (b₁.toNat - 0x80)) + (b₂.toNat - 0x80)) :
    utf8EncodeChar (Char.ofNat n) = [b, b₁, b₂] := by
  have hvalid : n.isValidChar := hvalid
  simp only [utf8EncodeChar, toNat_char hvalid]
  rw [if_neg (by omega), if_neg (by omega), if_pos (by omega), byte_eq (b := b) (by omega),
    byte_eq (b := b₁) (by omega), byte_eq (b := b₂) (by omega)]

theorem encodeChar_four {b₁ b₂ b₃ : UInt8} (hb : 0xF0 ≤ b.toNat ∧ b.toNat ≤ 0xF4)
    (h₁ : 0x80 ≤ b₁.toNat ∧ b₁.toNat ≤ 0xBF) (h₂ : 0x80 ≤ b₂.toNat ∧ b₂.toNat ≤ 0xBF)
    (h₃ : 0x80 ≤ b₃.toNat ∧ b₃.toNat ≤ 0xBF) (hlong : 0xFFFF < n) (hvalid : n < 0x110000)
    (hn : n = 64 * (64 * (64 * (b.toNat - 0xF0) + (b₁.toNat - 0x80)) + (b₂.toNat - 0x80)) +
      (b₃.toNat - 0x80)) :
    utf8EncodeChar (Char.ofNat n) = [b, b₁, b₂, b₃] := by
  have hvalid : n.isValidChar := .inr ⟨by omega, hvalid⟩
  simp only [utf8EncodeChar, toNat_char hvalid]
  rw [if_neg (by omega), if_neg (by omega), if_neg (by omega), byte_eq (b := b) (by omega),
    byte_eq (b := b₁) (by omega), byte_eq (b := b₂) (by omega), byte_eq (b := b₃) (by omega)]

theorem continues_one_iff :
    Continues 0 low high value bytes n ↔ ∃ b₁, bytes = [b₁] ∧
      (low ≤ b₁.toNat ∧ b₁.toNat ≤ high) ∧ n = 64 * value + (b₁.toNat - 0x80) := by
  constructor
  · intro h
    cases h with
    | @last _ _ _ b₁ hlow hhigh => exact ⟨b₁, rfl, ⟨hlow, hhigh⟩, rfl⟩
  · rintro ⟨b₁, rfl, h₁, hn⟩
    rw [hn]
    exact .last h₁.1 h₁.2

theorem continues_two_iff :
    Continues 1 low high value bytes n ↔ ∃ b₁ b₂, bytes = [b₁, b₂] ∧
      (low ≤ b₁.toNat ∧ b₁.toNat ≤ high) ∧ (0x80 ≤ b₂.toNat ∧ b₂.toNat ≤ 0xBF) ∧
      n = 64 * (64 * value + (b₁.toNat - 0x80)) + (b₂.toNat - 0x80) := by
  constructor
  · intro h
    cases h with
    | @more _ _ _ _ _ b₁ _ hlow hhigh h =>
      obtain ⟨b₂, rfl, h₂, hn⟩ := continues_one_iff.1 h
      exact ⟨b₁, b₂, rfl, ⟨hlow, hhigh⟩, h₂, hn⟩
  · rintro ⟨b₁, b₂, rfl, h₁, h₂, hn⟩
    exact .more h₁.1 h₁.2 (continues_one_iff.2 ⟨b₂, rfl, h₂, hn⟩)

theorem continues_three_iff :
    Continues 2 low high value bytes n ↔ ∃ b₁ b₂ b₃, bytes = [b₁, b₂, b₃] ∧
      (low ≤ b₁.toNat ∧ b₁.toNat ≤ high) ∧ (0x80 ≤ b₂.toNat ∧ b₂.toNat ≤ 0xBF) ∧
      (0x80 ≤ b₃.toNat ∧ b₃.toNat ≤ 0xBF) ∧
      n = 64 * (64 * (64 * value + (b₁.toNat - 0x80)) + (b₂.toNat - 0x80)) + (b₃.toNat - 0x80) := by
  constructor
  · intro h
    cases h with
    | @more _ _ _ _ _ b₁ _ hlow hhigh h =>
      obtain ⟨b₂, b₃, rfl, h₂, h₃, hn⟩ := continues_two_iff.1 h
      exact ⟨b₁, b₂, b₃, rfl, ⟨hlow, hhigh⟩, h₂, h₃, hn⟩
  · rintro ⟨b₁, b₂, b₃, rfl, h₁, h₂, h₃, hn⟩
    exact .more h₁.1 h₁.2 (continues_two_iff.2 ⟨b₂, b₃, rfl, h₂, h₃, hn⟩)

/-- What a lead byte asks for is written as the character that it adds up to: the range of the
second byte keeps out what is too long, a surrogate or too large. -/
theorem encodeChar_of_first (hfirst : first b.toNat = ([], .inside owed low high value))
    (h : Continues owed low high value bytes n) : utf8EncodeChar (Char.ofNat n) = b :: bytes := by
  unfold first at hfirst
  split at hfirst
  next => cases hfirst
  split at hfirst
  next hb =>
    cases hfirst
    obtain ⟨b₁, rfl, h₁, hn⟩ := continues_one_iff.1 h
    exact encodeChar_two hb h₁ hn
  split at hfirst
  next hb =>
    cases hfirst
    obtain ⟨b₁, b₂, rfl, h₁, h₂, hn⟩ := continues_two_iff.1 h
    exact encodeChar_three (by omega) (by omega) h₂ (by omega) (by omega) (by omega)
  split at hfirst
  next hb =>
    cases hfirst
    obtain ⟨b₁, b₂, rfl, h₁, h₂, hn⟩ := continues_two_iff.1 h
    exact encodeChar_three (by omega) (by omega) h₂ (by omega) (by omega) (by omega)
  split at hfirst
  next hb =>
    cases hfirst
    obtain ⟨b₁, b₂, rfl, h₁, h₂, hn⟩ := continues_two_iff.1 h
    exact encodeChar_three (by omega) h₁ h₂ (by omega) (by omega) hn
  split at hfirst
  next hb =>
    cases hfirst
    obtain ⟨b₁, b₂, b₃, rfl, h₁, h₂, h₃, hn⟩ := continues_three_iff.1 h
    exact encodeChar_four (by omega) (by omega) h₂ h₃ (by omega) (by omega) (by omega)
  split at hfirst
  next hb =>
    cases hfirst
    obtain ⟨b₁, b₂, b₃, rfl, h₁, h₂, h₃, hn⟩ := continues_three_iff.1 h
    exact encodeChar_four (by omega) h₁ h₂ h₃ (by omega) (by omega) hn
  split at hfirst
  next hb =>
    cases hfirst
    obtain ⟨b₁, b₂, b₃, rfl, h₁, h₂, h₃, hn⟩ := continues_three_iff.1 h
    exact encodeChar_four (by omega) (by omega) h₂ h₃ (by omega) (by omega) (by omega)
  next => cases hfirst

/-! ### Whole texts -/

/-- Bytes in which nothing is ill-formed are those of a text. -/
theorem encoded_of_pieces :
    (bytes : Bytes) → (∀ piece ∈ piecesFrom .start bytes, piece.isSome = true) →
      ∃ chars : List Char, bytes = chars.flatMap utf8EncodeChar
  | [], _ => ⟨[], rfl⟩
  | b :: rest, h => by
    rcases first_cases b.toNat with hb | ⟨owed, low, high, value, hfirst⟩ | hfirst
    · have hpieces : piecesFrom .start (b :: rest) =
          some (Char.ofNat b.toNat) :: piecesFrom .start rest := by
        rw [piecesFrom, step_ascii State.wide_start hb]
        rfl
      rw [hpieces] at h
      obtain ⟨chars, hchars⟩ :=
        encoded_of_pieces rest fun piece hpiece => h piece (List.mem_cons_of_mem _ hpiece)
      have hascii : (Char.ofNat b.toNat).toNat = b.toNat := toNat_char (.inl (by omega))
      refine ⟨Char.ofNat b.toNat :: chars, ?_⟩
      rw [List.flatMap_cons, encode_ascii (by omega), hascii, UInt8.ofNat_toNat, ← hchars]
      rfl
    · have hpieces : piecesFrom .start (b :: rest) =
          piecesFrom (.inside owed low high value) rest := by
        rw [piecesFrom, step, hfirst]
        rfl
      rw [hpieces] at h
      obtain ⟨front, more, n, hrest, hfront⟩ := continues_of_pieces h
      rw [hrest, piecesFrom_continues hfront] at h
      have hshort : more.length ≤ rest.length := by
        rw [hrest, List.length_append]
        omega
      obtain ⟨chars, hchars⟩ :=
        encoded_of_pieces more fun piece hpiece => h piece (List.mem_cons_of_mem _ hpiece)
      refine ⟨Char.ofNat n :: chars, ?_⟩
      rw [List.flatMap_cons, encodeChar_of_first hfirst hfront, ← hchars, hrest]
      rfl
    · rw [piecesFrom, step, hfirst] at h
      cases h none (List.mem_append_left _ List.mem_cons_self)
termination_by bytes => bytes.length
decreasing_by
  · exact Nat.lt_succ_self _
  · exact Nat.lt_succ_of_le hshort

/-- A lead byte with the bytes that it asks for is read as their character. -/
theorem piecesFrom_lead (hfirst : first b.toNat = ([], .inside owed low high value))
    (h : Continues owed low high value bytes n) (more : Bytes) :
    piecesFrom .start (b :: bytes ++ more) = some (Char.ofNat n) :: piecesFrom .start more := by
  rw [List.cons_append, piecesFrom, step, hfirst]
  exact piecesFrom_continues h more

theorem first_two {b : Nat} (hb : 0xC2 ≤ b ∧ b ≤ 0xDF) :
    first b = ([], .inside 0 0x80 0xBF (b - 0xC0)) := by
  rw [first, if_neg (by omega), if_pos hb]

theorem first_three (b b₁ : Nat) (hb : 0xE0 ≤ b ∧ b ≤ 0xEF) (h₁ : 0x80 ≤ b₁ ∧ b₁ ≤ 0xBF)
    (hlong : b = 0xE0 → 0xA0 ≤ b₁) (hpair : b = 0xED → b₁ ≤ 0x9F) :
    ∃ low high, first b = ([], .inside 1 low high (b - 0xE0)) ∧ low ≤ b₁ ∧ b₁ ≤ high := by
  rw [first, if_neg (by omega), if_neg (by omega)]
  split
  next heq => exact ⟨0xA0, 0xBF, by rw [heq], hlong heq, h₁.2⟩
  split
  next heq => exact ⟨0x80, 0x9F, by rw [heq], h₁.1, hpair heq⟩
  rw [if_pos (by omega)]
  exact ⟨0x80, 0xBF, rfl, h₁⟩

theorem first_four (b b₁ : Nat) (hb : 0xF0 ≤ b ∧ b ≤ 0xF4) (h₁ : 0x80 ≤ b₁ ∧ b₁ ≤ 0xBF)
    (hlong : b = 0xF0 → 0x90 ≤ b₁) (hlarge : b = 0xF4 → b₁ ≤ 0x8F) :
    ∃ low high, first b = ([], .inside 2 low high (b - 0xF0)) ∧ low ≤ b₁ ∧ b₁ ≤ high := by
  rw [first, if_neg (by omega), if_neg (by omega), if_neg (by omega), if_neg (by omega),
    if_neg (by omega)]
  split
  next heq => exact ⟨0x90, 0xBF, by rw [heq], hlong heq, h₁.2⟩
  split
  next heq => exact ⟨0x80, 0xBF, rfl, h₁⟩
  rw [if_pos (by omega)]
  exact ⟨0x80, 0x8F, by rw [show b = 0xF4 by omega], h₁.1, hlarge (by omega)⟩

theorem piecesFrom_two {b₁ : UInt8} (hn : 0x7F < n ∧ n ≤ 0x7FF) (hb : b.toNat = n / 64 % 32 + 192)
    (h₁ : b₁.toNat = n % 64 + 128) (more : Bytes) :
    piecesFrom .start ([b, b₁] ++ more) = some (Char.ofNat n) :: piecesFrom .start more := by
  have hfirst := first_two (b := b.toNat) (by omega)
  exact piecesFrom_lead hfirst (continues_one_iff.2 ⟨b₁, rfl, by omega, by omega⟩) more

theorem piecesFrom_three {b₁ b₂ : UInt8} (hn : 0x7FF < n ∧ n ≤ 0xFFFF)
    (hpair : n < 0xD800 ∨ 0xDFFF < n) (hb : b.toNat = n / 4096 % 16 + 224)
    (h₁ : b₁.toNat = n / 64 % 64 + 128) (h₂ : b₂.toNat = n % 64 + 128) (more : Bytes) :
    piecesFrom .start ([b, b₁, b₂] ++ more) = some (Char.ofNat n) :: piecesFrom .start more := by
  obtain ⟨low, high, hfirst, hrange⟩ :=
    first_three b.toNat b₁.toNat (by omega) (by omega) (by omega) (by omega)
  exact piecesFrom_lead hfirst
    (continues_two_iff.2 ⟨b₁, b₂, rfl, hrange, by omega, by omega⟩) more

theorem piecesFrom_four {b₁ b₂ b₃ : UInt8} (hn : 0xFFFF < n ∧ n < 0x110000)
    (hb : b.toNat = n / 262144 % 8 + 240) (h₁ : b₁.toNat = n / 4096 % 64 + 128)
    (h₂ : b₂.toNat = n / 64 % 64 + 128) (h₃ : b₃.toNat = n % 64 + 128) (more : Bytes) :
    piecesFrom .start ([b, b₁, b₂, b₃] ++ more) = some (Char.ofNat n) :: piecesFrom .start more := by
  obtain ⟨low, high, hfirst, hrange⟩ :=
    first_four b.toNat b₁.toNat (by omega) (by omega) (by omega) (by omega)
  exact piecesFrom_lead hfirst
    (continues_three_iff.2 ⟨b₁, b₂, b₃, rfl, hrange, by omega, by omega, by omega⟩) more

theorem toNat_byte_of_lt {m : Nat} (hm : m < 256) : (UInt8.ofNat m).toNat = m := by
  rw [UInt8.toNat_ofNat', Nat.mod_eq_of_lt hm]

/-- Every character is read as it was written, whatever comes behind it. -/
theorem piecesFrom_encodeChar (c : Char) (more : Bytes) :
    piecesFrom .start (utf8EncodeChar c ++ more) = some c :: piecesFrom .start more := by
  have hvalid : c.toNat < 0xD800 ∨ 0xDFFF < c.toNat ∧ c.toNat < 0x110000 := c.valid
  have hval : c.val.toNat = c.toNat := rfl
  have hchar : Char.ofNat c.toNat = c := Char.ofNat_toNat c
  by_cases h₁ : c.toNat ≤ 0x7F
  · have hb := toNat_byte (c := c) (by omega)
    rw [encode_ascii (by omega), List.singleton_append, piecesFrom,
      step_ascii State.wide_start (by omega), hb, hchar]
    rfl
  conv => rhs; rw [← hchar]
  by_cases h₂ : c.toNat ≤ 0x7FF
  · simp only [utf8EncodeChar, hval, if_neg h₁, if_pos h₂]
    exact piecesFrom_two (by omega) (toNat_byte_of_lt (by omega)) (toNat_byte_of_lt (by omega)) more
  by_cases h₃ : c.toNat ≤ 0xFFFF
  · simp only [utf8EncodeChar, hval, if_neg h₁, if_neg h₂, if_pos h₃]
    exact piecesFrom_three (by omega) (by omega) (toNat_byte_of_lt (by omega))
      (toNat_byte_of_lt (by omega)) (toNat_byte_of_lt (by omega)) more
  · simp only [utf8EncodeChar, hval, if_neg h₁, if_neg h₂, if_neg h₃]
    exact piecesFrom_four (by omega) (toNat_byte_of_lt (by omega)) (toNat_byte_of_lt (by omega))
      (toNat_byte_of_lt (by omega)) (toNat_byte_of_lt (by omega)) more

theorem pieces_encoded (chars : List Char) :
    pieces (chars.flatMap utf8EncodeChar) = chars.map some := by
  rw [pieces_eq]
  induction chars with
  | nil => rfl
  | cons c rest ih => rw [List.flatMap_cons, piecesFrom_encodeChar, ih, List.map_cons]

theorem decode?_encoded (chars : List Char) :
    decode? (chars.flatMap utf8EncodeChar) = some chars := by
  have hall : (chars.map some).all (·.isSome) = true := by simp
  have htext : (chars.map some).filterMap id = chars := by simp
  simp only [decode?, pieces_encoded, hall, htext, if_true]

/-- Bytes are read strictly exactly if they are what the text is written as. -/
theorem decode?_eq_some_iff {content : Bytes} {text : List Char} :
    decode? content = some text ↔ content = encode (String.ofList text) := by
  rw [encode_eq, String.toList_ofList]
  constructor
  · intro h
    unfold decode? at h
    dsimp only at h
    split at h
    next hall =>
      rw [pieces_eq] at hall
      obtain ⟨chars, rfl⟩ := encoded_of_pieces content (List.all_eq_true.1 hall)
      rw [pieces_encoded] at h
      have htext : (chars.map some).filterMap id = chars := by simp
      rw [htext] at h
      rw [Option.some.inj h]
    next => cases h
  · rintro rfl
    exact decode?_encoded text

theorem decode?_encode (text : String) : decode? (encode text) = some text.toList := by
  rw [decode?_eq_some_iff, String.ofList_toList]

theorem encode_inj {text other : String} (h : encode text = encode other) : text = other := by
  have hdecode := decode?_encode text
  rw [h, decode?_encode] at hdecode
  exact (String.toList_inj.1 (Option.some.inj hdecode)).symm

theorem decode?_eq_none_iff {content : Bytes} :
    decode? content = none ↔ ∀ text, content ≠ encode text := by
  rw [Option.eq_none_iff_forall_ne_some]
  constructor
  · rintro h text rfl
    exact h text.toList (decode?_encode text)
  · intro h text hread
    exact h _ (decode?_eq_some_iff.1 hread)

/-! ### Reading with replacements -/

end TriplePass.Utf8

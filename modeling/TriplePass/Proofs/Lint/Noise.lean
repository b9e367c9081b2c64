import TriplePass.Lint.Noise
import TriplePass.Proofs.Lint.Line
import TriplePass.Proofs.Text.Token

/-! # Noise is a search for whole tokens

A phrase that starts and ends with a word has a word boundary at both ends exactly where a text
that says it stands as a token of its own. So a warning is suppressed exactly if one of the texts
that a noisy phrase stands for is a token of its message, whatever number is in it.
-/
namespace TriplePass.Lint
open Text (isDigit isEdge isIdentifier standsAlone TokenIn)
variable {phrase : Phrase} {word : List Char} {c c' : Cursor}

/-- A text that a phrase stands for: its words, and a run of digits for each numeral. -/
inductive Says : Phrase → List Char → Prop where
  | nil : Says [] []
  | words {text word : List Char} {rest : Phrase} : Says rest word →
    Says (.words text :: rest) (text ++ word)
  | numeral {digits word : List Char} {rest : Phrase} : digits ≠ [] →
    (∀ d ∈ digits, isDigit d = true) → Says rest word → Says (.numeral :: rest) (digits ++ word)

def Phrase.isDefinite : Phrase → Bool
  | [] => true
  | .words _ :: rest => isDefinite rest
  | .numeral :: rest =>
    (match rest with
      | .words (d :: _) :: _ => !isDigit d
      | _ => false) && isDefinite rest

def Phrase.isFramed (phrase : Phrase) : Bool :=
  (match phrase.head? with
    | some (.words text) => text.head?.any isIdentifier
    | _ => false) &&
  (match phrase.getLast? with
    | some (.words text) => text.getLast?.any isIdentifier
    | _ => false)

theorem noisyPhrases_regular :
    ∀ phrase ∈ noisyPhrases, phrase.isDefinite = true ∧ phrase.isFramed = true := by
  decide

/-! ### Reading a phrase -/

namespace Cursor

theorem past_past (c : Cursor) (a b : List Char) : (c.past a).past b = c.past (a ++ b) := by
  simp [past, List.getLast?_append, Option.or_assoc]

theorem rest_past {back : List Char} (h : c.rest = word ++ back) : (c.past word).rest = back := by
  rw [past, h, List.drop_left]

end Cursor

theorem pass?_words {text : List Char} :
    (Piece.words text).pass? c = some c' ↔ text <+: c.rest ∧ c' = c.past text := by
  rw [Piece.pass?, ← List.isPrefixOf_iff_prefix]
  split
  next h => simp [h, eq_comm]
  next h => simp [h]

theorem pass?_numeral :
    Piece.numeral.pass? c = some c' ↔
      c.rest.takeWhile isDigit ≠ [] ∧ c' = c.past (c.rest.takeWhile isDigit) := by
  rw [Piece.pass?]
  split
  next h => simp [List.isEmpty_iff.1 h]
  next h => simp [List.isEmpty_iff.not.1 h, eq_comm]

/-- What was passed over says the phrase. -/
theorem says_of_pass (h : phrase.foldlM (fun c (piece : Piece) => piece.pass? c) c = some c') :
    ∃ word, Says phrase word ∧ word <+: c.rest ∧ c' = c.past word := by
  induction phrase generalizing c with
  | nil =>
    cases h
    exact ⟨[], .nil, List.nil_prefix, rfl⟩
  | cons piece rest ih =>
    rw [List.foldlM_cons] at h
    obtain ⟨c₁, hpiece, hrest⟩ := Option.bind_eq_some_iff.1 h
    obtain ⟨word, hsaid, hword, hpast⟩ := ih hrest
    cases piece with
    | words text =>
      obtain ⟨htext, hc₁⟩ := pass?_words.1 hpiece
      obtain ⟨after, hafter⟩ := htext
      rw [hc₁, Cursor.rest_past hafter.symm] at hword
      refine ⟨text ++ word, .words hsaid, ?_, ?_⟩
      · rw [← hafter]
        exact (List.prefix_append_right_inj text).2 hword
      · rw [hpast, hc₁, Cursor.past_past]
    | numeral =>
      obtain ⟨hdigits, hc₁⟩ := pass?_numeral.1 hpiece
      have hafter : c.rest = c.rest.takeWhile isDigit ++ c.rest.dropWhile isDigit :=
        List.takeWhile_append_dropWhile.symm
      rw [hc₁, Cursor.rest_past hafter] at hword
      refine ⟨c.rest.takeWhile isDigit ++ word,
        .numeral hdigits (fun d hd => List.mem_takeWhile_imp hd) hsaid, ?_, ?_⟩
      · conv => rhs; rw [hafter]
        exact (List.prefix_append_right_inj _).2 hword
      · rw [hpast, hc₁, Cursor.past_past]

/-- A run of digits ends where a word starts that starts with no digit. -/
theorem takeWhile_digits {digits : List Char} (hdigits : ∀ d ∈ digits, isDigit d = true)
    {rest : Phrase} (hdefinite : Phrase.isDefinite (.numeral :: rest) = true)
    (hsaid : Says rest word) (back : List Char) :
    (digits ++ (word ++ back)).takeWhile isDigit = digits := by
  simp only [Phrase.isDefinite, Bool.and_eq_true] at hdefinite
  split at hdefinite
  next d text rest =>
    have hd : isDigit d = false := by simpa using hdefinite.1
    cases hsaid
    rw [List.append_assoc, List.cons_append, Text.takeWhile_all hdigits hd]
  next => cases hdefinite.1

/-- Whatever says a definite phrase is passed over by it. -/
theorem pass_of_says (hsaid : Says phrase word) (hdefinite : phrase.isDefinite = true)
    (hword : word <+: c.rest) :
    phrase.foldlM (fun c (piece : Piece) => piece.pass? c) c = some (c.past word) := by
  induction hsaid generalizing c with
  | nil => rfl
  | @words text word rest hsaid ih =>
    obtain ⟨back, hback⟩ := hword
    rw [List.append_assoc] at hback
    have hpiece : (Piece.words text).pass? c = some (c.past text) :=
      pass?_words.2 ⟨⟨word ++ back, hback⟩, rfl⟩
    have hrest : (c.past text).rest = word ++ back := Cursor.rest_past hback.symm
    rw [List.foldlM_cons, hpiece, Option.bind_eq_bind, Option.bind_some,
      ih hdefinite ⟨back, hrest.symm⟩, Cursor.past_past]
  | @numeral digits word rest hne hdigits hsaid ih =>
    obtain ⟨back, hback⟩ := hword
    rw [List.append_assoc] at hback
    have hrun : c.rest.takeWhile isDigit = digits := by
      rw [← hback, takeWhile_digits hdigits hdefinite hsaid]
    have hpiece : Piece.numeral.pass? c = some (c.past digits) :=
      pass?_numeral.2 ⟨hrun ▸ hne, by rw [hrun]⟩
    have hrest : (c.past digits).rest = word ++ back := Cursor.rest_past hback.symm
    have hlater : Phrase.isDefinite rest = true := (Bool.and_eq_true_iff.1 hdefinite).2
    rw [List.foldlM_cons, hpiece, Option.bind_eq_bind, Option.bind_some,
      ih hlater ⟨back, hrest.symm⟩, Cursor.past_past]

/-! ### The ends of a phrase -/

theorem head_of_says (hsaid : Says phrase word) (hframed : phrase.isFramed = true) :
    ∃ d, word.head? = some d ∧ isIdentifier d = true := by
  have hfirst := (Bool.and_eq_true_iff.1 hframed).1
  cases hsaid with
  | nil => cases hfirst
  | numeral => cases hfirst
  | @words text word rest =>
    obtain ⟨d, hd, hid⟩ := (Option.any_eq_true _ _).1 hfirst
    refine ⟨d, ?_, hid⟩
    rw [List.head?_append, hd, Option.some_or]

theorem getLast_of_words (hsaid : Says phrase word) {text : List Char} {d : Char}
    (hlast : phrase.getLast? = some (.words text)) (hd : text.getLast? = some d) :
    word.getLast? = some d := by
  induction hsaid with
  | nil => cases hlast
  | @words front word rest hsaid ih =>
    cases rest with
    | nil =>
      cases hsaid
      cases hlast
      rwa [List.append_nil]
    | cons piece rest =>
      rw [List.getLast?_cons_cons] at hlast
      rw [List.getLast?_append, ih hlast, Option.some_or]
  | @numeral digits word rest _ _ hsaid ih =>
    cases rest with
    | nil => cases hlast
    | cons piece rest =>
      rw [List.getLast?_cons_cons] at hlast
      rw [List.getLast?_append, ih hlast, Option.some_or]

theorem getLast_of_says (hsaid : Says phrase word) (hframed : phrase.isFramed = true) :
    ∃ d, word.getLast? = some d ∧ isIdentifier d = true := by
  have hend := (Bool.and_eq_true_iff.1 hframed).2
  split at hend
  next text hlast =>
    obtain ⟨d, hd, hid⟩ := (Option.any_eq_true _ _).1 hend
    exact ⟨d, getLast_of_words hsaid hlast hd, hid⟩
  next => cases hend

theorem isWord_eq (neighbour : Option Char) : Cursor.isWord neighbour = !isEdge neighbour := by
  cases neighbour <;> simp [Cursor.isWord, isEdge]

/-- In front of a word there is a boundary exactly where nothing leads into it. -/
theorem isBoundary_of_head {d : Char} (hd : c.rest.head? = some d) (hid : isIdentifier d = true) :
    c.isBoundary = isEdge c.before := by
  have hword : Cursor.isWord (some d) = true := hid
  rw [Cursor.isBoundary, hd, hword, isWord_eq]
  cases isEdge c.before <;> rfl

/-- Behind a word there is a boundary exactly where nothing goes on. -/
theorem isBoundary_of_getLast {d : Char} (hd : word.getLast? = some d)
    (hid : isIdentifier d = true) :
    (c.past word).isBoundary = isEdge (c.rest.drop word.length).head? := by
  have hword : Cursor.isWord (some d) = true := hid
  rw [Cursor.isBoundary, Cursor.past, hd, Option.some_or, hword, isWord_eq]
  cases isEdge (c.rest.drop word.length).head? <;> rfl

theorem boundaries_iff (hsaid : Says phrase word) (hframed : phrase.isFramed = true)
    (hword : word <+: c.rest) :
    c.isBoundary = true ∧ (c.past word).isBoundary = true ↔
      standsAlone word c.before c.rest = true := by
  obtain ⟨first, hfirst, hfirstId⟩ := head_of_says hsaid hframed
  obtain ⟨last, hlast, hlastId⟩ := getLast_of_says hsaid hframed
  have hhead : c.rest.head? = some first := by
    obtain ⟨back, hback⟩ := hword
    rw [← hback, List.head?_append, hfirst, Option.some_or]
  rw [isBoundary_of_head hhead hfirstId, isBoundary_of_getLast hlast hlastId, standsAlone,
    Bool.and_eq_true]

/-! ### Looking for a phrase -/

section Search
variable (hdefinite : phrase.isDefinite = true) (hframed : phrase.isFramed = true)
include hdefinite hframed

theorem isHere_iff :
    phrase.isHere c = true ↔
      ∃ word, Says phrase word ∧ word <+: c.rest ∧ standsAlone word c.before c.rest = true := by
  rw [Phrase.isHere, Bool.and_eq_true, Option.any_eq_true]
  constructor
  · rintro ⟨hbefore, c', hpass, hbehind⟩
    obtain ⟨word, hsaid, hword, rfl⟩ := says_of_pass hpass
    exact ⟨word, hsaid, hword, (boundaries_iff hsaid hframed hword).1 ⟨hbefore, hbehind⟩⟩
  · rintro ⟨word, hsaid, hword, halone⟩
    obtain ⟨hbefore, hbehind⟩ := (boundaries_iff hsaid hframed hword).2 halone
    exact ⟨hbefore, c.past word, pass_of_says hsaid hdefinite hword, hbehind⟩

theorem occursFrom_iff (before : Option Char) (text : List Char) :
    phrase.occursFrom before text = true ↔ ∃ word, Says phrase word ∧ TokenIn word before text := by
  induction text generalizing before with
  | nil =>
    rw [Phrase.occursFrom, isHere_iff hdefinite hframed]
    simp only [Text.tokenIn_nil_iff]
  | cons d text ih =>
    rw [Phrase.occursFrom, Bool.or_eq_true, isHere_iff hdefinite hframed, ih]
    simp only [Text.tokenIn_cons_iff, and_or_left, exists_or]

/-- A phrase occurs where a text that says it is a token. -/
theorem occursIn_iff (text : List Char) :
    phrase.occursIn text = true ↔ ∃ word, Says phrase word ∧ Text.hasToken word text = true := by
  rw [Phrase.occursIn, occursFrom_iff hdefinite hframed]
  simp only [Text.hasToken, Text.tokenFrom_iff]

end Search

/-! ### The noisy phrases -/

theorem says_words {text : List Char} : Says [.words text] word ↔ word = text := by
  constructor
  · intro h
    cases h with
    | words hrest =>
      cases hrest
      exact List.append_nil text
  · rintro rfl
    have h : Says [.words word] (word ++ []) := .words .nil
    rwa [List.append_nil] at h

theorem says_number {front behind : List Char} :
    Says [.words front, .numeral, .words behind] word ↔
      ∃ digits, digits ≠ [] ∧ (∀ d ∈ digits, isDigit d = true) ∧
        word = front ++ digits ++ behind := by
  constructor
  · intro h
    cases h with
    | words hrest =>
      cases hrest with
      | @numeral digits _ _ hne hdigits hlast =>
        rw [says_words.1 hlast]
        exact ⟨digits, hne, hdigits, (List.append_assoc front digits behind).symm⟩
  · rintro ⟨digits, hne, hdigits, rfl⟩
    rw [List.append_assoc]
    exact .words (.numeral hne hdigits (says_words.2 rfl))

theorem isSuppressed_iff_phrase (d : Diagnostic) :
    isSuppressed d = true ↔ d.severity = .warning ∧ ∃ phrase ∈ noisyPhrases,
      ∃ word, Says phrase word ∧ Text.hasToken word d.message.toList = true := by
  rw [isSuppressed, Bool.and_eq_true, beq_iff_eq, List.any_eq_true]
  refine and_congr_right fun _ => exists_congr fun phrase => and_congr_right fun hphrase => ?_
  obtain ⟨hdefinite, hframed⟩ := noisyPhrases_regular phrase hphrase
  exact occursIn_iff hdefinite hframed d.message.toList

/-- A diagnostic is suppressed exactly if it is a warning and its message has, as a token of its
own, one of the two fixed remarks or the one on long lines with any number in it. -/
theorem isSuppressed_iff_token (d : Diagnostic) :
    isSuppressed d = true ↔ d.severity = .warning ∧
      (Text.hasToken "is undocumented".toList d.message.toList = true ∨
        Text.hasToken "does not match style guidelines".toList d.message.toList = true ∨
        ∃ digits : String, digits ≠ "" ∧ (∀ c ∈ digits.toList, isDigit c = true) ∧
          Text.hasToken ("Line is longer than " ++ digits ++ " characters").toList
            d.message.toList = true) := by
  rw [isSuppressed_iff_phrase]
  refine and_congr_right fun _ => ?_
  simp only [noisyPhrases, List.mem_cons, List.not_mem_nil, or_false, exists_eq_or_imp,
    exists_eq_left, says_words, says_number]
  constructor
  · rintro (h | ⟨_, ⟨digits, hne, hdigits, rfl⟩, h⟩ | h)
    · exact .inl h
    · refine .inr (.inr ⟨String.ofList digits, ?_, ?_, ?_⟩)
      · exact fun hempty => hne (by simpa using congrArg String.toList hempty)
      · rwa [String.toList_ofList]
      · simpa only [String.toList_append, String.toList_ofList] using h
    · exact .inr (.inl h)
  · rintro (h | h | ⟨digits, hne, hdigits, h⟩)
    · exact .inl h
    · exact .inr (.inr h)
    · refine .inr (.inl ⟨_, ⟨digits.toList, ?_, hdigits, rfl⟩, ?_⟩)
      · exact fun hempty => hne (String.toList_eq_nil_iff.1 hempty)
      · simpa only [String.toList_append] using h

/-- A number may be written in any script; without a blank behind it there is no remark. -/
example :
    isSuppressed ⟨"a.d", none, none, .warning, "Line is longer than ١٢٠ characters", "dscanner"⟩ =
        true ∧
      isSuppressed ⟨"a.d", none, none, .warning, "Line is longer than 120characters", "dscanner"⟩ =
        false := by
  decide +kernel

end TriplePass.Lint

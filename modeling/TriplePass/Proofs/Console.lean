import TriplePass.Console
import TriplePass.Proofs.Text.Runs

/-! # Debug messages are shown whole

A debug message is shown in pieces: its `key=value` pairs from left to right, each taken where the
first one starts behind the last, and what stands between them. The pieces in a row are the message
again, whatever quotes and equals signs there are in it.
-/
namespace TriplePass.Console
variable {s key value rest gap last : List Char}

/-! ### Values -/

def IsQuoted (value : List Char) : Prop :=
  ∃ inner, value = '"' :: (inner ++ ['"']) ∧ ∀ c ∈ inner, c ≠ '"' ∧ c ≠ '\n'

inductive ValueBefore : (value rest : List Char) → Prop where
  | quoted {value rest : List Char} : IsQuoted value → ValueBefore value rest
  | run {value rest : List Char} : value ≠ [] → (∀ c ∈ value, Text.isBlank c = false) →
      (∀ c ∈ rest.head?, Text.isBlank c = true) →
      (∀ quoted, IsQuoted quoted → ¬quoted <+: value ++ rest) → ValueBefore value rest

theorem quotedValue?_eq_some_iff : quotedValue? s = some value ↔ IsQuoted value ∧ value <+: s := by
  constructor
  · intro h
    unfold quotedValue? at h
    split at h
    next cs =>
      obtain ⟨inner, rest, rfl, hrun, hinner, -⟩ :=
        Text.exists_run (fun c => c != '"' && c != '\n') cs
      simp only [hrun, List.drop_left] at h
      split at h
      next behind =>
        obtain rfl := Option.some.inj h
        refine ⟨⟨inner, rfl, ?_⟩, behind, by simp⟩
        intro c hc
        simpa using hinner c hc
      next => cases h
    next => cases h
  · rintro ⟨⟨inner, rfl, hinner⟩, behind, rfl⟩
    have hrun : (inner ++ '"' :: behind).takeWhile (fun c => c != '"' && c != '\n') = inner :=
      Text.takeWhile_all (fun c hc => by simpa using hinner c hc) (by decide) behind
    simp only [quotedValue?, List.cons_append, List.append_assoc, List.nil_append, hrun,
      List.drop_left]

theorem quotedValue?_eq_none_iff :
    quotedValue? s = none ↔ ∀ quoted, IsQuoted quoted → ¬quoted <+: s := by
  simp only [Option.eq_none_iff_forall_ne_some, ne_eq, quotedValue?_eq_some_iff, not_and]

theorem value?_eq_some_iff :
    value? s = some value ↔ ∃ rest, s = value ++ rest ∧ ValueBefore value rest := by
  constructor
  · intro h
    unfold value? at h
    split at h
    next quoted hquoted =>
      obtain rfl := Option.some.inj h
      obtain ⟨hvalue, rest, rfl⟩ := quotedValue?_eq_some_iff.1 hquoted
      exact ⟨rest, rfl, .quoted hvalue⟩
    next hquoted =>
      obtain ⟨run, rest, rfl, hrun, hblank, hhead⟩ := Text.exists_run (!Text.isBlank ·) s
      simp only [hrun] at h
      split at h
      · cases h
      next hne =>
        obtain rfl := Option.some.inj h
        refine ⟨rest, rfl, .run (by simpa using hne) ?_ ?_ (quotedValue?_eq_none_iff.1 hquoted)⟩
        · intro c hc
          simpa using hblank c hc
        · intro c hc
          simpa using hhead c hc
  · rintro ⟨rest, rfl, hvalue⟩
    cases hvalue with
    | quoted hquoted =>
      have hread := quotedValue?_eq_some_iff.2 ⟨hquoted, List.prefix_append value rest⟩
      rw [value?, hread]
    | run hne hblank hhead hquoted =>
      have hrun : (value ++ rest).takeWhile (!Text.isBlank ·) = value := by
        apply Text.takeWhile_run
        · intro c hc
          simpa using hblank c hc
        · intro c hc
          simpa using hhead c hc
      rw [value?, quotedValue?_eq_none_iff.2 hquoted]
      simp only [hrun]
      exact if_neg fun hempty => hne (List.isEmpty_iff.1 hempty)

/-! ### Pairs -/

structure PairBefore (key value rest : List Char) : Prop where
  named : key ≠ []
  key : ∀ c ∈ key, isKeyCharacter c = true
  value : ValueBefore value rest

theorem pair?_eq_some_iff :
    pair? s = some (key, value) ↔
      ∃ rest, s = key ++ '=' :: (value ++ rest) ∧ PairBefore key value rest := by
  constructor
  · intro h
    obtain ⟨run, behind, rfl, hrun, hkey, -⟩ := Text.exists_run isKeyCharacter s
    simp only [pair?, hrun, List.drop_left] at h
    split at h
    · cases h
    next hne =>
      split at h
      next text =>
        obtain ⟨v, hvalue, heq⟩ := Option.map_eq_some_iff.1 h
        obtain ⟨rfl, rfl⟩ := Prod.mk.inj heq
        obtain ⟨rest, rfl, hbefore⟩ := value?_eq_some_iff.1 hvalue
        exact ⟨rest, rfl, by simpa using hne, hkey, hbefore⟩
      next => cases h
  · rintro ⟨rest, rfl, hne, hkey, hvalue⟩
    have hrun : (key ++ '=' :: (value ++ rest)).takeWhile isKeyCharacter = key :=
      Text.takeWhile_all hkey (by decide) _
    have hread := value?_eq_some_iff.2 ⟨rest, rfl, hvalue⟩
    simp only [pair?, hrun, List.drop_left, hread, Option.map_some]
    exact if_neg fun hempty => hne (List.isEmpty_iff.1 hempty)

def StartsPair (s : List Char) : Prop :=
  ∃ key value rest, s = key ++ '=' :: (value ++ rest) ∧ PairBefore key value rest

theorem not_startsPair_nil : ¬StartsPair [] := by
  rintro ⟨key, value, rest, h, -⟩
  simp at h

theorem not_startsPair_of_pair? (h : pair? s = none) : ¬StartsPair s := by
  rintro ⟨key, value, rest, hs, hpair⟩
  have hread := pair?_eq_some_iff.2 ⟨rest, hs, hpair⟩
  rw [h] at hread
  cases hread

/-! ### Parts of a message -/

/-- A pair with what stands in front of it, behind the pair before. -/
@[ext]
structure Part where
  gap : List Char
  key : List Char
  value : List Char

namespace Part

def text (p : Part) : List Char :=
  p.gap ++ p.key ++ '=' :: p.value

def pieces (p : Part) : List Piece :=
  gapPiece p.gap ++ pairPieces p.key p.value

end Part

/-- No pair starts within the gap, when the text goes on with `rest` behind it. -/
def IsGap (gap rest : List Char) : Prop :=
  ∀ front back, gap = front ++ back → back ≠ [] → ¬StartsPair (back ++ rest)

theorem isGap_nil (rest : List Char) : IsGap [] rest := by
  intro front back h hne
  exact absurd (List.append_eq_nil_iff.1 h.symm).2 hne

theorem IsGap.concat {c : Char} (h : IsGap gap (c :: rest)) (hc : ¬StartsPair (c :: rest)) :
    IsGap (gap ++ [c]) rest := by
  intro front back hsplit hne
  rcases List.eq_nil_or_concat back with rfl | ⟨back, d, rfl⟩
  · exact absurd rfl hne
  rw [List.concat_eq_append, ← List.append_assoc] at hsplit
  obtain ⟨rfl, hd⟩ := List.append_inj' hsplit rfl
  obtain rfl := (List.cons.inj hd).1
  rw [List.concat_eq_append, List.append_assoc, List.singleton_append]
  by_cases hempty : back = []
  · rw [hempty]
    exact hc
  · exact h front back rfl hempty

inductive Parted : (message : List Char) → List Part → (last : List Char) → Prop where
  | last {last : List Char} : IsGap last [] → Parted last [] last
  | pair {p : Part} {rest last : List Char} {parts : List Part} :
      IsGap p.gap (p.key ++ '=' :: (p.value ++ rest)) → PairBefore p.key p.value rest →
      Parted rest parts last → Parted (p.text ++ rest) (p :: parts) last

def shown (pieces : List Piece) : List Char :=
  pieces.flatMap (·.2)

theorem shown_append (pieces more : List Piece) : shown (pieces ++ more) = shown pieces ++ shown more :=
  List.flatMap_append

theorem shown_gapPiece (gap : List Char) : shown (gapPiece gap) = gap := by
  cases gap <;> simp [shown, gapPiece]

theorem Part.shown_pieces (p : Part) : shown p.pieces = p.text := by
  rw [Part.pieces, shown_append, shown_gapPiece, Part.text, List.append_assoc]
  simp [shown, pairPieces]

theorem Parted.shown_eq {message : List Char} {parts : List Part} (h : Parted message parts last) :
    shown (parts.flatMap Part.pieces ++ gapPiece last) = message := by
  induction h with
  | last _ => exact shown_gapPiece _
  | @pair p rest last parts _ _ _ ih =>
    rw [List.flatMap_cons, List.append_assoc, shown_append, p.shown_pieces, ih]

/-- The highlighting goes on from a gap in which no pair starts. -/
theorem exists_parted (hgap : IsGap gap s) :
    ∃ parts last, Parted (gap ++ s) parts last ∧
      highlightFrom gap s = parts.flatMap Part.pieces ++ gapPiece last := by
  fun_induction highlightFrom gap s with
  | case1 gap => exact ⟨[], gap, by simpa using Parted.last hgap, rfl⟩
  | case2 gap c cs key value h ih =>
    obtain ⟨rest, hs, hpair⟩ := pair?_eq_some_iff.1 h
    have hcut : c :: cs = (key ++ '=' :: value) ++ rest := by simpa using hs
    have hlength : key.length + value.length + 1 = (key ++ '=' :: value).length := by
      simp only [List.length_append, List.length_cons]
      omega
    have hrest : cs.drop (key.length + value.length) = rest := by
      calc cs.drop (key.length + value.length)
        _ = (c :: cs).drop (key.length + value.length + 1) := rfl
        _ = rest := by rw [hcut, hlength, List.drop_left]
    rw [hrest] at ih ⊢
    obtain ⟨parts, last, hparted, hpieces⟩ := ih (isGap_nil rest)
    refine ⟨⟨gap, key, value⟩ :: parts, last, ?_, ?_⟩
    · have hfirst := Parted.pair (p := ⟨gap, key, value⟩) (hs ▸ hgap) hpair hparted
      simpa [hs, Part.text] using hfirst
    · rw [hpieces, List.flatMap_cons, Part.pieces]
      simp
  | case3 gap c cs h ih =>
    obtain ⟨parts, last, hparted, hpieces⟩ := ih (hgap.concat (not_startsPair_of_pair? h))
    exact ⟨parts, last, by simpa using hparted, hpieces⟩

/-! ### The only parts -/

theorem PairBefore.startsPair (h : PairBefore key value rest) :
    StartsPair (key ++ '=' :: (value ++ rest)) :=
  ⟨key, value, rest, rfl, h⟩

theorem PairBefore.unique {key' value' rest' : List Char} (h : PairBefore key value rest)
    (h' : PairBefore key' value' rest')
    (heq : key ++ '=' :: (value ++ rest) = key' ++ '=' :: (value' ++ rest')) :
    key = key' ∧ value = value' ∧ rest = rest' := by
  have hread := pair?_eq_some_iff.2 ⟨rest, rfl, h⟩
  have hread' := pair?_eq_some_iff.2 ⟨rest', heq, h'⟩
  rw [hread] at hread'
  obtain ⟨rfl, rfl⟩ := Prod.mk.inj (Option.some.inj hread')
  exact ⟨rfl, rfl, by simpa using heq⟩

/-- Of two gaps neither goes on behind the other, because a pair starts there. -/
theorem IsGap.unique {gap' next next' : List Char} (h : IsGap gap next) (h' : IsGap gap' next')
    (hnext : StartsPair next) (hnext' : StartsPair next')
    (heq : gap ++ next = gap' ++ next') : gap = gap' ∧ next = next' := by
  rcases List.append_eq_append_iff.1 heq with ⟨more, rfl, rfl⟩ | ⟨more, rfl, rfl⟩
  · by_cases hempty : more = []
    · simp [hempty]
    · exact absurd hnext (h' gap more rfl hempty)
  · by_cases hempty : more = []
    · simp [hempty]
    · exact absurd hnext' (h gap' more rfl hempty)

theorem IsGap.not_startsPair {next : List Char} (h : IsGap (gap ++ next) []) : ¬StartsPair next := by
  intro hnext
  by_cases hempty : next = []
  · exact not_startsPair_nil (hempty ▸ hnext)
  · exact h gap next rfl hempty (by simpa using hnext)

theorem Part.text_append (p : Part) (rest : List Char) :
    p.text ++ rest = p.gap ++ (p.key ++ '=' :: (p.value ++ rest)) := by
  simp [Part.text]

/-- There is one way to take a message apart. -/
theorem Parted.unique {message last' : List Char} {parts parts' : List Part}
    (h : Parted message parts last) (h' : Parted message parts' last') :
    parts = parts' ∧ last = last' := by
  induction h generalizing parts' last' with
  | @last last hlast =>
    cases h' with
    | last _ => exact ⟨rfl, rfl⟩
    | @pair p rest _ _ _ hpair _ =>
      rw [Part.text_append] at hlast
      exact absurd hpair.startsPair hlast.not_startsPair
  | @pair p rest last parts hgap hpair _ ih =>
    generalize hmessage : p.text ++ rest = message at h'
    cases h' with
    | last hlast =>
      rw [← hmessage, Part.text_append] at hlast
      exact absurd hpair.startsPair hlast.not_startsPair
    | @pair p' rest' _ _ hgap' hpair' hparted' =>
      rw [Part.text_append, Part.text_append] at hmessage
      obtain ⟨hfront, hnext⟩ :=
        hgap.unique hgap' hpair.startsPair hpair'.startsPair hmessage
      obtain ⟨hkey, hvalue, rfl⟩ := hpair.unique hpair' hnext
      obtain ⟨rfl, rfl⟩ := ih hparted'
      have hpart : p = p' := Part.ext hfront hkey hvalue
      rw [hpart]
      exact ⟨rfl, rfl⟩

/-- When debug messages are wanted, the pieces shown behind the label read in a row as the message.
They are its pairs from left to right, each the first that starts behind the one before, with what
stands between them and what is left at the end; the message can be taken apart in no other way. -/
theorem debugText_lossless (k : Console) (message : String) (hdebug : k.debug = true) :
    k.debugText message = k.print ((.label, "[debug] ".toList) :: highlight message) ∧
      shown (highlight message) = message.toList ∧
      ∃ parts last, Parted message.toList parts last ∧
        (∀ parts' last', Parted message.toList parts' last' → parts' = parts ∧ last' = last) ∧
        highlight message = parts.flatMap Part.pieces ++ gapPiece last := by
  obtain ⟨parts, last, hparted, hpieces⟩ := exists_parted (isGap_nil message.toList)
  rw [List.nil_append] at hparted
  refine ⟨by rw [debugText, if_pos hdebug], ?_, parts, last, hparted, ?_, hpieces⟩
  · rw [highlight, hpieces, hparted.shown_eq]
  · intro parts' last' hparted'
    exact hparted'.unique hparted

/-- A value with an equals sign, a pair right behind a closed quotation, and a quotation that is
never closed. -/
def quotingMessage : String :=
  "run a=b=c, cmd=\"ls -l\"d=1 \"e=\"f g"

theorem debugText_lossless_quotes :
    ({ debug := true } : Console).debug = true ∧
      shown (highlight quotingMessage) = quotingMessage.toList ∧
      highlight quotingMessage =
        [(.gap, "run ".toList), (.key, "a".toList), (.gap, "=".toList), (.value, "b=c,".toList),
          (.gap, " ".toList), (.key, "cmd".toList), (.gap, "=".toList),
          (.command, "\"ls -l\"".toList), (.key, "d".toList), (.gap, "=".toList),
          (.value, "1".toList), (.gap, " \"".toList), (.key, "e".toList), (.gap, "=".toList),
          (.value, "\"f".toList), (.gap, " g".toList)] := by
  have hdebug : ({ debug := true } : Console).debug = true := rfl
  obtain ⟨-, hshown, -⟩ := debugText_lossless { debug := true } quotingMessage hdebug
  exact ⟨hdebug, hshown, by decide +kernel⟩

end TriplePass.Console

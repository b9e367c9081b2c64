import Mathlib.Data.List.Induction
import TriplePass.Proofs.Text.Token
import TriplePass.Proofs.Text.Utf8
import TriplePass.Text.Content

/-! # Words in the bytes of a text

A word of printable ASCII characters is found in the text of a file exactly where its bytes stand in
the file. Neither ill-formed bytes around it nor line endings of any kind hide it or make it up, and
what stands next to it is read of the bytes on that side alone.
-/
namespace TriplePass.Text
variable {word s front back : List Char} {c : Char}

/-! ### Line endings -/

def newlineReader : Reader Bool Char Char where
  start := false
  step returned c :=
    if c = '\r' then (['\n'], true)
    else if returned && c = '\n' then ([], false)
    else ([c], false)
  rest _ := []

theorem foldl_feed (s : List Char) (f : Folding) :
    (s.foldl Folding.feed f).text = (newlineReader.readFrom f.returned s).reverse ++ f.text := by
  induction s generalizing f with
  | nil => rfl
  | cons c s ih =>
    rw [List.foldl_cons, ih]
    simp only [Folding.feed, Reader.readFrom, newlineReader]
    split_ifs <;> simp

theorem foldNewlines_read : foldNewlines = newlineReader.read := by
  funext s
  rw [foldNewlines, foldl_feed, List.append_nil, List.reverse_reverse]
  rfl

/-- A character that belongs to no line ending stays where it is. -/
theorem foldNewlines_parts (hreturn : c ≠ '\r') (hfeed : c ≠ '\n') : PartsAt foldNewlines c c := by
  have hparts : newlineReader.Parts (fun _ => True) c c := {
    start := trivial
    step := fun _ _ _ => trivial
    ends := by simp [newlineReader, hreturn, hfeed]
    only := by
      intro returned _ x hx
      simp only [newlineReader] at hx
      split_ifs at hx <;> simp_all
    rest := by simp [newlineReader] }
  rw [foldNewlines_read]
  exact hparts.partsAt

def withoutReturn (c : Char) : Char :=
  if c = '\r' then '\n' else c

theorem head?_foldNewlines (s : List Char) :
    (foldNewlines s).head? = s.head?.map withoutReturn := by
  rw [foldNewlines_read]
  cases s with
  | nil => rfl
  | cons c s =>
    simp only [Reader.read, Reader.readFrom, newlineReader, List.head?_cons, Option.map_some,
      withoutReturn]
    split_ifs <;> simp_all

/-- After a carriage return a line feed has been written. -/
theorem head?_of_returned (s : List Char) (h : (s.foldl Folding.feed {}).returned = true) :
    (s.foldl Folding.feed {}).text.head? = some '\n' := by
  induction s using List.reverseRecOn with
  | nil => cases h
  | append_singleton s c _ =>
    rw [List.foldl_append, List.foldl_cons, List.foldl_nil, Folding.feed] at h ⊢
    split_ifs at h ⊢
    rfl

theorem getLast?_foldNewlines (s : List Char) :
    (foldNewlines s).getLast? = s.getLast?.map withoutReturn := by
  induction s using List.reverseRecOn with
  | nil => rfl
  | append_singleton s c _ =>
    have hreturned := head?_of_returned s
    rw [foldNewlines, List.getLast?_reverse, List.foldl_append, List.foldl_cons, List.foldl_nil,
      List.getLast?_concat, Folding.feed, Option.map_some, withoutReturn]
    split_ifs with hc hfeed
    · rfl
    · simp only [Bool.and_eq_true, decide_eq_true_eq] at hfeed
      simp [hreturned hfeed.1, hfeed.2]
    · rfl

theorem isIdentifier_withoutReturn (c : Char) : isIdentifier (withoutReturn c) = isIdentifier c := by
  unfold withoutReturn
  split
  next h =>
    rw [h]
    decide
  next => rfl

theorem isEdge_withoutReturn (neighbour : Option Char) :
    isEdge (neighbour.map withoutReturn) = isEdge neighbour := by
  cases neighbour with
  | none => rfl
  | some c => simp [isEdge, isIdentifier_withoutReturn]

theorem foldNewlines_eq_nil_iff (s : List Char) : foldNewlines s = [] ↔ s = [] := by
  rw [← List.head?_eq_none_iff, head?_foldNewlines, Option.map_eq_none_iff, List.head?_eq_none_iff]

def Inline (word : List Char) : Prop :=
  ∀ c ∈ word, c ≠ '\r' ∧ c ≠ '\n'

theorem foldNewlines_eq_append_iff (hword : word ≠ []) (hinline : Inline word) :
    foldNewlines s = front ++ word ++ back ↔
      ∃ left right, s = left ++ word ++ right ∧ foldNewlines left = front ∧
        foldNewlines right = back := by
  have hparts := @parts_at_word _ _ foldNewlines id word foldNewlines_eq_nil_iff hword
    (fun c hc => foldNewlines_parts (hinline c hc).1 (hinline c hc).2) s front back
  rwa [List.map_id] at hparts

theorem occursIn_foldNewlines (hword : word ≠ []) (hinline : Inline word) (s : List Char) :
    occursIn word (foldNewlines s) = occursIn word s := by
  rw [Bool.eq_iff_iff, occursIn_iff, occursIn_iff]
  constructor
  · rintro ⟨front, back, h⟩
    obtain ⟨left, right, rfl, -, -⟩ := (foldNewlines_eq_append_iff hword hinline).1 h.symm
    exact List.infix_append left word right
  · rintro ⟨left, right, rfl⟩
    have hread := (foldNewlines_eq_append_iff hword hinline).2 ⟨left, right, rfl, rfl, rfl⟩
    rw [hread]
    exact List.infix_append _ word _

/-- What stands next to a word is of the same kind, whichever way lines end. -/
theorem hasToken_foldNewlines (hword : word ≠ []) (hinline : Inline word) (s : List Char) :
    hasToken word (foldNewlines s) = hasToken word s := by
  rw [Bool.eq_iff_iff, hasToken_iff, hasToken_iff]
  simp only [foldNewlines_eq_append_iff hword hinline]
  constructor
  · rintro ⟨_, _, ⟨left, right, hs, rfl, rfl⟩, hleft, hright⟩
    rw [getLast?_foldNewlines, isEdge_withoutReturn] at hleft
    rw [head?_foldNewlines, isEdge_withoutReturn] at hright
    exact ⟨left, right, hs, hleft, hright⟩
  · rintro ⟨left, right, hs, hleft, hright⟩
    refine ⟨_, _, ⟨left, right, hs, rfl, rfl⟩, ?_, ?_⟩
    · rw [getLast?_foldNewlines, isEdge_withoutReturn]
      exact hleft
    · rw [head?_foldNewlines, isEdge_withoutReturn]
      exact hright

/-! ### Bytes -/

def Printable (word : List Char) : Prop :=
  ∀ c ∈ word, 0x20 ≤ c.toNat ∧ c.toNat < 0x80

instance (word : List Char) : Decidable (Printable word) :=
  List.decidableBAll _ word

theorem Printable.inline (h : Printable word) : Inline word := by
  intro c hc
  have hspace := (h c hc).1
  constructor
  · rintro rfl
    exact absurd hspace (by decide)
  · rintro rfl
    exact absurd hspace (by decide)

end TriplePass.Text

namespace TriplePass.Utf8
open Text (Printable isEdge hasToken occursIn)
variable {word : String} {content : Bytes}

theorem encode_printable (h : Printable word.toList) :
    encode word = word.toList.map fun c => UInt8.ofNat c.toNat := by
  rw [encode_eq, List.map_eq_flatMap]
  refine List.flatMap_congr fun c hc => ?_
  exact encode_ascii (h c hc).2

theorem decode_eq_append_iff (hword : word ≠ "") (h : Printable word.toList)
    {front back : List Char} :
    decode content = front ++ word.toList ++ back ↔
      ∃ left right, content = left ++ encode word ++ right ∧ decode left = front ∧
        decode right = back := by
  have hne : word.toList ≠ [] := by simpa using hword
  rw [encode_printable h]
  refine Text.parts_at_word decode_eq_nil_iff hne fun c hc => ?_
  exact decode_parts (Nat.lt_of_lt_of_le (by decide) (h c hc).1) (h c hc).2

theorem occursIn_decode (hword : word ≠ "") (h : Printable word.toList) :
    occursIn word.toList (decode content) = true ↔ encode word <:+: content := by
  rw [Text.occursIn_iff]
  constructor
  · rintro ⟨front, back, hread⟩
    obtain ⟨left, right, rfl, -, -⟩ := (decode_eq_append_iff hword h).1 hread.symm
    exact List.infix_append left (encode word) right
  · rintro ⟨left, right, rfl⟩
    have hread := (decode_eq_append_iff hword h).2 ⟨left, right, rfl, rfl, rfl⟩
    rw [hread]
    exact List.infix_append _ word.toList _

theorem hasToken_decode (hword : word ≠ "") (h : Printable word.toList) :
    hasToken word.toList (decode content) = true ↔
      ∃ left right, content = left ++ encode word ++ right ∧
        isEdge (decode left).getLast? = true ∧ isEdge (decode right).head? = true := by
  rw [Text.hasToken_iff]
  simp only [decode_eq_append_iff hword h]
  constructor
  · rintro ⟨_, _, ⟨left, right, hcontent, rfl, rfl⟩, hleft, hright⟩
    exact ⟨left, right, hcontent, hleft, hright⟩
  · rintro ⟨left, right, hcontent, hleft, hright⟩
    exact ⟨_, _, ⟨left, right, hcontent, rfl, rfl⟩, hleft, hright⟩

/-! ### Breaks -/

/-- A byte of a line ending, or one that no character has. -/
def IsBreak (b : UInt8) : Prop :=
  b = 10 ∨ b = 13 ∨ IsForeign b

/-- A break is read as one character that stands apart from every word. -/
theorem IsBreak.decode_append {b : UInt8} (hb : IsBreak b) :
    ∃ c, Text.isIdentifier c = false ∧ (∀ word, Printable word → c ∉ word) ∧
      ∀ front back, decode (front ++ b :: back) = decode front ++ c :: decode back := by
  have hapart {c : Char} (hc : ¬(0x20 ≤ c.toNat ∧ c.toNat < 0x80)) (word : List Char)
      (hword : Printable word) : c ∉ word := fun hmem => hc (hword c hmem)
  rcases hb with rfl | rfl | hb
  · exact ⟨'\n', by decide, hapart (by decide), decode_append_ascii (by decide)⟩
  · exact ⟨'\r', by decide, hapart (by decide), decode_append_ascii (by decide)⟩
  · exact ⟨replacement, by decide +kernel, hapart (by decide), decode_append_foreign hb⟩

theorem occursIn_break {b : UInt8} (hb : IsBreak b) (hword : word ≠ "")
    (h : Printable word.toList) (front back : Bytes) :
    occursIn word.toList (decode (front ++ b :: back)) =
      (occursIn word.toList (decode front) || occursIn word.toList (decode back)) := by
  obtain ⟨c, -, hapart, hdecode⟩ := hb.decode_append
  have hne : word.toList ≠ [] := by simpa using hword
  rw [hdecode, Text.occursIn_append_cons hne (hapart _ h)]

theorem hasToken_break {b : UInt8} (hb : IsBreak b) (hword : word ≠ "")
    (h : Printable word.toList) (front back : Bytes) :
    hasToken word.toList (decode (front ++ b :: back)) =
      (hasToken word.toList (decode front) || hasToken word.toList (decode back)) := by
  obtain ⟨c, hedge, hapart, hdecode⟩ := hb.decode_append
  have hne : word.toList ≠ [] := by simpa using hword
  rw [hdecode, Text.hasToken_append_cons hne (hapart _ h) hedge]

/-- What is asked of either side of a break is asked of either side of many in a row. -/
theorem breaks_split {answer : Bytes → Bool} (hnil : answer [] = false)
    (hsplit : ∀ b, IsBreak b → ∀ front back,
      answer (front ++ b :: back) = (answer front || answer back))
    {breaks : Bytes} (hne : breaks ≠ []) (hbreaks : ∀ b ∈ breaks, IsBreak b) (front back : Bytes) :
    answer (front ++ breaks ++ back) = (answer front || answer back) := by
  induction breaks generalizing front with
  | nil => exact absurd rfl hne
  | cons b breaks ih =>
    obtain ⟨hb, hrest⟩ := List.forall_mem_cons.1 hbreaks
    rw [List.append_assoc, List.cons_append, hsplit b hb]
    by_cases hempty : breaks = []
    · rw [hempty, List.nil_append]
    · have hbehind := ih hempty hrest []
      rw [List.nil_append, hnil, Bool.false_or] at hbehind
      rw [hbehind]

end TriplePass.Utf8

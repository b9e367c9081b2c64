import TriplePass.Text.Token

/-! # Nothing is passed over

Between two occurrences that the token scan looks at there is no other one. So it answers yes
exactly if the word stands somewhere in the text with no identifier character at either side,
wherever other occurrences lie and however they overlap.
-/
namespace TriplePass.Text
variable {word text found : List Char} {before edge : Option Char}

theorem isEdge_iff {neighbour : Option Char} :
    isEdge neighbour = true ↔ ∀ c, neighbour = some c → isIdentifier c = false := by
  cases neighbour <;> simp [isEdge]

inductive TokenIn (word : List Char) : (before : Option Char) → (text : List Char) → Prop where
  | here {before : Option Char} {text : List Char} : word <+: text →
    standsAlone word before text = true → TokenIn word before text
  | later {before : Option Char} {c : Char} {text : List Char} : TokenIn word (some c) text →
    TokenIn word before (c :: text)

theorem tokenIn_nil_iff :
    TokenIn word before [] ↔ word <+: [] ∧ standsAlone word before [] = true := by
  constructor
  · rintro (⟨hword, halone⟩ | _)
    exact ⟨hword, halone⟩
  · rintro ⟨hword, halone⟩
    exact .here hword halone

theorem tokenIn_cons_iff {c : Char} :
    TokenIn word before (c :: text) ↔
      (word <+: c :: text ∧ standsAlone word before (c :: text) = true) ∨
        TokenIn word (some c) text := by
  constructor
  · rintro (⟨hword, halone⟩ | hlater)
    · exact .inl ⟨hword, halone⟩
    · exact .inr hlater
  · rintro (⟨hword, halone⟩ | hlater)
    · exact .here hword halone
    · exact .later hlater

/-! ### The next occurrence -/

theorem prefix_of_seek? (h : seek? word before text = some (edge, found)) : word <+: found := by
  fun_induction seek? word before text with
  | case1 before text hword =>
    cases h
    exact List.isPrefixOf_iff_prefix.1 hword
  | case2 => cases h
  | case3 before c cs hword ih => exact ih h

/-- What is passed over on the way to the next occurrence holds no token. -/
theorem tokenIn_of_seek? (h : seek? word before text = some (edge, found)) :
    TokenIn word before text ↔ TokenIn word edge found := by
  fun_induction seek? word before text with
  | case1 before text hword =>
    cases h
    rfl
  | case2 => cases h
  | case3 before c cs hword ih =>
    rw [List.isPrefixOf_iff_prefix] at hword
    rw [tokenIn_cons_iff, ih h]
    exact or_iff_right fun hhere => hword hhere.1

theorem not_tokenIn_of_seek? (h : seek? word before text = none) : ¬TokenIn word before text := by
  fun_induction seek? word before text with
  | case1 => cases h
  | case2 before hword =>
    rw [List.isPrefixOf_iff_prefix] at hword
    rw [tokenIn_nil_iff]
    exact fun hhere => hword hhere.1
  | case3 before c cs hword ih =>
    rw [List.isPrefixOf_iff_prefix] at hword
    rw [tokenIn_cons_iff]
    rintro (hhere | hlater)
    · exact hword hhere.1
    · exact ih h hlater

/-! ### The whole scan -/

theorem tokenFrom_iff (word : List Char) (before : Option Char) (text : List Char) :
    tokenFrom word before text = true ↔ TokenIn word before text := by
  fun_induction tokenFrom word before text with
  | case1 before text h => simpa using not_tokenIn_of_seek? h
  | case2 before text edge h =>
    rw [tokenIn_of_seek? h, tokenIn_nil_iff]
    exact (and_iff_right (prefix_of_seek? h)).symm
  | case3 before text edge c cs h ih =>
    -- the occurrence that was found comes first, whether it is a token or not
    rw [tokenIn_of_seek? h, tokenIn_cons_iff, and_iff_right (prefix_of_seek? h), Bool.or_eq_true,
      ih]

/-- The character in front of what follows `c` and then `front`. -/
theorem getLast?_cons_or (c : Char) (front : List Char) (before : Option Char) :
    (c :: front).getLast?.or before = front.getLast?.or (some c) := by
  rw [List.getLast?_cons, Option.some_or]
  cases front.getLast? <;> rfl

/-- Where a token stands, seen from both of its sides. -/
theorem tokenIn_iff :
    TokenIn word before text ↔ ∃ front back, text = front ++ word ++ back ∧
      isEdge (front.getLast?.or before) = true ∧ isEdge back.head? = true := by
  constructor
  · intro h
    induction h with
    | @here before text hword halone =>
      obtain ⟨back, rfl⟩ := hword
      rw [standsAlone, List.drop_left, Bool.and_eq_true] at halone
      exact ⟨[], back, rfl, halone⟩
    | @later before c text _ ih =>
      obtain ⟨front, back, rfl, hbefore, hbehind⟩ := ih
      exact ⟨c :: front, back, rfl, (getLast?_cons_or c front before).symm ▸ hbefore, hbehind⟩
  · rintro ⟨front, back, rfl, hbefore, hbehind⟩
    induction front generalizing before with
    | nil =>
      refine .here (List.prefix_append word back) ?_
      rw [standsAlone, List.nil_append, List.drop_left, Bool.and_eq_true]
      exact ⟨hbefore, hbehind⟩
    | cons c front ih =>
      rw [getLast?_cons_or] at hbefore
      exact .later (ih hbefore)

theorem hasToken_iff :
    hasToken word text = true ↔ ∃ front back, text = front ++ word ++ back ∧
      isEdge front.getLast? = true ∧ isEdge back.head? = true := by
  simp only [hasToken, tokenFrom_iff, tokenIn_iff, Option.or_none]

/-! ### Texts side by side -/

section Apart
variable {c : Char} {front back : List Char}

theorem prefix_append_cons_iff (hc : c ∉ word) : word <+: front ++ c :: back ↔ word <+: front := by
  induction front generalizing word with
  | nil =>
    cases word with
    | nil => simp
    | cons w word =>
      have hne : w ≠ c := fun h => hc (h ▸ List.mem_cons_self)
      simp [List.cons_prefix_cons, hne]
  | cons d front ih =>
    cases word with
    | nil => simp
    | cons w word =>
      have hrest : c ∉ word := fun h => hc (List.mem_cons_of_mem w h)
      rw [List.cons_append, List.cons_prefix_cons, List.cons_prefix_cons, ih hrest]

theorem not_prefix_cons (hword : word ≠ []) (hc : c ∉ word) : ¬word <+: c :: back := by
  intro h
  have hnil : word <+: [] := (@prefix_append_cons_iff _ _ [] back hc).1 h
  exact hword (List.prefix_nil.1 hnil)

/-- At the end of a text there is an edge, whether the text goes on with none or not at all. -/
theorem standsAlone_append_cons (hedge : isIdentifier c = false) (hword : word <+: front) :
    standsAlone word before (front ++ c :: back) = standsAlone word before front := by
  obtain ⟨rest, rfl⟩ := hword
  rw [standsAlone, standsAlone, List.append_assoc, List.drop_left, List.drop_left]
  cases rest with
  | nil => simp [isEdge, hedge]
  | cons d rest => rfl

theorem tokenIn_after (hedge : isIdentifier c = false) :
    TokenIn word (some c) text ↔ TokenIn word none text := by
  simp only [tokenIn_iff]
  refine exists_congr fun front => exists_congr fun back => ?_
  cases front.getLast? with
  | none => simp [isEdge, hedge]
  | some d => rfl

/-- No token goes across a character that is neither in the word nor in any identifier. -/
theorem tokenIn_append_cons (hword : word ≠ []) (hc : c ∉ word) (hedge : isIdentifier c = false) :
    TokenIn word before (front ++ c :: back) ↔ TokenIn word before front ∨ TokenIn word none back := by
  induction front generalizing before with
  | nil =>
    have hnil : ¬word <+: [] := fun h => hword (List.prefix_nil.1 h)
    rw [List.nil_append, tokenIn_cons_iff, tokenIn_nil_iff, tokenIn_after hedge]
    simp only [hnil, not_prefix_cons hword hc, false_and, false_or]
  | cons d front ih =>
    have hhere : (word <+: d :: (front ++ c :: back) ∧
        standsAlone word before (d :: (front ++ c :: back)) = true) ↔
        (word <+: d :: front ∧ standsAlone word before (d :: front) = true) := by
      rw [← List.cons_append, prefix_append_cons_iff hc]
      refine and_congr_right fun h => ?_
      rw [standsAlone_append_cons hedge h]
    rw [List.cons_append, tokenIn_cons_iff, hhere, ih, tokenIn_cons_iff, or_assoc]

theorem hasToken_append_cons (hword : word ≠ []) (hc : c ∉ word) (hedge : isIdentifier c = false) :
    hasToken word (front ++ c :: back) = (hasToken word front || hasToken word back) := by
  rw [Bool.eq_iff_iff, Bool.or_eq_true]
  simp only [hasToken, tokenFrom_iff]
  exact tokenIn_append_cons hword hc hedge

theorem occursIn_iff : occursIn word text = true ↔ word <:+: text := by
  induction text with
  | nil => simp [occursIn]
  | cons c text ih =>
    rw [occursIn, Bool.or_eq_true, List.isPrefixOf_iff_prefix, ih, List.infix_cons_iff]

theorem occursIn_append_cons (hword : word ≠ []) (hc : c ∉ word) :
    occursIn word (front ++ c :: back) = (occursIn word front || occursIn word back) := by
  rw [Bool.eq_iff_iff, Bool.or_eq_true, occursIn_iff, occursIn_iff, occursIn_iff]
  induction front with
  | nil =>
    rw [List.nil_append, List.infix_cons_iff, List.infix_nil]
    simp only [not_prefix_cons hword hc, hword, false_or]
  | cons d front ih =>
    rw [List.cons_append, List.infix_cons_iff, List.infix_cons_iff, ih, ← List.cons_append,
      prefix_append_cons_iff hc, or_assoc]

end Apart

/-- The word occurs at an index of the text, and the characters next to the occurrence, if there
are any, are no identifier characters. -/
structure TokenAt (word text : List Char) (i : Nat) : Prop where
  inside : i ≤ text.length
  occurs : word <+: text.drop i
  before : ∀ c, 0 < i → text[i - 1]? = some c → isIdentifier c = false
  behind : ∀ c, text[i + word.length]? = some c → isIdentifier c = false

theorem tokenAt_iff {i : Nat} :
    TokenAt word text i ↔ ∃ front back, text = front ++ word ++ back ∧ front.length = i ∧
      isEdge front.getLast? = true ∧ isEdge back.head? = true := by
  constructor
  · rintro ⟨hinside, ⟨back, hback⟩, hbefore, hbehind⟩
    have hcut : text = text.take i ++ word ++ back := by
      rw [List.append_assoc, hback, List.take_append_drop]
    have hlength : (text.take i).length = i := List.length_take_of_le hinside
    refine ⟨text.take i, back, hcut, hlength, isEdge_iff.2 ?_, isEdge_iff.2 ?_⟩
    · intro c hc
      have hpos : 0 < i := by
        refine Nat.pos_of_ne_zero ?_
        rintro rfl
        rw [List.take_zero] at hc
        cases hc
      rw [List.getLast?_eq_getElem?, hlength, List.getElem?_take_of_lt (by omega)] at hc
      exact hbefore c hpos hc
    · intro c hc
      have hdrop : text.drop (i + word.length) = back := by
        rw [← List.drop_drop, ← hback, List.drop_left]
      rw [← hdrop, List.head?_drop] at hc
      exact hbehind c hc
  · rintro ⟨front, back, rfl, rfl, hbefore, hbehind⟩
    rw [isEdge_iff] at hbefore hbehind
    refine {
      inside := by simp
      occurs := ?_
      before := ?_
      behind := ?_ }
    · rw [List.append_assoc, List.drop_left]
      exact List.prefix_append word back
    · intro c hpos hc
      rw [List.append_assoc, List.getElem?_append_left (by omega)] at hc
      exact hbefore c (List.getLast?_eq_getElem? ▸ hc)
    · intro c hc
      rw [← List.length_append, List.getElem?_append_right (Nat.le_refl _), Nat.sub_self,
        ← List.head?_eq_getElem?] at hc
      exact hbehind c hc

/-- The scan of any text for any word ends, and answers yes exactly if there is an index at which
the word is a token. -/
theorem hasToken_iff_tokenAt (word text : List Char) :
    hasToken word text = true ↔ ∃ i, TokenAt word text i := by
  simp only [hasToken_iff, tokenAt_iff]
  constructor
  · rintro ⟨front, back, htext, hedges⟩
    exact ⟨front.length, front, back, htext, rfl, hedges⟩
  · rintro ⟨_, front, back, htext, _, hedges⟩
    exact ⟨front, back, htext, hedges⟩

/-- The first occurrence continues a word; the one that overlaps it is a token. -/
example : hasToken "x x".toList "ax x x".toList = true := by decide +kernel

/-- The empty word is a token only away from all words. -/
example : hasToken [] "ab".toList = false ∧ hasToken [] "ab ".toList = true := by decide +kernel

end TriplePass.Text

import Mathlib.Data.List.Basic
import TriplePass.Proofs.Text.Lines

/-! # Lines and their endings

The lines of a text are the one way to cut it into pieces that each end in an ending, the last one
perhaps without, where a carriage return and a line feed in a row are one ending. When some of the
lines are taken away, the rest is cut in the same way again, but for lines that ended in a carriage
return and have come to stand in front of a bare line feed.
-/
namespace TriplePass.Text
variable {s line rest body : List Char} {lines : List (List Char)}

def isBreak (c : Char) : Bool :=
  c == '\r' || endsLine c

def Unbroken (body : List Char) : Prop :=
  ∀ c ∈ body, isBreak c = false

inductive Ending : List Char → Prop where
  | one {c : Char} : isBreak c = true → Ending [c]
  | both : Ending ['\r', '\n']

def Closed (line : List Char) : Prop :=
  ∃ body ending, Unbroken body ∧ Ending ending ∧ line = body ++ ending

inductive Whole : List (List Char) → Prop where
  | nil : Whole []
  | last {body : List Char} : body ≠ [] → Unbroken body → Whole [body]
  | cons {line : List Char} {rest : List (List Char)} : Closed line → Whole rest →
    Whole (line :: rest)

/-- A bare line feed is taken into a line that ends in a carriage return. -/
def rejoin : List (List Char) → List (List Char)
  | a :: b :: rest =>
    if a.getLast? = some '\r' ∧ b = ['\n'] then (a ++ b) :: rejoin rest else a :: rejoin (b :: rest)
  | lines => lines

theorem rejoin_short (h : ∀ a b rest, lines = a :: b :: rest → False) : rejoin lines = lines := by
  match lines with
  | [] | [_] => rfl
  | a :: b :: rest => exact (h a b rest rfl).elim

/-! ### One line after the other -/

namespace Cutting

/-- Closed lines are not looked at again. -/
theorem feedAny_append (t : Cutting) (closed : List (List Char)) (c : Char) :
    ({ t with lines := t.lines ++ closed } : Cutting).feedAny c =
      { t.feedAny c with lines := (t.feedAny c).lines ++ closed } := by
  unfold feedAny extend close
  dsimp only
  split_ifs <;> rfl

theorem foldl_append (s : List Char) (t : Cutting) (closed : List (List Char)) :
    s.foldl feedAny { t with lines := t.lines ++ closed } =
      { s.foldl feedAny t with lines := (s.foldl feedAny t).lines ++ closed } := by
  induction s generalizing t with
  | nil => rfl
  | cons c s ih => rw [List.foldl_cons, feedAny_append, ih, List.foldl_cons]

theorem finish_append (t : Cutting) (closed : List (List Char)) :
    ({ t with lines := t.lines ++ closed } : Cutting).finish = closed.reverse ++ t.finish := by
  unfold finish close
  dsimp only
  split <;> simp

theorem foldl_unbroken (hbody : Unbroken body) (line : List Char) (closed : List (List Char)) :
    body.foldl feedAny ⟨false, line, closed⟩ = ⟨false, body.reverse ++ line, closed⟩ := by
  induction body generalizing line with
  | nil => rfl
  | cons c body ih =>
    obtain ⟨hc, hrest⟩ := List.forall_mem_cons.1 hbody
    obtain ⟨hreturn, hends⟩ := Bool.or_eq_false_iff.1 hc
    have hfeed : feedAny ⟨false, line, closed⟩ c = ⟨false, c :: line, closed⟩ := by
      simp [feedAny, extend, hends, beq_eq_false_iff_ne.1 hreturn]
    rw [List.foldl_cons, hfeed, ih hrest]
    simp

end Cutting

theorem linesAny_from (s : List Char) (line : List Char) :
    (s.foldl Cutting.feedAny ⟨false, [], [line]⟩).finish = line :: linesAny s := by
  have hfold := Cutting.foldl_append s ⟨false, [], []⟩ [line]
  rw [List.nil_append] at hfold
  rw [hfold, Cutting.finish_append]
  rfl

theorem linesAny_unbroken (hbody : Unbroken body) (hne : body ≠ []) : linesAny body = [body] := by
  rw [linesAny, Cutting.foldl_unbroken hbody]
  simp [Cutting.finish, Cutting.close, hne]

/-- A line is cut off, unless a line feed would still belong to it. -/
theorem linesAny_closed (hline : Closed line)
    (hrest : line.getLast? = some '\r' → rest.head? ≠ some '\n') :
    linesAny (line ++ rest) = line :: linesAny rest := by
  obtain ⟨body, ending, hbody, hending, rfl⟩ := hline
  rw [← linesAny_from, linesAny, List.append_assoc, List.foldl_append,
    Cutting.foldl_unbroken hbody, List.append_nil]
  cases hending with
  | both => simp [Cutting.feedAny, Cutting.extend, Cutting.close]
  | @one c hc =>
    by_cases hreturn : c = '\r'
    · subst hreturn
      cases rest with
      | nil => simp [Cutting.feedAny, Cutting.extend, Cutting.close, Cutting.finish]
      | cons d rest =>
        have hd : d ≠ '\n' := by simpa using hrest (by simp)
        simp [Cutting.feedAny, Cutting.extend, Cutting.close, hd]
    · have hends : endsLine c = true := by simpa [isBreak, hreturn] using hc
      simp [Cutting.feedAny, Cutting.extend, Cutting.close, hreturn, hends]

/-! ### Lines as the only cut -/

theorem Closed.ne_nil (h : Closed line) : line ≠ [] := by
  obtain ⟨body, ending, _, hending, rfl⟩ := h
  cases hending <;> simp

/-- A closed line that starts with a line feed is no more than that. -/
theorem Closed.eq_newline (h : Closed ('\n' :: line)) : line = [] := by
  obtain ⟨body, ending, hbody, hending, heq⟩ := h
  cases body with
  | nil =>
    cases hending with
    | one _ => exact (List.cons.inj heq).2
    | both => cases heq
  | cons c body =>
    obtain ⟨rfl, _⟩ := List.cons.inj heq
    exact absurd (hbody '\n' List.mem_cons_self) (by decide)

theorem Closed.append_newline (h : Closed line) (hreturn : line.getLast? = some '\r') :
    Closed (line ++ ['\n']) := by
  obtain ⟨body, ending, hbody, hending, rfl⟩ := h
  refine ⟨body, ['\r', '\n'], hbody, .both, ?_⟩
  cases hending with
  | both => simp at hreturn
  | one _ =>
    rw [List.getLast?_append, List.getLast?_singleton, Option.some_or] at hreturn
    obtain rfl := Option.some.inj hreturn
    simp

/-- Only a bare line feed can be taken for the rest of an ending. -/
theorem Whole.newline (h : Whole lines) (hhead : lines.flatten.head? = some '\n') :
    ∃ rest, lines = ['\n'] :: rest := by
  cases h with
  | nil => cases hhead
  | @last body hne hbody =>
    rw [List.flatten_singleton] at hhead
    exact absurd (hbody '\n' (List.mem_of_head? hhead)) (by decide)
  | @cons line rest hline _ =>
    cases line with
    | nil => exact absurd rfl hline.ne_nil
    | cons c line =>
      obtain rfl := Option.some.inj hhead
      rw [hline.eq_newline]
      exact ⟨rest, rfl⟩

theorem Whole.tail (h : Whole (line :: lines)) : Whole lines := by
  cases h with
  | last => exact .nil
  | cons _ hrest => exact hrest

theorem Whole.closed_of_next {next : List Char} (h : Whole (line :: next :: lines)) :
    Closed line := by
  cases h with
  | cons hline _ => exact hline

/-- Lines that are put together are cut as before, once bare line feeds are taken in. -/
theorem linesAny_flatten (h : Whole lines) : linesAny lines.flatten = rejoin lines := by
  induction lines using rejoin.induct with
  | case1 a b rest hjoin ih =>
    obtain ⟨hreturn, rfl⟩ := hjoin
    have hclosed := h.closed_of_next.append_newline hreturn
    rw [rejoin, if_pos ⟨hreturn, rfl⟩, List.flatten_cons, List.flatten_cons, ← List.append_assoc,
      linesAny_closed hclosed (by simp), ih h.tail.tail]
  | case2 a b rest hapart ih =>
    rw [rejoin, if_neg hapart, List.flatten_cons, linesAny_closed h.closed_of_next, ih h.tail]
    intro hreturn hhead
    obtain ⟨_, heq⟩ := h.tail.newline hhead
    exact hapart ⟨hreturn, (List.cons.inj heq).1⟩
  | case3 lines hshort =>
    rw [rejoin_short hshort]
    cases h with
    | nil => rfl
    | last hne hbody => rw [List.flatten_singleton, linesAny_unbroken hbody hne]
    | @cons line rest hline _ =>
      cases rest with
      | nil =>
        have hcut : linesAny (line ++ []) = line :: linesAny [] := linesAny_closed hline (by simp)
        rw [List.append_nil] at hcut
        rw [List.flatten_singleton, hcut]
        rfl
      | cons next rest => exact (hshort line next rest rfl).elim

/-- Every text consists of whole lines: no matter where the cutting stands, what is closed stays
closed, and the open line has no ending but a carriage return at its end. -/
structure Cutting.Sound (t : Cutting) : Prop where
  closed : ∀ line ∈ t.lines, Closed line
  unbroken : t.returned = false → Unbroken t.line
  returned : t.returned = true → ∃ body, Unbroken body ∧ t.line = '\r' :: body

namespace Cutting.Sound
variable {t : Cutting}

theorem closed_line (ht : t.Sound) (hreturned : t.returned = true) : Closed t.line.reverse := by
  obtain ⟨body, hbody, hline⟩ := ht.returned hreturned
  refine ⟨body.reverse, ['\r'], fun c hc => hbody c (List.mem_reverse.1 hc), .one (by decide), ?_⟩
  rw [hline, List.reverse_cons]

theorem close (ht : t.Sound) (hline : Closed t.line.reverse) : t.close.Sound where
  closed line hmem := by
    rcases List.mem_cons.1 hmem with rfl | hmem
    · exact hline
    · exact ht.closed line hmem
  unbroken _ := List.forall_mem_nil _
  returned h := by cases h

theorem extend (ht : t.Sound) (hopen : t.returned = false) (c : Char) : (t.extend c).Sound := by
  have hbody := ht.unbroken hopen
  unfold Cutting.extend
  dsimp only
  split
  next hreturn =>
    subst hreturn
    exact ⟨ht.closed, nofun, fun _ => ⟨t.line, hbody, rfl⟩⟩
  next hreturn =>
    have hclass : isBreak c = endsLine c := by simp [isBreak, hreturn]
    split
    next hends =>
      refine ⟨?_, fun _ => List.forall_mem_nil _, fun h => by cases h⟩
      intro line hmem
      rcases List.mem_cons.1 hmem with rfl | hmem
      · refine ⟨t.line.reverse, [c], fun d hd => hbody d (List.mem_reverse.1 hd),
          .one (hclass.trans hends), ?_⟩
        rw [List.reverse_cons]
      · exact ht.closed line hmem
    next hends =>
      refine ⟨ht.closed, fun _ => ?_, fun h => ?_⟩
      · exact List.forall_mem_cons.2 ⟨hclass.trans (Bool.eq_false_iff.2 hends), hbody⟩
      · rw [show _ = true from h] at hopen
        cases hopen

theorem feedAny (ht : t.Sound) (c : Char) : (t.feedAny c).Sound := by
  unfold Cutting.feedAny
  split
  next hreturned =>
    split
    next hfeed =>
      subst hfeed
      refine ⟨?_, fun _ => List.forall_mem_nil _, fun h => by cases h⟩
      intro line hmem
      rcases List.mem_cons.1 hmem with rfl | hmem
      · have hlast : t.line.reverse.getLast? = some '\r' := by
          obtain ⟨body, _, hline⟩ := ht.returned hreturned
          rw [hline, List.reverse_cons, List.getLast?_concat]
        have hboth := (ht.closed_line hreturned).append_newline hlast
        rwa [← List.reverse_cons] at hboth
      · exact ht.closed line hmem
    next => exact (ht.close (ht.closed_line hreturned)).extend rfl c
  next hreturned => exact ht.extend (Bool.eq_false_iff.2 hreturned) c

theorem foldl (ht : t.Sound) (s : List Char) : (s.foldl Cutting.feedAny t).Sound := by
  induction s generalizing t with
  | nil => exact ht
  | cons c s ih => exact ih (ht.feedAny c)

end Cutting.Sound

theorem whole_append (hclosed : ∀ line ∈ lines, Closed line) {more : List (List Char)}
    (hmore : Whole more) : Whole (lines ++ more) := by
  induction lines with
  | nil => exact hmore
  | cons line lines ih =>
    obtain ⟨hline, hrest⟩ := List.forall_mem_cons.1 hclosed
    exact .cons hline (ih hrest)

theorem whole_linesAny (s : List Char) : Whole (linesAny s) := by
  have hstart : Cutting.Sound {} :=
    ⟨List.forall_mem_nil _, fun _ => List.forall_mem_nil _, fun h => by cases h⟩
  have ht := hstart.foldl s
  have hclosed : ∀ line ∈ (s.foldl Cutting.feedAny {}).lines.reverse, Closed line :=
    fun line hmem => ht.closed line (List.mem_reverse.1 hmem)
  unfold linesAny Cutting.finish
  split
  next => simpa using whole_append hclosed .nil
  next hempty =>
    rw [Cutting.close, List.reverse_cons]
    refine whole_append hclosed ?_
    cases hreturned : (s.foldl Cutting.feedAny {}).returned with
    | true => exact .cons (ht.closed_line hreturned) .nil
    | false =>
      refine .last (by simpa using hempty) fun c hc => ?_
      exact ht.unbroken hreturned c (List.mem_reverse.1 hc)

/-! ### Some of the lines -/

theorem Whole.filter (h : Whole lines) (keep : List Char → Bool) : Whole (lines.filter keep) := by
  induction h with
  | nil => exact .nil
  | @last body hne hbody =>
    rw [List.filter_cons, List.filter_nil]
    split
    · exact .last hne hbody
    · exact .nil
  | @cons line rest hline _ ih =>
    rw [List.filter_cons]
    split
    · exact .cons hline ih
    · exact ih

theorem mem_rejoin (h : line ∈ rejoin lines) :
    line ∈ lines ∨ ∃ a ∈ lines, line = a ++ ['\n'] := by
  induction lines using rejoin.induct with
  | case1 a b rest hjoin ih =>
    rw [rejoin, if_pos hjoin, List.mem_cons] at h
    rcases h with rfl | h
    · exact .inr ⟨a, List.mem_cons_self, by rw [hjoin.2]⟩
    · have hbehind : ∀ l ∈ rest, l ∈ a :: b :: rest := fun l hl => by simp [hl]
      exact (ih h).imp (hbehind line) fun ⟨l, hl, heq⟩ => ⟨l, hbehind l hl, heq⟩
  | case2 a b rest hapart ih =>
    rw [rejoin, if_neg hapart, List.mem_cons] at h
    rcases h with rfl | h
    · exact .inl List.mem_cons_self
    · have hbehind : ∀ l ∈ b :: rest, l ∈ a :: b :: rest := fun l hl => List.mem_cons_of_mem a hl
      exact (ih h).imp (hbehind line) fun ⟨l, hl, heq⟩ => ⟨l, hbehind l hl, heq⟩
  | case3 lines hshort =>
    rw [rejoin_short hshort] at h
    exact .inl h

theorem length_rejoin_le (lines : List (List Char)) : (rejoin lines).length ≤ lines.length := by
  induction lines using rejoin.induct with
  | case1 a b rest hjoin ih =>
    rw [rejoin, if_pos hjoin, List.length_cons, List.length_cons, List.length_cons]
    omega
  | case2 a b rest hapart ih =>
    rw [rejoin, if_neg hapart, List.length_cons, List.length_cons]
    omega
  | case3 lines hshort => exact Nat.le_of_eq (congrArg List.length (rejoin_short hshort))

/-- Lines stay as they are unless a carriage return and a line feed have met. -/
theorem rejoin_eq_self_iff :
    rejoin lines = lines ↔ lines.IsChain fun a b => ¬(a.getLast? = some '\r' ∧ b = ['\n']) := by
  induction lines using rejoin.induct with
  | case1 a b rest hjoin ih =>
    have hlength := length_rejoin_le rest
    have hchanged : rejoin (a :: b :: rest) ≠ a :: b :: rest := by
      intro h
      have hcount := congrArg List.length h
      rw [rejoin, if_pos hjoin, List.length_cons, List.length_cons, List.length_cons] at hcount
      omega
    exact iff_of_false hchanged fun hchain => (List.isChain_cons_cons.1 hchain).1 hjoin
  | case2 a b rest hapart ih =>
    rw [rejoin, if_neg hapart, List.cons_inj_right, ih, List.isChain_cons_cons]
    exact (and_iff_right hapart).symm
  | case3 lines hshort =>
    match lines with
    | [] | [_] => simp [rejoin]
    | a :: b :: rest => exact (hshort a b rest rfl).elim

/-- What is read off the lines stays the same, if nothing is read off a bare line feed and a line
feed more at the end of a line makes no difference. -/
theorem filterMap_rejoin {α : Type} {f : List Char → Option α}
    (hf : ∀ line, f (line ++ ['\n']) = f line) (hbare : f ['\n'] = none)
    (lines : List (List Char)) : (rejoin lines).filterMap f = lines.filterMap f := by
  induction lines using rejoin.induct with
  | case1 a b rest hjoin ih =>
    obtain ⟨hreturn, rfl⟩ := hjoin
    rw [rejoin, if_pos ⟨hreturn, rfl⟩, List.filterMap_cons, hf, ih, List.filterMap_cons,
      List.filterMap_cons_none hbare]
  | case2 a b rest hapart ih =>
    rw [rejoin, if_neg hapart, List.filterMap_cons, ih]
    exact List.filterMap_cons.symm
  | case3 lines hshort => rw [rejoin_short hshort]

end TriplePass.Text

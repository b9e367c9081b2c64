import Mathlib.Data.List.TakeDrop
import TriplePass.Toml.Document

/-! # What scans leave and refuse

Every scan leaves the end of what it was given, and if it refuses an integer for its length, that
many digits are there, more than are converted and with nothing but underscores between them.
-/
namespace TriplePass.Toml
variable {α β : Type} {source s rest : List Char} {n fuel depth : Nat}

def DigitRun (p : Char → Bool) (run : List Char) (n : Nat) : Prop :=
  (∀ c ∈ run, p c = true ∨ c = '_') ∧ run.countP p = n

def Oversized (source : List Char) (n : Nat) : Prop :=
  maxIntegerDigits < n ∧ ∃ run, run <:+: source ∧ DigitRun isAsciiDigit run n

/-- Inside a text the scan leaves an end of it, and it refuses integers only for their length. -/
structure Sound (source : List Char) (scan : Scan α) : Prop where
  leaves : ∀ {s a rest}, s <:+ source → scan s = .ok (a, rest) → rest <:+ source
  refuses : ∀ {s n}, s <:+ source → scan s = .error (.longInteger n) → Oversized source n

namespace Sound
variable {scan : Scan α} {f : α → Scan β}

theorem pure (a : α) : Sound source (Pure.pure a : Scan α) :=
  ⟨fun hs h => by cases h; exact hs, fun _ h => nomatch h⟩

/-- What the second scan needs may be something that the first one has found out. -/
theorem bind_of {Q : α → Prop} (h : Sound source scan)
    (hQ : ∀ {s a rest}, s <:+ source → scan s = .ok (a, rest) → Q a)
    (hf : ∀ a, Q a → Sound source (f a)) : Sound source (scan >>= f) := by
  constructor
  · intro s b rest hs hok
    change (scan s >>= fun p => f p.1 p.2) = _ at hok
    cases hscan : scan s with
    | error e => rw [hscan] at hok; cases hok
    | ok p =>
      rw [hscan] at hok
      exact (hf p.1 (hQ hs hscan)).leaves (h.leaves hs hscan) hok
  · intro s n hs herror
    change (scan s >>= fun p => f p.1 p.2) = _ at herror
    cases hscan : scan s with
    | error e => rw [hscan] at herror; cases herror; exact h.refuses hs hscan
    | ok p =>
      rw [hscan] at herror
      exact (hf p.1 (hQ hs hscan)).refuses (h.leaves hs hscan) herror

theorem bind (h : Sound source scan) (hf : ∀ a, Sound source (f a)) : Sound source (scan >>= f) :=
  h.bind_of (fun _ _ => trivial) fun a _ => hf a

theorem ite {p : Prop} [Decidable p] {other : Scan α} (h : Sound source scan)
    (ho : Sound source other) : Sound source (if p then scan else other) := by
  split
  · exact h
  · exact ho

theorem malformed : Sound source (Scan.malformed : Scan α) :=
  ⟨fun _ h => (nomatch h), fun _ h => nomatch h⟩

theorem guarded {p : Prop} [Decidable p] {next : PUnit → Scan α}
    (h : ∀ u, Sound source (next u)) : Sound source (if p then next ⟨⟩ else Scan.malformed >>= next) :=
  ite (h _) (bind malformed h)

theorem get : Sound source (MonadState.get : Scan (List Char)) :=
  ⟨fun hs h => by cases h; exact hs, fun _ h => nomatch h⟩

theorem peek : Sound source Scan.peek :=
  ⟨fun hs h => by cases h; exact hs, fun _ h => nomatch h⟩

theorem looksAt (word : List Char) : Sound source (Scan.looksAt word) :=
  ⟨fun hs h => by cases h; exact hs, fun _ h => nomatch h⟩

theorem skip (count : Nat) : Sound source (Scan.skip count) :=
  ⟨fun hs h => by cases h; exact (List.drop_suffix _ _).trans hs, fun _ h => nomatch h⟩

theorem skipWhile (p : Char → Bool) : Sound source (Scan.skipWhile p) :=
  ⟨fun hs h => by cases h; exact (List.dropWhile_suffix _).trans hs, fun _ h => nomatch h⟩

theorem takeWhile (p : Char → Bool) : Sound source (Scan.takeWhile p) := by
  refine ⟨fun hs h => ?_, fun _ h => nomatch h⟩
  rw [Scan.takeWhile, List.span_eq_takeWhile_dropWhile] at h
  cases h
  exact (List.dropWhile_suffix _).trans hs

theorem expect (c : Char) : Sound source (Scan.expect c) := by
  constructor
  · intro s a rest hs h
    unfold Scan.expect at h
    split at h
    · split at h
      · cases h
        exact (List.suffix_cons _ _).trans hs
      · cases h
    · cases h
  · intro s n _ h
    unfold Scan.expect at h
    split at h
    · split at h <;> cases h
    · cases h

theorem exactly (count : Nat) (p : Char → Bool) : Sound source (Scan.exactly count p) := by
  constructor
  · intro s a rest hs h
    simp only [Scan.exactly] at h
    split at h
    · cases h
      exact (List.drop_suffix _ _).trans hs
    · cases h
  · intro s n _ h
    simp only [Scan.exactly] at h
    split at h <;> cases h

/-- What may be missing is never refused. -/
theorem optional (h : Sound source scan) : Sound source (Scan.optional scan) := by
  constructor
  · intro s a rest hs hok
    unfold Scan.optional at hok
    split at hok
    next hscan => cases hok; exact h.leaves hs hscan
    next => cases hok; exact hs
  · intro s n _ herror
    unfold Scan.optional at herror
    split at herror <;> cases herror

theorem refuse (h : Oversized source n) : Sound source (throw (.longInteger n) : Scan α) :=
  ⟨fun _ h => (nomatch h), fun _ herror => by cases herror; exact h⟩

end Sound

theorem sound_skipComment : Sound source skipComment :=
  .bind .peek fun _ =>
    .ite (.bind (.takeWhile _) fun _ => .ite .malformed (.pure _)) (.pure _)

/-! ### Strings and keys -/

theorem sound_hexEscape (digits : Nat) : Sound source (hexEscape digits) :=
  .bind (.exactly _ _) fun _ => .ite (.pure _) .malformed

theorem sound_joinLines : Sound source joinLines := by
  refine .bind (.skipWhile _) fun _ => .bind .peek fun c => ?_
  split
  · exact .pure _
  · exact .bind (.skipWhile _) fun _ => .pure _
  · exact .malformed

theorem sound_escapeText (long : Bool) : Sound source (escapeText long) := by
  refine .bind .peek fun c => ?_
  split
  · exact .bind (.skip _) fun _ => sound_hexEscape _
  · exact .bind (.skip _) fun _ => sound_hexEscape _
  · refine .ite sound_joinLines ?_
    split
    · exact .bind (.skip _) fun _ => .pure _
    · exact .malformed
  · exact .malformed

theorem sound_basicRest (long : Bool) (text : List Char) :
    Sound source (basicRest long fuel text) := by
  induction fuel generalizing text with
  | zero => exact .malformed
  | succ fuel ih =>
    refine .bind .peek fun c => ?_
    split
    · exact .malformed
    · refine .ite (.bind (.skip _) fun _ => .pure _) (.bind (.looksAt _) fun _ => ?_)
      exact .ite (.bind (.skip _) fun _ => .pure _) (.bind (.skip _) fun _ => ih _)
    · exact .bind (.skip _) fun _ => .bind (sound_escapeText long) fun _ => ih _
    · exact .ite .malformed (.bind (.skip _) fun _ => ih _)

theorem sound_basic (long : Bool) : Sound source (basic long) :=
  .bind .get fun _ => sound_basicRest long []

theorem sound_upTo (mark : List Char) (fine : Char → Bool) (text : List Char) :
    Sound source (upTo mark fine fuel text) := by
  induction fuel generalizing text with
  | zero => exact .malformed
  | succ fuel ih =>
    refine .bind (.looksAt _) fun _ =>
      .ite (.bind (.skip _) fun _ => .pure _) (.bind .peek fun c => ?_)
    split
    · exact .ite (.bind (.skip _) fun _ => ih _) .malformed
    · exact .malformed

theorem sound_literal : Sound source literal :=
  .bind .get fun _ => sound_upTo _ _ []

theorem sound_longLiteral : Sound source longLiteral :=
  .bind .get fun _ => sound_upTo _ _ []

theorem sound_trailingQuotes (quote : Char) (text : List Char) :
    Sound source (trailingQuotes quote text) :=
  .bind (.looksAt _) fun _ => .ite (.bind (.skip _) fun _ => .pure _)
    (.bind (.looksAt _) fun _ => .ite (.bind (.skip _) fun _ => .pure _) (.pure _))

theorem sound_skipNewline : Sound source skipNewline :=
  .bind .peek fun _ => .ite (.skip _) (.pure _)

theorem sound_string : Sound source string := by
  refine .bind (.looksAt _) fun _ => .ite ?_ (.bind (.looksAt _) fun _ => .ite ?_ ?_)
  · exact .bind (.skip _) fun _ => .bind sound_skipNewline fun _ =>
      .bind (sound_basic true) fun _ => sound_trailingQuotes _ _
  · exact .bind (.skip _) fun _ => .bind sound_skipNewline fun _ =>
      .bind sound_longLiteral fun _ => sound_trailingQuotes _ _
  · exact .bind (.looksAt _) fun _ => .ite (.bind (.skip _) fun _ => sound_basic false)
      (.bind (.expect _) fun _ => sound_literal)

theorem sound_keyPart : Sound source keyPart := by
  refine .bind .peek fun c => ?_
  split
  · exact .bind (.skip _) fun _ => .bind (sound_basic false) fun _ => .pure _
  · exact .bind (.skip _) fun _ => .bind sound_literal fun _ => .pure _
  · exact .ite (.bind (.takeWhile _) fun _ => .pure _) .malformed
  · exact .malformed

theorem sound_keyRest : Sound source (keyRest fuel) := by
  induction fuel with
  | zero => exact .malformed
  | succ fuel ih =>
    refine .bind (.skipWhile _) fun _ => .bind .peek fun _ => .ite ?_ (.pure _)
    exact .bind (.skip _) fun _ => .bind (.skipWhile _) fun _ => .bind sound_keyPart fun _ =>
      .bind ih fun _ => .pure _

theorem sound_key : Sound source key :=
  .bind sound_keyPart fun _ => .bind .get fun _ => .bind sound_keyRest fun _ => .pure _

/-! ### Numbers, dates and times -/

section Digits
variable {p : Char → Bool} {run : List Char} {c : Char}

theorem digitRun_nil : DigitRun p [] 0 :=
  ⟨fun _ h => (nomatch h), rfl⟩

theorem DigitRun.cons (hc : p c = true) (h : DigitRun p run n) : DigitRun p (c :: run) (n + 1) := by
  obtain ⟨hall, hcount⟩ := h
  exact ⟨List.forall_mem_cons.2 ⟨.inl hc, hall⟩, by rw [List.countP_cons_of_pos hc, hcount]⟩

theorem DigitRun.underscore (hp : ¬p '_' = true) (h : DigitRun p run n) :
    DigitRun p ('_' :: run) n := by
  obtain ⟨hall, hcount⟩ := h
  exact ⟨List.forall_mem_cons.2 ⟨.inr rfl, hall⟩, by rw [List.countP_cons_of_neg hp, hcount]⟩

theorem moreDigits_run (hp : ¬p '_' = true) (s : List Char) :
    ∃ run, s = run ++ (moreDigits p s).2 ∧ DigitRun p run (moreDigits p s).1.length := by
  fun_induction moreDigits p s with
  | case1 => exact ⟨[], rfl, digitRun_nil⟩
  | case2 c cs hc ds rest hmore ih =>
    rw [hmore] at ih
    obtain ⟨run, rfl, hrun⟩ := ih
    exact ⟨'_' :: c :: run, rfl, (hrun.cons hc).underscore hp⟩
  | case3 => exact ⟨[], rfl, digitRun_nil⟩
  | case4 c cs _ hc ds rest hmore ih =>
    rw [hmore] at ih
    obtain ⟨run, rfl, hrun⟩ := ih
    exact ⟨c :: run, rfl, hrun.cons hc⟩
  | case5 => exact ⟨[], rfl, digitRun_nil⟩

theorem digits_run (hp : ¬p '_' = true) {ds : List Char} (h : digits p s = .ok (ds, rest)) :
    ∃ run, s = run ++ rest ∧ DigitRun p run ds.length := by
  unfold digits at h
  split at h
  next c cs =>
    split at h
    next hc =>
      cases h
      obtain ⟨run, hcs, hrun⟩ := moreDigits_run hp cs
      exact ⟨c :: run, congrArg (c :: ·) hcs, hrun.cons hc⟩
    next => cases h
  next => cases h

theorem sound_digits (hp : ¬p '_' = true) : Sound source (digits p) := by
  constructor
  · intro s ds rest hs h
    obtain ⟨run, rfl, -⟩ := digits_run hp h
    exact (List.suffix_append _ _).trans hs
  · intro s n _ h
    unfold digits at h
    split at h
    · split at h <;> cases h
    · cases h

theorem radix?_underscore {base : Nat} (h : radix? c = some (base, p)) : ¬p '_' = true := by
  unfold radix? at h
  split at h <;> cases h <;> decide

end Digits

theorem sound_decimalDigits : Sound source (digits isAsciiDigit) :=
  sound_digits (by decide)

theorem sound_radixInteger : Sound source radixInteger := by
  refine .bind (.expect _) fun _ => .bind .peek fun c => ?_
  split
  next base p hradix =>
    obtain ⟨c, -, hc⟩ := Option.bind_eq_some_iff.1 hradix
    exact .bind (.skip _) fun _ => .bind (sound_digits (radix?_underscore hc)) fun _ => .pure _
  next => exact .malformed

theorem sound_sign : Sound source sign := by
  refine .bind .peek fun c => ?_
  split
  · exact .bind (.skip _) fun _ => .pure _
  · exact .bind (.skip _) fun _ => .pure _
  · exact .pure _

theorem sound_wholePart : Sound source wholePart :=
  .bind .peek fun _ => .ite (.bind (.skip _) fun _ => .pure _) sound_decimalDigits

/-- A whole part with more digits than are converted stands in the text. -/
theorem oversized_wholePart {whole : List Char} (hs : s <:+ source)
    (h : wholePart s = .ok (whole, rest)) (hlong : maxIntegerDigits < whole.length) :
    Oversized source whole.length := by
  change (if s.head? = some '0' then _ else digits isAsciiDigit : Scan (List Char)) s = _ at h
  split at h
  · cases h
    exact absurd hlong (by decide)
  · obtain ⟨run, hrun, hdigits⟩ := digits_run (by decide) h
    have hfront : run <+: s := hrun ▸ List.prefix_append run rest
    exact ⟨hlong, run, hfront.isInfix.trans hs.isInfix, hdigits⟩

theorem sound_fractionPart : Sound source fractionPart :=
  .bind (.expect _) fun _ => sound_decimalDigits

theorem sound_exponentPart : Sound source exponentPart :=
  .bind .peek fun _ => .guarded fun _ => .bind (.skip _) fun _ => .bind sound_sign fun _ =>
    .bind sound_decimalDigits fun _ => .pure _

theorem sound_decimalNumber : Sound source decimalNumber := by
  refine .bind sound_sign fun _ =>
    .bind_of sound_wholePart oversized_wholePart fun whole hwhole => ?_
  refine .bind (.optional sound_fractionPart) fun _ => .bind (.optional sound_exponentPart) fun _ =>
    .ite ?_ (.pure _)
  by_cases hlong : maxIntegerDigits < whole.length
  · simp only [if_pos hlong]
    exact .bind (.refuse (hwhole hlong)) fun _ => .pure _
  · simp only [if_neg hlong]
    exact .pure _

theorem sound_specialFloat : Sound source specialFloat :=
  .bind sound_sign fun _ => .bind (.looksAt _) fun _ => .ite (.bind (.skip _) fun _ => .pure _)
    (.bind (.looksAt _) fun _ => .ite (.bind (.skip _) fun _ => .pure _) .malformed)

theorem sound_twoDigits (least greatest : Nat) : Sound source (twoDigits least greatest) :=
  .bind (.exactly _ _) fun _ => .ite (.pure _) .malformed

theorem sound_secondFraction : Sound source secondFraction :=
  .bind (.expect _) fun _ => .bind (.takeWhile _) fun _ => .ite .malformed (.pure _)

theorem sound_timeOfDay : Sound source timeOfDay :=
  .bind (sound_twoDigits _ _) fun _ => .bind (.expect _) fun _ =>
    .bind (sound_twoDigits _ _) fun _ => .bind (.expect _) fun _ =>
      .bind (sound_twoDigits _ _) fun _ => .bind (.optional sound_secondFraction) fun _ => .pure _

theorem sound_writtenDate : Sound source writtenDate :=
  .bind (.exactly _ _) fun _ => .bind (.expect _) fun _ => .bind (sound_twoDigits _ _) fun _ =>
    .bind (.expect _) fun _ => .bind (sound_twoDigits _ _) fun _ => .pure _

theorem sound_zoneOffset : Sound source zoneOffset := by
  refine .bind .peek fun c => ?_
  split
  · exact .bind (.skip _) fun _ => .pure _
  · exact .bind (.skip _) fun _ => .pure _
  · exact .guarded fun _ => .bind (.skip _) fun _ => .bind (sound_twoDigits _ _) fun _ =>
      .bind (.expect _) fun _ => .bind (sound_twoDigits _ _) fun _ => .pure _
  · exact .malformed

theorem sound_timeBehindDate : Sound source timeBehindDate := by
  refine .bind .peek fun c => ?_
  split
  · exact .ite (.bind (.skip _) fun _ => sound_timeOfDay) .malformed
  · exact .malformed

theorem sound_dated (d : Date) : Sound source (dated d) := by
  refine .bind (.optional sound_timeBehindDate) fun t => ?_
  cases t with
  | none =>
    exact .ite (.bind (.optional sound_zoneOffset) fun _ => .guarded fun _ => .pure _)
      (.bind (.pure _) fun _ => .guarded fun _ => .pure _)
  | some t =>
    exact .ite (.bind (.optional sound_zoneOffset) fun _ => .guarded fun _ => .pure _)
      (.bind (.pure _) fun _ => .guarded fun _ => .pure _)

theorem sound_number : Sound source number := by
  refine .bind (.optional sound_radixInteger) fun v => ?_
  split
  · exact .pure _
  refine .bind .get fun s => ?_
  split
  · refine .ite sound_decimalNumber (.bind .get fun s => ?_)
    split
    · exact .ite sound_decimalNumber sound_specialFloat
    · exact .malformed
  · exact .malformed

theorem sound_scalar : Sound source scalar := by
  refine .bind (.optional sound_writtenDate) fun d => ?_
  split
  · exact sound_dated _
  refine .bind (.optional sound_timeOfDay) fun t => ?_
  split
  · exact .pure _
  · exact sound_number

/-! ### Values -/

theorem sound_skipFiller : Sound source (skipFiller fuel) := by
  induction fuel with
  | zero => exact .malformed
  | succ fuel ih =>
    exact .bind (.skipWhile _) fun _ => .bind .peek fun _ =>
      .ite (.bind sound_skipComment fun _ => ih) (.pure _)

theorem sound_filler : Sound source filler :=
  .bind .get fun _ => sound_skipFiller

theorem sound_keyValue {item : Scan Value} (h : Sound source item) : Sound source (keyValue item) :=
  .bind sound_key fun _ => .bind (.expect _) fun _ => .bind (.skipWhile _) fun _ => .bind h fun _ =>
    .pure _

theorem sound_itemsRest {item : Scan Value} (h : Sound source item) (items : List Value) :
    Sound source (itemsRest item fuel items) := by
  induction fuel generalizing items with
  | zero => exact .malformed
  | succ fuel ih =>
    refine .bind sound_filler fun _ => .bind .peek fun _ =>
      .ite (.bind (.skip _) fun _ => .pure _) ?_
    refine .bind h fun _ => .bind sound_filler fun _ => .bind .peek fun c => ?_
    split
    · exact .bind (.skip _) fun _ => .pure _
    · exact .bind (.skip _) fun _ => ih _
    · exact .malformed

theorem sound_inlineRest {item : Scan Value} (h : Sound source item) (entries : Nodes) :
    Sound source (inlineRest item fuel entries) := by
  induction fuel generalizing entries with
  | zero => exact .malformed
  | succ fuel ih =>
    refine .bind (.skipWhile _) fun _ => .bind (sound_keyValue h) fun entry => ?_
    obtain ⟨path, v⟩ := entry
    dsimp only
    split
    · exact .malformed
    refine .bind (.skipWhile _) fun _ => .bind .peek fun c => ?_
    split
    · exact .bind (.skip _) fun _ => .pure _
    · exact .bind (.skip _) fun _ => ih _
    · exact .malformed

theorem sound_inlineTable {item : Scan Value} (h : Sound source item) :
    Sound source (inlineTable item) :=
  .bind (.skipWhile _) fun _ => .bind .peek fun _ => .ite (.bind (.skip _) fun _ => .pure _)
    (.bind .get fun _ => sound_inlineRest h [])

theorem sound_value : Sound source (value depth) := by
  induction depth with
  | zero => exact .malformed
  | succ depth ih =>
    refine .bind .peek fun c => ?_
    split
    · exact .bind sound_string fun _ => .pure _
    · exact .bind sound_string fun _ => .pure _
    · exact .bind (.skip _) fun _ => .bind .get fun _ => .bind (sound_itemsRest ih []) fun _ =>
        .pure _
    · exact .bind (.skip _) fun _ => .bind (sound_inlineTable ih) fun _ => .pure _
    · exact .bind (.looksAt _) fun _ => .ite (.bind (.skip _) fun _ => .pure _)
        (.bind (.looksAt _) fun _ => .ite (.bind (.skip _) fun _ => .pure _) sound_scalar)

/-! ### Documents -/

theorem sound_orMalformed (a? : Option α) : Sound source (orMalformed a?) := by
  cases a? with
  | none => exact .malformed
  | some a => exact .pure a

theorem sound_header (r : Reading) : Sound source (header r) :=
  .bind (.looksAt _) fun _ => .bind (.skip _) fun _ => .bind (.skipWhile _) fun _ =>
    .bind sound_key fun _ => .bind (sound_orMalformed _) fun _ => .bind (.expect _) fun _ =>
      .ite (.bind (.expect _) fun _ => .pure _) (.pure _)

theorem sound_statement (r : Reading) : Sound source (statement r) := by
  refine .bind .peek fun c => ?_
  split
  · exact sound_header r
  · exact .pure _
  · refine .ite ?_ (.ite (.pure _) .malformed)
    exact .bind .get fun _ => .bind (sound_keyValue sound_value) fun _ =>
      .bind (sound_orMalformed _) fun _ => .pure _
  · exact .pure _

theorem sound_statements (r : Reading) : Sound source (statements fuel r) := by
  induction fuel generalizing r with
  | zero => exact .malformed
  | succ fuel ih =>
    refine .bind (.skipWhile _) fun _ => .bind (sound_statement r) fun _ =>
      .bind (.skipWhile _) fun _ => .bind sound_skipComment fun _ => .bind .peek fun c => ?_
    split
    · exact .pure _
    · exact .bind (.skip _) fun _ => ih _
    · exact .malformed

section Returns
variable {text run : List Char}

theorem prefix_of_joinReturns (hrun : '\n' ∉ run) (h : run <+: joinReturns text) :
    run <+: text := by
  fun_induction joinReturns text generalizing run with
  | case1 cs ih =>
    rcases List.prefix_cons_iff.1 h with rfl | ⟨run, rfl, -⟩
    · exact List.nil_prefix
    · exact absurd List.mem_cons_self hrun
  | case2 c cs _ ih =>
    rcases List.prefix_cons_iff.1 h with rfl | ⟨run, rfl, hrest⟩
    · exact List.nil_prefix
    · have hrun' : '\n' ∉ run := fun hmem => hrun (List.mem_cons_of_mem c hmem)
      exact List.prefix_cons_iff.2 (.inr ⟨run, rfl, ih hrun' hrest⟩)
  | case3 => exact h

/-- What holds no line feed stands in the text as it was written, too. -/
theorem infix_of_joinReturns (hrun : '\n' ∉ run) (h : run <:+: joinReturns text) :
    run <:+: text := by
  fun_induction joinReturns text with
  | case1 cs ih =>
    rcases List.infix_cons_iff.1 h with h | h
    · rcases List.prefix_cons_iff.1 h with rfl | ⟨run, rfl, -⟩
      · exact List.nil_infix
      · exact absurd List.mem_cons_self hrun
    · exact List.infix_cons (List.infix_cons (ih h))
  | case2 c cs hreturn ih =>
    rcases List.infix_cons_iff.1 h with h | h
    · have hfront : run <+: joinReturns (c :: cs) := by rwa [joinReturns.eq_2 _ _ hreturn]
      exact (prefix_of_joinReturns hrun hfront).isInfix
    · exact List.infix_cons (ih h)
  | case3 => exact h

end Returns

/-- A document that is refused for the length of an integer holds that integer. -/
theorem read_longInteger {text : List Char} (h : read text = .error (.longInteger n)) :
    Oversized text n := by
  have hjoined : Oversized (joinReturns text) n := by
    unfold read at h
    cases hs : statements ((joinReturns text).length + 1) {} (joinReturns text) with
    | error e =>
      simp only [hs] at h
      cases h
      exact (sound_statements {}).refuses (List.suffix_refl _) hs
    | ok p =>
      simp only [hs] at h
      cases h
  obtain ⟨hn, run, hrun, hdigits⟩ := hjoined
  have hline : '\n' ∉ run := fun hmem => by
    rcases hdigits.1 _ hmem with h | h <;> exact absurd h (by decide)
  exact ⟨hn, run, infix_of_joinReturns hline hrun, hdigits⟩

end TriplePass.Toml

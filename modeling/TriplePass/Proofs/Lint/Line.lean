import Mathlib.Data.List.Basic
import Mathlib.Data.List.Induction
import Mathlib.Data.Nat.Digits.Defs
import TriplePass.Lint.Line
import TriplePass.Proofs.Text.Runs

/-! # Reading the lines of the linter

A line holds a diagnostic exactly if it can be taken apart into a file, a location, a kind and a
message. Several files may be possible, because a message can look like a line itself: the shortest
is read, and with the file all other parts are settled. A line that the linter has written is read
back unless its file looks like a line itself. Numbers with too many digits are no lines without a
diagnostic: reading them fails.
-/
namespace TriplePass

namespace Text

def placeValue (digits : List Char) : Nat :=
  Nat.ofDigits 10 (digits.reverse.map fun c => (digitValue? c).getD 0)

theorem numeral_eq (digits : List Char) : numeral digits = placeValue digits := by
  induction digits using List.reverseRecOn with
  | nil => rfl
  | append_singleton digits c ih =>
    unfold numeral placeValue at ih ⊢
    rw [List.foldl_append, ih, List.reverse_append, List.reverse_singleton, List.singleton_append,
      List.map_cons, Nat.ofDigits_cons]
    exact Nat.add_comm _ _

end Text

namespace Lint
namespace Line
variable {s : List Char} {l : Line}

/-! ### The shape of a line -/

def IsRun (p : Char → Bool) (run : List Char) : Prop :=
  run ≠ [] ∧ ∀ c ∈ run, p c = true

/-- The parts of a line are what they are called; there is a file, and the message does not start
with a blank. -/
structure Shaped (l : Line) : Prop where
  file : l.file ≠ []
  line : IsRun Text.isDigit l.line
  column : IsRun Text.isDigit l.column
  kind : IsRun isLowercase l.kind
  message : ∀ c ∈ l.message.head?, Text.isBlank c = false

theorem IsRun.not_mem {p : Char → Bool} {run : List Char} {c : Char} (hrun : IsRun p run)
    (hc : p c = false) : c ∉ run := by
  intro hmem
  rw [hrun.2 c hmem] at hc
  cases hc

instance (p : Char → Bool) (run : List Char) : Decidable (IsRun p run) :=
  decidable_of_iff (run ≠ [] ∧ run.all p = true) (and_congr_right' List.all_eq_true)

theorem shaped_iff (l : Line) :
    l.Shaped ↔ l.file ≠ [] ∧ IsRun Text.isDigit l.line ∧ IsRun Text.isDigit l.column ∧
      IsRun isLowercase l.kind ∧ l.message.head?.any Text.isBlank = false := by
  rw [Option.any_eq_false]
  constructor
  · rintro ⟨hfile, hline, hcolumn, hkind, hmessage⟩
    exact ⟨hfile, hline, hcolumn, hkind, fun c hc => by simp [hmessage c hc]⟩
  · rintro ⟨hfile, hline, hcolumn, hkind, hmessage⟩
    exact ⟨hfile, hline, hcolumn, hkind, fun c hc => by simpa using hmessage c hc⟩

instance (l : Line) : Decidable l.Shaped :=
  decidable_of_iff _ (shaped_iff l).symm

def location (l : Line) : List Char :=
  '(' :: (l.line ++ ':' :: (l.column ++ ')' :: '[' :: (l.kind ++ [']', ':'])))

def written (l : Line) (gap : List Char) : List Char :=
  l.file ++ (l.location ++ (gap ++ l.message))

theorem format_eq (l : Line) : l.format = l.written [' '] := by
  simp [format, written, location]

/-- A line can be taken apart into these parts. -/
def IsReading (s : List Char) (l : Line) : Prop :=
  l.Shaped ∧ ∃ gap, (∀ c ∈ gap, Text.isBlank c = true) ∧ s = l.written gap

def Shortest (s : List Char) (l : Line) : Prop :=
  IsReading s l ∧ ∀ other, IsReading s other → l.file.length ≤ other.file.length

/-! ### Taking a line apart -/

theorem runBefore?_eq_some {p : Char → Bool} {c : Char} (hc : p c = false) {mark run rest :
    List Char} :
    runBefore? p (c :: mark) s = some (run, rest) ↔ IsRun p run ∧ s = run ++ c :: (mark ++ rest) := by
  unfold runBefore?
  constructor
  · intro h
    split at h
    · cases h
    next hrun =>
      obtain ⟨rest', hdrop, heq⟩ := Option.map_eq_some_iff.1 h
      obtain ⟨rfl, rfl⟩ := Prod.mk.inj heq
      refine ⟨⟨fun hnil => hrun (List.isEmpty_iff.2 hnil), fun _ => List.mem_takeWhile_imp⟩, ?_⟩
      have hbehind := Text.dropPrefix?_eq_some.1 hdrop
      calc s = s.takeWhile p ++ s.dropWhile p := List.takeWhile_append_dropWhile.symm
        _ = s.takeWhile p ++ c :: (mark ++ rest') := by rw [hbehind, List.cons_append]
  · rintro ⟨⟨hne, hall⟩, rfl⟩
    rw [Text.takeWhile_all hall hc, Text.dropWhile_all hall hc,
      if_neg fun hempty => hne (List.isEmpty_iff.1 hempty)]
    have hdrop : Text.dropPrefix? (c :: mark) (c :: (mark ++ rest)) = some rest :=
      Text.dropPrefix?_eq_some.2 rfl
    rw [hdrop]
    rfl

/-- Without line feeds a message runs to the end. -/
theorem message?_eq (hs : '\n' ∉ s) : message? s = some s := by
  have hall : ∀ c ∈ s, (c != '\n') = true := by
    intro c hc
    simpa using fun h : c = '\n' => hs (h ▸ hc)
  rw [message?, List.dropWhile_eq_nil_iff.2 hall, List.takeWhile_eq_self_iff.2 hall]

/-- What comes behind the file of a line: the location, blanks, and a message without blanks in
front. -/
def Behind (s : List Char) (l : Line) : Prop :=
  IsRun Text.isDigit l.line ∧ IsRun Text.isDigit l.column ∧ IsRun isLowercase l.kind ∧
    (∀ c ∈ l.message.head?, Text.isBlank c = false) ∧
    ∃ gap, (∀ c ∈ gap, Text.isBlank c = true) ∧ s = l.location ++ (gap ++ l.message)

theorem behind_of_behindFile? (hs : '\n' ∉ s) (h : behindFile? s = some l) :
    l.file = [] ∧ Behind s l := by
  obtain ⟨s₁, h₁, h⟩ := Option.bind_eq_some_iff.1 h
  obtain ⟨⟨line, s₂⟩, h₂, h⟩ := Option.bind_eq_some_iff.1 h
  obtain ⟨⟨column, s₃⟩, h₃, h⟩ := Option.bind_eq_some_iff.1 h
  obtain ⟨⟨kind, s₄⟩, h₄, h⟩ := Option.bind_eq_some_iff.1 h
  obtain ⟨message, h₅, h⟩ := Option.bind_eq_some_iff.1 h
  obtain rfl := Text.dropPrefix?_eq_some.1 h₁
  obtain ⟨hline, rfl⟩ := (runBefore?_eq_some (by decide)).1 h₂
  obtain ⟨hcolumn, rfl⟩ := (runBefore?_eq_some (by decide)).1 h₃
  obtain ⟨hkind, rfl⟩ := (runBefore?_eq_some (by decide)).1 h₄
  have hend : '\n' ∉ s₄.dropWhile Text.isBlank := by
    intro hmem
    have hmem := (List.dropWhile_sublist Text.isBlank).subset hmem
    exact hs (by simp [hmem])
  rw [message?_eq hend] at h₅
  cases h₅
  cases h
  obtain ⟨hhead, gap, hgap, hs₄⟩ := Text.dropWhile_eq_iff.1 (rfl : s₄.dropWhile Text.isBlank = _)
  refine ⟨rfl, hline, hcolumn, hkind, hhead, gap, hgap, ?_⟩
  rw [← hs₄]
  simp [location]

theorem behindFile?_of_behind (hs : '\n' ∉ s) (h : Behind s l) :
    behindFile? s = some { l with file := [] } := by
  obtain ⟨hline, hcolumn, hkind, hhead, gap, hgap, rfl⟩ := h
  have hmessage : '\n' ∉ l.message := fun hmem => hs (by simp [hmem])
  have hrest : (gap ++ l.message).dropWhile Text.isBlank = l.message :=
    Text.dropWhile_eq_iff.2 ⟨hhead, gap, hgap, rfl⟩
  have hopen : Text.dropPrefix? ['('] (l.location ++ (gap ++ l.message)) =
      some (l.line ++ ':' :: ([] ++ (l.column ++ ')' :: (['['] ++ (l.kind ++ ']' :: ([':'] ++
        (gap ++ l.message))))))) :=
    Text.dropPrefix?_eq_some.2 (by simp [location])
  unfold behindFile?
  refine Option.bind_eq_some_iff.2 ⟨_, hopen, ?_⟩
  refine Option.bind_eq_some_iff.2
    ⟨(l.line, _), (runBefore?_eq_some (by decide)).2 ⟨hline, rfl⟩, ?_⟩
  refine Option.bind_eq_some_iff.2
    ⟨(l.column, _), (runBefore?_eq_some (by decide)).2 ⟨hcolumn, rfl⟩, ?_⟩
  refine Option.bind_eq_some_iff.2
    ⟨(l.kind, _), (runBefore?_eq_some (by decide)).2 ⟨hkind, rfl⟩, ?_⟩
  refine Option.bind_eq_some_iff.2 ⟨l.message, ?_, rfl⟩
  rw [hrest, message?_eq hmessage]

/-- With the file all parts are settled. -/
theorem Behind.unique {other : Line} (hs : '\n' ∉ s) (h : Behind s l) (h' : Behind s other)
    (hfile : l.file = other.file) : l = other := by
  have heq := (behindFile?_of_behind hs h).symm.trans (behindFile?_of_behind hs h')
  cases l
  cases other
  cases heq
  cases hfile
  rfl

theorem isReading_iff : IsReading s l ↔ l.file ≠ [] ∧ ∃ rest, Behind rest l ∧ s = l.file ++ rest := by
  constructor
  · rintro ⟨⟨hfile, hline, hcolumn, hkind, hmessage⟩, gap, hgap, rfl⟩
    exact ⟨hfile, _, ⟨hline, hcolumn, hkind, hmessage, gap, hgap, rfl⟩, rfl⟩
  · rintro ⟨hfile, rest, ⟨hline, hcolumn, hkind, hmessage, gap, hgap, rfl⟩, rfl⟩
    exact ⟨⟨hfile, hline, hcolumn, hkind, hmessage⟩, gap, hgap, rfl⟩

/-! ### The shortest file -/

theorem from?_eq_none {read : List Char} (hs : '\n' ∉ s) (h : from? read s = none) :
    ∀ front back, s = front ++ back → ¬Behind back l := by
  induction s generalizing read with
  | nil =>
    rintro front back hsplit ⟨_, _, _, _, gap, _, rfl⟩
    simp [location] at hsplit
  | cons c cs ih =>
    obtain ⟨hc, hcs⟩ := not_or.1 (mt List.mem_cons.2 hs)
    unfold from? at h
    split at h
    · cases h
    next hnone =>
      dsimp only at h
      rw [if_neg (Ne.symm hc)] at h
      intro front back hsplit hback
      cases front with
      | nil =>
        rw [List.nil_append] at hsplit
        rw [hsplit, behindFile?_of_behind (hsplit ▸ hs) hback] at hnone
        cases hnone
      | cons _ front => exact ih hcs h front back (List.cons.inj hsplit).2 hback

theorem from?_eq_some {read : List Char} (hs : '\n' ∉ s) (h : from? read s = some l) :
    ∃ more rest, s = more ++ rest ∧ l.file = read.reverse ++ more ∧ Behind rest l ∧
      ∀ front back other, s = front ++ back → Behind back other →
        more.length ≤ front.length := by
  induction s generalizing read with
  | nil => cases h
  | cons c cs ih =>
    obtain ⟨hc, hcs⟩ := not_or.1 (mt List.mem_cons.2 hs)
    unfold from? at h
    split at h
    next line hline =>
      cases h
      obtain ⟨hfile, hbehind⟩ := behind_of_behindFile? hs hline
      exact ⟨[], c :: cs, rfl, by simp, hbehind, fun _ _ _ _ _ => Nat.zero_le _⟩
    next hnone =>
      dsimp only at h
      rw [if_neg (Ne.symm hc)] at h
      obtain ⟨more, rest, rfl, hfile, hrest, hshortest⟩ := ih hcs h
      refine ⟨c :: more, rest, rfl, by simp [hfile], hrest, ?_⟩
      intro front back other hsplit hback
      cases front with
      | nil =>
        rw [List.nil_append] at hsplit
        rw [hsplit, behindFile?_of_behind (hsplit ▸ hs) hback] at hnone
        cases hnone
      | cons _ front =>
        exact Nat.succ_le_succ (hshortest front back other (List.cons.inj hsplit).2 hback)

theorem parse?_eq_none (hs : '\n' ∉ s) (h : parse? s = none) : ¬IsReading s l := by
  rw [isReading_iff]
  rintro ⟨hfile, rest, hrest, hsplit⟩
  cases hname : l.file with
  | nil => exact hfile hname
  | cons c file =>
    rw [hname] at hsplit
    subst hsplit
    obtain ⟨hc, hcs⟩ := not_or.1 (mt List.mem_cons.2 hs)
    rw [List.cons_append, parse?, if_neg (Ne.symm hc)] at h
    exact from?_eq_none hcs h file rest rfl hrest

theorem parse?_shortest (hs : '\n' ∉ s) (h : parse? s = some l) : Shortest s l := by
  cases s with
  | nil => cases h
  | cons c cs =>
    obtain ⟨hc, hcs⟩ := not_or.1 (mt List.mem_cons.2 hs)
    rw [parse?, if_neg (Ne.symm hc)] at h
    obtain ⟨more, rest, rfl, hfile, hrest, hshortest⟩ := from?_eq_some hcs h
    refine ⟨isReading_iff.2 ⟨by simp [hfile], rest, hrest, by simp [hfile]⟩, ?_⟩
    intro other hother
    obtain ⟨hname, back, hback, hsplit⟩ := isReading_iff.1 hother
    cases hotherFile : other.file with
    | nil => exact absurd hotherFile hname
    | cons _ front =>
      rw [hotherFile] at hsplit
      have hlength := hshortest front back other (List.cons.inj hsplit).2 hback
      simpa [hfile] using Nat.succ_le_succ hlength

theorem Shortest.unique {other : Line} (hs : '\n' ∉ s) (h : Shortest s l)
    (h' : Shortest s other) : l = other := by
  obtain ⟨-, rest, hrest, hsplit⟩ := isReading_iff.1 h.1
  obtain ⟨-, back, hback, hsplit'⟩ := isReading_iff.1 h'.1
  have hlength := Nat.le_antisymm (h.2 other h'.1) (h'.2 l h.1)
  obtain ⟨hfile, rfl⟩ := List.append_inj (hsplit.symm.trans hsplit') hlength
  have hrestFree : '\n' ∉ rest := fun hmem => hs (hsplit ▸ List.mem_append_right _ hmem)
  exact hrest.unique hrestFree hback hfile

theorem parse?_eq_none_iff (hs : '\n' ∉ s) : parse? s = none ↔ ∀ l, ¬IsReading s l := by
  constructor
  · exact fun h _ => parse?_eq_none hs h
  · intro h
    cases hparse : parse? s with
    | none => rfl
    | some l => exact absurd (parse?_shortest hs hparse).1 (h l)

/-- A line is read with the shortest file, if it is a line at all. -/
theorem parse?_eq_some_iff (hs : '\n' ∉ s) : parse? s = some l ↔ Shortest s l := by
  constructor
  · exact parse?_shortest hs
  · intro h
    cases hparse : parse? s with
    | none => exact absurd h.1 (parse?_eq_none hs hparse)
    | some other => rw [h.unique hs (parse?_shortest hs hparse)]

/-! ### Files that look like lines -/

def IsLocation (u : List Char) : Prop :=
  ∃ l : Line, IsRun Text.isDigit l.line ∧ IsRun Text.isDigit l.column ∧
    IsRun isLowercase l.kind ∧ u = l.location

def Unlocated (file : List Char) : Prop :=
  ∀ front u back, IsLocation u → file = front ++ (u ++ back) → front = []

theorem unlocated_of_tail {file : List Char} (h : '(' ∉ file.tail) : Unlocated file := by
  rintro front u back ⟨l, _, _, _, rfl⟩ rfl
  cases front with
  | nil => rfl
  | cons c front => exact absurd (by simp [location]) h

/-- A location opens only once. -/
theorem open_not_mem_location (hline : IsRun Text.isDigit l.line)
    (hcolumn : IsRun Text.isDigit l.column) (hkind : IsRun isLowercase l.kind) :
    '(' ∉ l.location.tail := by
  have hline := hline.not_mem (c := '(') (by decide)
  have hcolumn := hcolumn.not_mem (c := '(') (by decide)
  have hkind := hkind.not_mem (c := '(') (by decide)
  simp [location, hline, hcolumn, hkind]

/-- In a written line no file is shorter than its own, unless that looks like a line. -/
theorem shortest_written (hl : l.Shaped) (hfile : Unlocated l.file) (gap : List Char)
    (hgap : ∀ c ∈ gap, Text.isBlank c = true) : Shortest (l.written gap) l := by
  refine ⟨⟨hl, gap, hgap, rfl⟩, ?_⟩
  rintro other ⟨hother, gap', _, hsplit⟩
  by_contra hshorter
  unfold written at hsplit
  have hlocation : IsLocation other.location :=
    ⟨other, hother.line, hother.column, hother.kind, rfl⟩
  rcases List.append_eq_append_iff.1 hsplit with ⟨more, hmore, _⟩ | ⟨more, hmore, hrest⟩
  · rw [hmore, List.length_append] at hshorter
    omega
  rcases List.append_eq_append_iff.1 hrest with ⟨tail, htail, _⟩ | ⟨tail, htail, hbehind⟩
  · exact hother.file (hfile other.file other.location tail hlocation (htail ▸ hmore))
  · cases tail with
    | nil =>
      rw [List.append_nil] at htail
      refine hother.file (hfile other.file other.location [] hlocation ?_)
      rw [htail, List.append_nil, hmore]
    | cons c tail =>
      -- the location of the shorter file would open a second time
      have hc : c = '(' := (List.cons.inj hbehind).1.symm
      cases more with
      | nil =>
        rw [hmore, List.append_nil] at hshorter
        exact hshorter (Nat.le_refl _)
      | cons d more =>
        refine open_not_mem_location hother.line hother.column hother.kind ?_
        rw [htail, hc]
        simp

/-- With one opening bracket there is one way to take a line apart. -/
theorem IsReading.unique {other : Line} (h : IsReading s l) (hs : '\n' ∉ s) (hfile : '(' ∉ l.file)
    (hmessage : '(' ∉ l.message) (hother : IsReading s other) : other = l := by
  obtain ⟨-, rest, hrest, hsplit⟩ := isReading_iff.1 h
  obtain ⟨-, back, hback, hsplit'⟩ := isReading_iff.1 hother
  have hrestFree : '\n' ∉ rest := fun hmem => hs (hsplit ▸ List.mem_append_right _ hmem)
  have hopen : ∃ tail, rest = '(' :: tail ∧ '(' ∉ tail := by
    obtain ⟨hline, hcolumn, hkind, -, gap, hgap, rfl⟩ := hrest
    have hlocation := open_not_mem_location hline hcolumn hkind
    have hgapFree : '(' ∉ gap := fun hmem => absurd (hgap _ hmem) (by decide)
    refine ⟨l.location.tail ++ (gap ++ l.message), rfl, ?_⟩
    simp [hlocation, hgapFree, hmessage]
  have hopen' : ∃ tail, back = '(' :: tail := by
    obtain ⟨-, -, -, -, gap, -, rfl⟩ := hback
    exact ⟨_, rfl⟩
  obtain ⟨tail, rfl, htail⟩ := hopen
  obtain ⟨tail', rfl⟩ := hopen'
  obtain ⟨hfiles, _, rfl⟩ :=
    (List.append_cons_inj_of_notMem hfile htail).1 (hsplit.symm.trans hsplit')
  exact hback.unique hrestFree hrest hfiles.symm

/-! ### Diagnostics -/

def Fits (l : Line) : Prop :=
  l.line.length ≤ maxDigits ∧ l.column.length ≤ maxDigits

def excess (l : Line) : Nat :=
  if maxDigits < l.line.length then l.line.length else l.column.length

def reported (l : Line) : Diagnostic where
  file := String.ofList l.file
  line := some (Text.placeValue l.line)
  column := some (Text.placeValue l.column)
  severity :=
    if l.kind = "warn".toList ∨ l.kind = "warning".toList then .warning
    else if l.kind = "error".toList then .error
    else .notice
  message := String.ofList l.message
  tool := "dscanner"

theorem severity_eq (kind : List Char) :
    severity kind =
      if kind = "warn".toList ∨ kind = "warning".toList then .warning
      else if kind = "error".toList then .error
      else .notice := by
  have htext : ∀ word : String, String.ofList kind = word ↔ kind = word.toList := by
    intro word
    rw [← String.toList_inj, String.toList_ofList]
  unfold severity
  split
  next h => rw [if_pos (.inl ((htext _).1 h))]
  next h => rw [if_pos (.inr ((htext _).1 h))]
  next h =>
    rw [(htext _).1 h]
    decide
  next hwarn hwarning herror =>
    rw [if_neg (not_or.2 ⟨mt (htext _).2 hwarn, mt (htext _).2 hwarning⟩),
      if_neg (mt (htext _).2 herror)]

theorem diagnostic_fits (h : l.Fits) : l.diagnostic = .ok l.reported := by
  have hnumber : ∀ digits : List Char, digits.length ≤ maxDigits →
      number digits = .ok (Text.placeValue digits : Int) := by
    intro digits hdigits
    rw [number, if_neg (Nat.not_lt.2 hdigits), Text.numeral_eq]
  unfold diagnostic
  rw [hnumber l.line h.1, hnumber l.column h.2, severity_eq]
  rfl

theorem diagnostic_excess (h : ¬l.Fits) : l.diagnostic = .error (.longNumber l.excess) := by
  unfold diagnostic number excess
  by_cases hline : maxDigits < l.line.length
  · rw [if_pos hline, if_pos hline]
    rfl
  · have hcolumn : maxDigits < l.column.length := by
      unfold Fits at h
      omega
    rw [if_neg hline, if_neg hline, if_pos hcolumn]
    rfl

end Line

variable {s : List Char} {l : Line}

theorem diagnosticOf_fits (hs : '\n' ∉ s) (hl : l.Shortest s) (hfits : l.Fits) :
    diagnosticOf s = .ok (some l.reported) := by
  rw [diagnosticOf, (Line.parse?_eq_some_iff hs).2 hl]
  dsimp only
  rw [Line.diagnostic_fits hfits]
  rfl

theorem diagnosticOf_excess (hs : '\n' ∉ s) (hl : l.Shortest s) (hfits : ¬l.Fits) :
    diagnosticOf s = .error (.longNumber l.excess) := by
  rw [diagnosticOf, (Line.parse?_eq_some_iff hs).2 hl]
  dsimp only
  rw [Line.diagnostic_excess hfits]
  rfl

theorem diagnosticOf_none (hs : '\n' ∉ s) (h : ∀ l, ¬Line.IsReading s l) :
    diagnosticOf s = .ok none := by
  rw [diagnosticOf, (Line.parse?_eq_none_iff hs).2 h]

/-- A line of the linter is none, is reported, or has a number that cannot be read. -/
theorem diagnosticOf_cases (hs : '\n' ∉ s) :
    (∀ l, ¬Line.IsReading s l) ∧ diagnosticOf s = .ok none ∨
      ∃ l, Line.Shortest s l ∧
        (l.Fits ∧ diagnosticOf s = .ok (some l.reported) ∨
          ¬l.Fits ∧ diagnosticOf s = .error (.longNumber l.excess)) := by
  cases hparse : Line.parse? s with
  | none =>
    have hnone := (Line.parse?_eq_none_iff hs).1 hparse
    exact .inl ⟨hnone, diagnosticOf_none hs hnone⟩
  | some l =>
    have hl := (Line.parse?_eq_some_iff hs).1 hparse
    by_cases hfits : l.Fits
    · exact .inr ⟨l, hl, .inl ⟨hfits, diagnosticOf_fits hs hl hfits⟩⟩
    · exact .inr ⟨l, hl, .inr ⟨hfits, diagnosticOf_excess hs hl hfits⟩⟩

theorem diagnosticOf_eq_some_iff (hs : '\n' ∉ s) {d : Diagnostic} :
    diagnosticOf s = .ok (some d) ↔ ∃ l, Line.Shortest s l ∧ l.Fits ∧ d = l.reported := by
  constructor
  · intro h
    rcases diagnosticOf_cases hs with ⟨_, heq⟩ | ⟨l, hl, ⟨hfits, heq⟩ | ⟨_, heq⟩⟩
    · rw [heq] at h
      cases h
    · rw [heq] at h
      cases h
      exact ⟨l, hl, hfits, rfl⟩
    · rw [heq] at h
      cases h
  · rintro ⟨l, hl, hfits, rfl⟩
    exact diagnosticOf_fits hs hl hfits

theorem diagnosticOf_eq_none_iff (hs : '\n' ∉ s) :
    diagnosticOf s = .ok none ↔ ∀ l, ¬Line.IsReading s l := by
  refine ⟨fun h => ?_, diagnosticOf_none hs⟩
  rcases diagnosticOf_cases hs with ⟨hnone, _⟩ | ⟨l, hl, ⟨_, heq⟩ | ⟨_, heq⟩⟩
  · exact hnone
  · rw [heq] at h
    cases h
  · rw [heq] at h
    cases h

theorem diagnosticOf_eq_error_iff (hs : '\n' ∉ s) {e : Failure} :
    diagnosticOf s = .error e ↔
      ∃ l, Line.Shortest s l ∧ ¬l.Fits ∧ e = .longNumber l.excess := by
  constructor
  · intro h
    rcases diagnosticOf_cases hs with ⟨_, heq⟩ | ⟨l, hl, ⟨_, heq⟩ | ⟨hfits, heq⟩⟩
    · rw [heq] at h
      cases h
    · rw [heq] at h
      cases h
    · rw [heq] at h
      cases h
      exact ⟨l, hl, hfits, rfl⟩
  · rintro ⟨l, hl, hfits, rfl⟩
    exact diagnosticOf_excess hs hl hfits

theorem newline_not_mem_format (hl : l.Shaped) (hfile : '\n' ∉ l.file)
    (hmessage : '\n' ∉ l.message) : '\n' ∉ l.format := by
  have hline := hl.line.not_mem (c := '\n') (by decide)
  have hcolumn := hl.column.not_mem (c := '\n') (by decide)
  have hkind := hl.kind.not_mem (c := '\n') (by decide)
  simp [Line.format, hfile, hline, hcolumn, hkind, hmessage]

/-- What the linter writes is read back, if the file does not look like a line itself. Whatever has
the shape of a line is reported with the shortest file, and anything else is not reported. If there
is a number with too many digits behind the shortest file, reading fails, also where no shape of the
line has numbers that can be read. -/
theorem lines_read (l : Line) (hs : '\n' ∉ s) :
    (l.Shaped → '\n' ∉ l.file → Line.Unlocated l.file → '\n' ∉ l.message → l.Fits →
      diagnosticOf l.format = .ok (some l.reported)) ∧
    (∀ d, diagnosticOf s = .ok (some d) ↔ ∃ l, Line.Shortest s l ∧ l.Fits ∧ d = l.reported) ∧
    (diagnosticOf s = .ok none ↔ ∀ l, ¬Line.IsReading s l) ∧
    (∀ e, diagnosticOf s = .error e ↔
      ∃ l, Line.Shortest s l ∧ ¬l.Fits ∧ e = .longNumber l.excess) ∧
    ((diagnosticOf s = .ok none ↔ ∀ l, Line.IsReading s l → ¬l.Fits) ↔
      ((∃ l, Line.IsReading s l) → ∃ l, Line.IsReading s l ∧ l.Fits)) := by
  refine ⟨?_, fun d => diagnosticOf_eq_some_iff hs, diagnosticOf_eq_none_iff hs,
    fun e => diagnosticOf_eq_error_iff hs, ?_⟩
  · intro hl hfile hplain hmessage hfits
    have hshortest := Line.shortest_written hl hplain [' '] (List.forall_mem_singleton.2 rfl)
    rw [← Line.format_eq] at hshortest
    exact diagnosticOf_fits (newline_not_mem_format hl hfile hmessage) hshortest hfits
  · rw [diagnosticOf_eq_none_iff hs]
    constructor
    · rintro hiff ⟨l, hl⟩
      by_contra hnone
      exact hiff.2 (fun other hother hfits => hnone ⟨other, hother, hfits⟩) l hl
    · intro h
      refine ⟨fun hnone l hl => absurd hl (hnone l), fun hlong l hl => ?_⟩
      obtain ⟨other, hother, hfits⟩ := h ⟨l, hl⟩
      exact hlong other hother hfits

/-- The file starts with a location, the message holds a line, and the digits are of two scripts. -/
def nestedLine : Line :=
  ⟨"(1:2)[x]:a".toList, "\u0663".toList, "42".toList, "warning".toList,
    "b(3:4)[error]: c".toList⟩

theorem lines_read_nested :
    '\n' ∉ nestedLine.format ∧
      (nestedLine.Shaped ∧ '\n' ∉ nestedLine.file ∧ Line.Unlocated nestedLine.file ∧
        '\n' ∉ nestedLine.message ∧ nestedLine.Fits) ∧
      diagnosticOf nestedLine.format = .ok (some {
        file := "(1:2)[x]:a"
        line := some 3
        column := some 42
        severity := .warning
        message := "b(3:4)[error]: c"
        tool := "dscanner" }) ∧
      ∃ l, Line.Shortest nestedLine.format l ∧ l.Fits ∧ l.reported = nestedLine.reported := by
  have hshaped : nestedLine.Shaped := by decide
  have hplain : Line.Unlocated nestedLine.file := Line.unlocated_of_tail (by decide)
  have hfile : '\n' ∉ nestedLine.file := by decide
  have hmessage : '\n' ∉ nestedLine.message := by decide
  have hfits : nestedLine.Fits := ⟨by decide, by decide⟩
  have hs : '\n' ∉ nestedLine.format := by decide
  obtain ⟨hread, hsome, _⟩ := lines_read nestedLine hs
  have hreported := hread hshaped hfile hplain hmessage hfits
  obtain ⟨l, hl, hshort, heq⟩ := (hsome _).1 hreported
  exact ⟨hs, ⟨hshaped, hfile, hplain, hmessage, hfits⟩, hreported, l, hl, hshort, heq.symm⟩

def longLine : Line :=
  ⟨['a'], List.replicate 4301 '1', ['1'], "warn".toList, ['x']⟩

/-- The line cannot be taken apart with numbers that can be read, and yet it is not left alone: it
fails. -/
theorem line_unread :
    '\n' ∉ longLine.format ∧ (∀ l, Line.IsReading longLine.format l → ¬l.Fits) ∧
      diagnosticOf longLine.format = .error (.longNumber 4301) := by
  have hdigit : Line.IsRun Text.isDigit (List.replicate 4301 '1') := by
    refine ⟨mt (List.replicate_eq_nil_iff _).1 (by decide), fun c hc => ?_⟩
    rw [(List.mem_replicate.1 hc).2]
    decide
  have hshaped : longLine.Shaped :=
    (Line.shaped_iff _).2 ⟨by decide, hdigit, by decide, by decide, by decide⟩
  have hfree := newline_not_mem_format hshaped (by decide) (by decide)
  have hreading : Line.IsReading longLine.format longLine :=
    ⟨hshaped, [' '], List.forall_mem_singleton.2 rfl, Line.format_eq longLine⟩
  have hunique : ∀ l, Line.IsReading longLine.format l → l = longLine := fun l hl =>
    hreading.unique hfree (by decide) (by decide) hl
  have hlong : ¬longLine.Fits := by
    rintro ⟨hline, _⟩
    rw [longLine, List.length_replicate] at hline
    exact absurd hline (by decide)
  have hshortest : Line.Shortest longLine.format longLine :=
    ⟨hreading, fun l hl => by rw [hunique l hl]⟩
  refine ⟨hfree, fun l hl => hunique l hl ▸ hlong, ?_⟩
  rw [diagnosticOf_excess hfree hshortest hlong, Line.excess, longLine, List.length_replicate]
  rfl

end Lint
end TriplePass

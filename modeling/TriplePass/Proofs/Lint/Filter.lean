import TriplePass.Lint.Filter
import TriplePass.Proofs.Text.Lines

/-! # What the lint filter leaves of an outcome

Filtering records diagnostics in an outcome and changes nothing else of it. It fails only for a
number with too many digits. The messages of a stream, put together again, are its text without the
lines that are suppressed.
-/
namespace TriplePass.Lint
variable {e : Failure}

theorem number_error {digits : List Char} (h : Line.number digits = .error e) :
    e = .longNumber digits.length ∧ Line.maxDigits < digits.length := by
  unfold Line.number at h
  split at h
  next hlong =>
    cases h
    exact ⟨rfl, hlong⟩
  · cases h

theorem diagnostic_error {l : Line} (h : l.diagnostic = .error e) :
    ∃ digits, e = .longNumber digits ∧ (digits = l.line.length ∨ digits = l.column.length) ∧
      Line.maxDigits < digits := by
  unfold Line.diagnostic at h
  cases hl : Line.number l.line with
  | error e' =>
    rw [hl] at h
    cases h
    obtain ⟨he, hlong⟩ := number_error hl
    exact ⟨_, he, .inl rfl, hlong⟩
  | ok line =>
    cases hc : Line.number l.column with
    | error e' =>
      rw [hl, hc] at h
      cases h
      obtain ⟨he, hlong⟩ := number_error hc
      exact ⟨_, he, .inr rfl, hlong⟩
    | ok column =>
      rw [hl, hc] at h
      cases h

def HasLongNumber (line : List Char) (digits : Nat) : Prop :=
  ∃ l, Line.parse? (Text.chomp line) = some l ∧
    (digits = l.line.length ∨ digits = l.column.length) ∧ Line.maxDigits < digits

theorem messageOf_error {stream : Stream} {line : List Char}
    (h : messageOf stream line = .error e) :
    ∃ digits, e = .longNumber digits ∧ HasLongNumber line digits := by
  unfold messageOf diagnosticOf at h
  cases hp : Line.parse? (Text.chomp line) with
  | none =>
    rw [hp] at h
    cases h
  | some l =>
    rw [hp] at h
    dsimp only at h
    cases hd : l.diagnostic with
    | error e' =>
      rw [hd] at h
      cases h
      obtain ⟨digits, he, hlength, hlong⟩ := diagnostic_error hd
      exact ⟨digits, he, l, hp, hlength, hlong⟩
    | ok d =>
      rw [hd] at h
      cases h

theorem filterLines_error {stream : Stream} {lines : List (List Char)}
    (h : filterLines stream lines = .error e) :
    ∃ digits, e = .longNumber digits ∧ ∃ line ∈ lines, HasLongNumber line digits := by
  induction lines with
  | nil => cases h
  | cons line rest ih =>
    unfold filterLines at h
    cases hm : messageOf stream line with
    | error e' =>
      rw [hm] at h
      cases h
      obtain ⟨digits, he, hlong⟩ := messageOf_error hm
      exact ⟨digits, he, line, List.mem_cons_self, hlong⟩
    | ok message =>
      rw [hm] at h
      cases hr : filterLines stream rest with
      | error e' =>
        rw [hr] at h
        cases h
        obtain ⟨digits, he, line', hmem, hlong⟩ := ih hr
        exact ⟨digits, he, line', List.mem_cons_of_mem _ hmem, hlong⟩
      | ok messages =>
        rw [hr] at h
        cases h

theorem filterOutcome_streams {o filtered : Outcome} {messages : List Message}
    (h : filterOutcome o = .ok (filtered, messages)) :
    ∃ out err, filterStream .stdout o.stdout = .ok out ∧ filterStream .stderr o.stderr = .ok err ∧
      messages = out ++ err ∧
      filtered = { o with diagnostics := messages.filterMap (·.diagnostic) } := by
  unfold filterOutcome at h
  cases hout : filterStream .stdout o.stdout with
  | error e =>
    rw [hout] at h
    cases h
  | ok out =>
    cases herr : filterStream .stderr o.stderr with
    | error e =>
      rw [hout, herr] at h
      cases h
    | ok err =>
      rw [hout, herr] at h
      cases h
      exact ⟨out, err, rfl, rfl, rfl, rfl⟩

theorem filterOutcome_ok {o filtered : Outcome} {messages : List Message}
    (h : filterOutcome o = .ok (filtered, messages)) :
    filtered = { o with diagnostics := messages.filterMap (·.diagnostic) } := by
  obtain ⟨_, _, _, _, _, hfiltered⟩ := filterOutcome_streams h
  exact hfiltered

theorem filterOutcome_error {o : Outcome} (h : filterOutcome o = .error e) :
    ∃ digits stream, e = .longNumber digits ∧
      ∃ line ∈ Text.linesAny (o.text stream).toList, HasLongNumber line digits := by
  unfold filterOutcome at h
  cases hout : filterStream .stdout o.stdout with
  | error e' =>
    rw [hout] at h
    cases h
    obtain ⟨digits, he, hline⟩ := filterLines_error hout
    exact ⟨digits, .stdout, he, hline⟩
  | ok out =>
    cases herr : filterStream .stderr o.stderr with
    | error e' =>
      rw [hout, herr] at h
      cases h
      obtain ⟨digits, he, hline⟩ := filterLines_error herr
      exact ⟨digits, .stderr, he, hline⟩
    | ok err =>
      rw [hout, herr] at h
      cases h

def isNoise (line : List Char) : Bool :=
  match diagnosticOf (Text.chomp line) with
  | .ok d => d.any isSuppressed
  | .error _ => false

def withoutNoise (text : String) : String :=
  String.ofList ((Text.linesAny text.toList).filter (!isNoise ·)).flatten

theorem withoutNoise_of_quiet {text : String}
    (h : ∀ line ∈ Text.linesAny text.toList, isNoise line = false) : withoutNoise text = text := by
  have hall : (Text.linesAny text.toList).filter (!isNoise ·) = Text.linesAny text.toList :=
    List.filter_eq_self.2 fun line hline => by simp [h line hline]
  rw [withoutNoise, hall, Text.flatten_linesAny, String.ofList_toList]

/-- The diagnostic of a line; a line with a number that cannot be read has none. -/
def diagnosticIn (line : List Char) : Option Diagnostic :=
  match diagnosticOf (Text.chomp line) with
  | .ok d => d
  | .error _ => none

theorem isNoise_eq (line : List Char) : isNoise line = (diagnosticIn line).any isSuppressed := by
  unfold isNoise diagnosticIn
  cases diagnosticOf (Text.chomp line) <;> rfl

def note (stream : Stream) (line : List Char) : Message :=
  ⟨stream, line, diagnosticIn line⟩

theorem messageOf_ok {stream : Stream} {line : List Char} {message : Option Message}
    (h : messageOf stream line = .ok message) :
    message.toList = ([line].filter (!isNoise ·)).map (note stream) := by
  cases hd : diagnosticOf (Text.chomp line) with
  | error e =>
    rw [messageOf, hd] at h
    cases h
  | ok d =>
    rw [messageOf, hd] at h
    cases h
    have hline : diagnosticIn line = d := by rw [diagnosticIn, hd]
    rw [List.filter_cons, List.filter_nil, isNoise_eq, hline]
    cases d.any isSuppressed with
    | true => rfl
    | false => simp [note, hline]

/-- There is a message for each line that is no noise. -/
theorem filterLines_eq {stream : Stream} {lines : List (List Char)} {messages : List Message}
    (h : filterLines stream lines = .ok messages) :
    messages = (lines.filter (!isNoise ·)).map (note stream) := by
  induction lines generalizing messages with
  | nil =>
    cases h
    rfl
  | cons line rest ih =>
    unfold filterLines at h
    cases hm : messageOf stream line with
    | error e =>
      rw [hm] at h
      cases h
    | ok message =>
      cases hr : filterLines stream rest with
      | error e =>
        rw [hm, hr] at h
        cases h
      | ok others =>
        rw [hm, hr] at h
        cases h
        rw [messageOf_ok hm, ih hr, ← List.map_append, ← List.filter_append]
        rfl

theorem filterLines_ok {stream : Stream} {lines : List (List Char)} {messages : List Message}
    (h : filterLines stream lines = .ok messages) :
    (∀ m ∈ messages, m.stream = stream) ∧
      messages.map (·.text) = lines.filter (!isNoise ·) := by
  rw [filterLines_eq h]
  constructor
  · intro m hmem
    obtain ⟨line, _, rfl⟩ := List.mem_map.1 hmem
    rfl
  · rw [List.map_map]
    exact List.map_id _

theorem joined_append (stream : Stream) (messages more : List Message) :
    joined stream (messages ++ more) = joined stream messages ++ joined stream more := by
  simp [joined]

theorem joined_of_other {stream other : Stream} {messages : List Message} (hne : other ≠ stream)
    (h : ∀ m ∈ messages, m.stream = other) : joined stream messages = "" := by
  have hnone : messages.filter (·.stream == stream) = [] :=
    List.filter_eq_nil_iff.2 fun m hm => by simp [h m hm, hne]
  rw [joined, hnone]
  rfl

theorem joined_filterStream {stream : Stream} {text : String} {messages : List Message}
    (h : filterStream stream text = .ok messages) : joined stream messages = withoutNoise text := by
  obtain ⟨hstream, htext⟩ := filterLines_ok h
  have hall : messages.filter (·.stream == stream) = messages :=
    List.filter_eq_self.2 fun m hm => by simp [hstream m hm]
  rw [joined, hall, List.flatMap_def, htext, withoutNoise]

/-- The messages of a stream are its text without the noise, in order. -/
theorem joined_eq {o filtered : Outcome} {messages : List Message}
    (h : filterOutcome o = .ok (filtered, messages)) (stream : Stream) :
    joined stream messages = withoutNoise (o.text stream) := by
  obtain ⟨out, err, hout, herr, rfl, _⟩ := filterOutcome_streams h
  obtain ⟨hout', _⟩ := filterLines_ok hout
  obtain ⟨herr', _⟩ := filterLines_ok herr
  rw [joined_append]
  cases stream with
  | stdout =>
    rw [joined_filterStream hout, joined_of_other (by decide) herr', String.append_empty]
    rfl
  | stderr =>
    rw [joined_filterStream herr, joined_of_other (by decide) hout', String.empty_append]
    rfl

end TriplePass.Lint

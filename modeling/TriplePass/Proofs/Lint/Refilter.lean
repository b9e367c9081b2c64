import TriplePass.Proofs.Lint.Filter
import TriplePass.Proofs.Lint.Line
import TriplePass.Proofs.Text.Endings

/-! # Filtering what was filtered

As far as its numbers can be read, a text of the linter loses its noise and nothing else. What is
left has no noise to lose: filtered again it stays the same, and so do its diagnostics. Only its
lines may be others, since without the noise between them a carriage return and a line feed are one
ending.
-/
namespace TriplePass.Lint
variable {text : String} {stream : Stream} {line : List Char} {lines : List (List Char)}

def Readable (text : String) : Prop :=
  ∀ line ∈ Text.linesAny text.toList, ∀ digits, ¬HasLongNumber line digits

def keptLines (text : String) : List (List Char) :=
  (Text.linesAny text.toList).filter (!isNoise ·)

/-! ### One line -/

/-- Noise is a warning that one of the phrases occurs in. -/
theorem isNoise_iff (line : List Char) :
    isNoise line = true ↔
      ∃ d, diagnosticOf (Text.chomp line) = .ok (some d) ∧ d.severity = .warning ∧
        ∃ phrase ∈ noisyPhrases, phrase.occursIn d.message.toList = true := by
  unfold isNoise
  cases diagnosticOf (Text.chomp line) with
  | error e => simp
  | ok d =>
    cases d with
    | none => simp
    | some d => simp [isSuppressed]

/-- Where a number cannot be read, no message is made. -/
theorem messageOf_hasLongNumber {digits : Nat} (h : HasLongNumber line digits) (stream : Stream) :
    ∃ e, messageOf stream line = .error e := by
  obtain ⟨l, hparse, hlength, hlong⟩ := h
  have hfits : ¬l.Fits := by
    unfold Line.Fits
    omega
  refine ⟨.longNumber l.excess, ?_⟩
  rw [messageOf, diagnosticOf, hparse]
  dsimp only
  rw [Line.diagnostic_excess hfits]
  rfl

theorem filterLines_hasLongNumber {digits : Nat} (hline : line ∈ lines)
    (h : HasLongNumber line digits) (stream : Stream) :
    ∃ e, filterLines stream lines = .error e := by
  induction lines with
  | nil => cases hline
  | cons first rest ih =>
    unfold filterLines
    cases hm : messageOf stream first with
    | error e => exact ⟨e, rfl⟩
    | ok message =>
      rcases List.mem_cons.1 hline with rfl | hrest
      · obtain ⟨e, he⟩ := messageOf_hasLongNumber h stream
        rw [he] at hm
        cases hm
      · obtain ⟨e, he⟩ := ih hrest
        rw [he]
        exact ⟨e, rfl⟩

/-! ### A whole text -/

theorem filterStream_readable (h : Readable text) (stream : Stream) :
    filterStream stream text = .ok ((keptLines text).map (note stream)) := by
  cases hf : filterStream stream text with
  | error e =>
    obtain ⟨digits, _, line, hline, hlong⟩ := filterLines_error hf
    exact absurd hlong (h line hline digits)
  | ok messages => rw [filterLines_eq hf, keptLines]

/-- Which texts can be filtered does not depend on the stream. -/
theorem readable_iff (stream : Stream) :
    Readable text ↔ ∃ messages, filterStream stream text = .ok messages := by
  refine ⟨fun h => ⟨_, filterStream_readable h stream⟩, ?_⟩
  rintro ⟨messages, hf⟩ line hline digits hlong
  obtain ⟨e, he⟩ := filterLines_hasLongNumber hline hlong stream
  rw [filterStream, he] at hf
  cases hf

/-! ### Line feeds that are taken in -/

theorem chomp_newline (line : List Char) : Text.chomp (line ++ ['\n']) = Text.chomp line := by
  simp [Text.chomp]

theorem diagnosticIn_newline (line : List Char) :
    diagnosticIn (line ++ ['\n']) = diagnosticIn line := by
  rw [diagnosticIn, chomp_newline, diagnosticIn]

theorem isNoise_newline (line : List Char) : isNoise (line ++ ['\n']) = isNoise line := by
  rw [isNoise_eq, diagnosticIn_newline, isNoise_eq]

theorem hasLongNumber_newline {digits : Nat} :
    HasLongNumber (line ++ ['\n']) digits ↔ HasLongNumber line digits := by
  rw [HasLongNumber, chomp_newline, HasLongNumber]

/-- The text without its noise is cut into the lines that were kept. -/
theorem linesAny_withoutNoise (text : String) :
    Text.linesAny (withoutNoise text).toList = Text.rejoin (keptLines text) := by
  rw [withoutNoise, String.toList_ofList]
  exact Text.linesAny_flatten ((Text.whole_linesAny text.toList).filter _)

/-- What holds of the kept lines holds of the lines of the text without its noise. -/
theorem forall_mem_withoutNoise {P : List Char → Prop} (hP : ∀ line, P (line ++ ['\n']) ↔ P line)
    (h : ∀ line ∈ keptLines text, P line) :
    ∀ line ∈ Text.linesAny (withoutNoise text).toList, P line := by
  intro line hline
  rw [linesAny_withoutNoise] at hline
  rcases Text.mem_rejoin hline with hkept | ⟨kept, hkept, rfl⟩
  · exact h line hkept
  · exact (hP kept).2 (h kept hkept)

theorem withoutNoise_quiet (text : String) :
    ∀ line ∈ Text.linesAny (withoutNoise text).toList, isNoise line = false :=
  forall_mem_withoutNoise (fun line => by rw [isNoise_newline]) fun line hline => by
    simpa using (List.mem_filter.1 hline).2

theorem Readable.withoutNoise (h : Readable text) : Readable (withoutNoise text) := by
  refine forall_mem_withoutNoise (fun line => by simp only [hasLongNumber_newline]) ?_
  exact fun line hline => h line (List.mem_filter.1 hline).1

theorem keptLines_withoutNoise (text : String) :
    keptLines (withoutNoise text) = Text.rejoin (keptLines text) := by
  rw [← linesAny_withoutNoise]
  exact List.filter_eq_self.2 fun line hline => by simp [withoutNoise_quiet text line hline]

theorem withoutNoise_withoutNoise (text : String) :
    withoutNoise (withoutNoise text) = withoutNoise text :=
  withoutNoise_of_quiet (withoutNoise_quiet text)

theorem diagnostics_rejoin (stream : Stream) (lines : List (List Char)) :
    ((Text.rejoin lines).map (note stream)).filterMap (·.diagnostic) =
      (lines.map (note stream)).filterMap (·.diagnostic) := by
  rw [List.filterMap_map, List.filterMap_map]
  exact Text.filterMap_rejoin diagnosticIn_newline rfl lines

theorem map_note_inj {more : List (List Char)} :
    lines.map (note stream) = more.map (note stream) ↔ lines = more :=
  List.map_inj_right fun _ _ h => congrArg Message.text h

/-! ### The filter -/

theorem filterOutcome_readable {o : Outcome} (hout : Readable o.stdout) (herr : Readable o.stderr) :
    filterOutcome o = .ok (
      { o with diagnostics :=
          (keptLines o.stdout).filterMap diagnosticIn ++
            (keptLines o.stderr).filterMap diagnosticIn },
      (keptLines o.stdout).map (note .stdout) ++ (keptLines o.stderr).map (note .stderr)) := by
  have hdiagnostics : ∀ (stream : Stream) (lines : List (List Char)),
      (lines.map (note stream)).filterMap (·.diagnostic) = lines.filterMap diagnosticIn :=
    fun _ _ => List.filterMap_map
  rw [filterOutcome, filterStream_readable hout, filterStream_readable herr, ← hdiagnostics .stdout,
    ← hdiagnostics .stderr, ← List.filterMap_append]
  rfl

/-- A text whose numbers can be read loses exactly the lines that are noise. To filter what is left
makes no difference to the text or to its diagnostics, and none to the messages unless a carriage
return has come to stand in front of a bare line feed. In an outcome each stream is filtered for
itself. -/
theorem noise_deleted :
    (∀ line, isNoise line = true ↔
      ∃ d, diagnosticOf (Text.chomp line) = .ok (some d) ∧ d.severity = .warning ∧
        ∃ phrase ∈ noisyPhrases, phrase.occursIn d.message.toList = true) ∧
    (∀ stream text, Readable text → ∃ messages, filterStream stream text = .ok messages ∧
      messages.map (·.text) = (Text.linesAny text.toList).filter (!isNoise ·) ∧
      joined stream messages =
        String.ofList ((Text.linesAny text.toList).filter (!isNoise ·)).flatten ∧
      (∀ line ∈ Text.linesAny text.toList,
        (∀ d, diagnosticOf (Text.chomp line) = .ok (some d) → d.severity ≠ .warning) →
          line ∈ messages.map (·.text)) ∧
      ((∀ line ∈ Text.linesAny text.toList, isNoise line = false) →
        joined stream messages = text) ∧
      ∃ again, filterStream stream (joined stream messages) = .ok again ∧
        joined stream again = joined stream messages ∧
        again.filterMap (·.diagnostic) = messages.filterMap (·.diagnostic) ∧
        (again = messages ↔
          (messages.map (·.text)).IsChain fun a b => ¬(a.getLast? = some '\r' ∧ b = ['\n']))) ∧
    ∀ o : Outcome, Readable o.stdout → Readable o.stderr →
      ∃ out err, filterStream .stdout o.stdout = .ok out ∧ filterStream .stderr o.stderr = .ok err ∧
        filterOutcome o = .ok (
          { o with diagnostics :=
              (keptLines o.stdout).filterMap diagnosticIn ++
                (keptLines o.stderr).filterMap diagnosticIn },
          out ++ err) ∧
        ∀ stream, joined stream (out ++ err) = withoutNoise (o.text stream) := by
  refine ⟨isNoise_iff, ?_, ?_⟩
  · intro stream text h
    have hfirst := filterStream_readable h stream
    have hjoined := joined_filterStream hfirst
    have htext : ((keptLines text).map (note stream)).map (·.text) = keptLines text :=
      (filterLines_ok hfirst).2
    have hagain := filterStream_readable h.withoutNoise stream
    rw [keptLines_withoutNoise] at hagain
    refine ⟨_, hfirst, htext, hjoined, ?_, ?_, _, by rw [hjoined, hagain], ?_, ?_, ?_⟩
    · intro line hline hother
      have hquiet : isNoise line = false := by
        refine Bool.eq_false_iff.2 fun hnoise => ?_
        obtain ⟨d, hd, hwarning, _⟩ := (isNoise_iff line).1 hnoise
        exact hother d hd hwarning
      rw [htext]
      exact List.mem_filter.2 ⟨hline, by rw [hquiet]; rfl⟩
    · intro hquiet
      rw [hjoined, withoutNoise_of_quiet hquiet]
    · rw [joined_filterStream hagain, hjoined, withoutNoise_withoutNoise]
    · exact diagnostics_rejoin stream _
    · rw [map_note_inj, Text.rejoin_eq_self_iff, htext]
  · intro o hout herr
    have hfiltered := filterOutcome_readable hout herr
    exact ⟨_, _, filterStream_readable hout _, filterStream_readable herr _, hfiltered,
      joined_eq hfiltered⟩

/-- Without the warning in between, the ends of its two neighbours are one. -/
def mergingOutcome : Outcome where
  pass := .lint
  status := 0
  stdout := "a\r" ++ "m.d(1:2)[warn]: x is undocumented\n" ++ "\nb"
  stderr := "m.d(3:4)[error]: y is undocumented"

theorem noise_deleted_merging :
    Readable mergingOutcome.stdout ∧ Readable mergingOutcome.stderr ∧
      (∃ messages again, filterStream .stdout mergingOutcome.stdout = .ok messages ∧
        messages.map (·.text) = [['a', '\r'], ['\n'], ['b']] ∧
        filterStream .stdout (joined .stdout messages) = .ok again ∧
        joined .stdout again = joined .stdout messages ∧ again ≠ messages) ∧
      ∃ filtered messages, filterOutcome mergingOutcome = .ok (filtered, messages) ∧
        filtered.diagnostics = [{
          file := "m.d"
          line := some 3
          column := some 4
          severity := .error
          message := "y is undocumented"
          tool := "dscanner" }] := by
  have hkept : (Text.linesAny mergingOutcome.stdout.toList).filter (!isNoise ·) =
      [['a', '\r'], ['\n'], ['b']] := by decide +kernel
  have hout : Readable mergingOutcome.stdout :=
    (readable_iff .stdout).2 ⟨[['a', '\r'], ['\n'], ['b']].map (note .stdout), by decide +kernel⟩
  have herr : Readable mergingOutcome.stderr :=
    (readable_iff .stderr).2 ⟨[note .stderr mergingOutcome.stderr.toList], by decide +kernel⟩
  obtain ⟨messages, hfirst, htext, _, _, _, again, hagain, hjoined, _, hsame⟩ :=
    noise_deleted.2.1 .stdout mergingOutcome.stdout hout
  rw [hkept] at htext
  obtain ⟨out, err, _, _, hfiltered, _⟩ := noise_deleted.2.2 mergingOutcome hout herr
  refine ⟨hout, herr, ⟨messages, again, hfirst, htext, hagain, hjoined, ?_⟩,
    _, out ++ err, hfiltered, by decide +kernel⟩
  intro h
  have hchain := hsame.1 h
  rw [htext] at hchain
  exact absurd hchain (by decide)

end TriplePass.Lint

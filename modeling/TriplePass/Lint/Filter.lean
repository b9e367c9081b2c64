import TriplePass.Lint.Line
import TriplePass.Lint.Noise
import TriplePass.Text.Lines

/-! # The lint filter

The filter deletes the lines that hold a noisy warning and keeps every other line character for
character. What it parsed on the way is the list of the linter's diagnostics.
-/
namespace TriplePass.Lint

/-- A line of the linter that is kept, with its ending. -/
structure Message where
  stream : Stream
  text : List Char
  diagnostic : Option Diagnostic := none
  deriving DecidableEq, Repr

/-- The message that a line makes, unless it is suppressed. -/
def messageOf (stream : Stream) (line : List Char) : Except Failure (Option Message) := do
  let d ← diagnosticOf (Text.chomp line)
  return if d.any isSuppressed then none else some ⟨stream, line, d⟩

def filterLines (stream : Stream) : List (List Char) → Except Failure (List Message)
  | [] => .ok []
  | line :: rest => do
    let m ← messageOf stream line
    return m.toList ++ (← filterLines stream rest)

def filterStream (stream : Stream) (text : String) : Except Failure (List Message) :=
  filterLines stream (Text.linesAny text.toList)

def joined (stream : Stream) (messages : List Message) : String :=
  String.ofList ((messages.filter (·.stream == stream)).flatMap (·.text))

/-- The messages of both streams, and the outcome with their diagnostics recorded. -/
def filterOutcome (o : Outcome) : Except Failure (Outcome × List Message) := do
  let out ← filterStream .stdout o.stdout
  let err ← filterStream .stderr o.stderr
  let messages := out ++ err
  return ({ o with diagnostics := messages.filterMap (·.diagnostic) }, messages)

end TriplePass.Lint

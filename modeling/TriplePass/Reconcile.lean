import TriplePass.Outcome
import TriplePass.Text.Search

/-! # Output shown once

The compiler says the same in the check and in the run. What the check has already shown is taken
off the start of the run's output, and of nothing else.
-/
namespace TriplePass

def withoutShown (shown text : String) : String :=
  match Text.dropPrefix? shown.toList text.toList with
  | some rest => String.ofList rest
  | none => text

/-- What is still to be shown of a stream of the run. -/
def reconciled (check : Option Outcome) (run : Outcome) (stream : Stream) : String :=
  match check with
  | none => run.text stream
  | some check => withoutShown (check.text stream) (run.text stream)

end TriplePass

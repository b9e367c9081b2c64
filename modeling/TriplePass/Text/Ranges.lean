/-! # Character classes given by tables

A class of characters is a list of closed intervals of code points. The modules beside this one
hold one class each and are named for the property they tabulate.
-/
namespace TriplePass.Text

def inRanges (table : List (Nat × Nat)) (n : Nat) : Bool :=
  table.any fun r => r.1 ≤ n && n ≤ r.2

end TriplePass.Text

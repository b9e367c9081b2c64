import TriplePass.Source

/-! # Coverage listings

A listing has one row per line of the source: a counter, a bar, and the line. A line that was
never executed has seven zeros right before the bar; the counter is seven, eight or nine columns
wide, so the zeros start at one of the first three columns. A listing is named after its source,
with hyphens for the slashes.
-/
namespace TriplePass.Coverage

def listingExtension : String := ".lst"

/-- The listing of the module that stands in for a missing entry point. -/
def internalListing : String := "__main.lst"

def withoutDotSlash (s : List Char) : List Char :=
  (Text.dropPrefix? ['.', '/'] s).getD s

def withoutSuffix (s : List Char) : List Char :=
  let back := s.reverse
  ((Text.dropPrefix? Source.suffix.toList.reverse back).getD back).reverse

def flattened (s : List Char) : List Char :=
  s.map fun c => if c = '/' then '-' else c

def listingName (source : String) : String :=
  String.ofList (flattened (withoutSuffix (withoutDotSlash source.toList))) ++ listingExtension

def sentinel : List Char := "0000000|".toList

def sentinelOffsets : List Int := [0, 1, 2]

/-- The text from an offset on; a negative one counts from the end. -/
def fromOffset (s : List Char) (offset : Int) : List Char :=
  if offset < 0 then s.drop (offset + s.length).toNat else s.drop offset.toNat

/-- The sentinel starts at one of the offsets. -/
def isZeroLineAt (offsets : List Int) (line : List Char) : Bool :=
  offsets.any fun offset => sentinel.isPrefixOf (fromOffset line offset)

def isZeroLine (line : List Char) : Bool :=
  isZeroLineAt sentinelOffsets line

/-- The numbers of the zero lines, counted from `n`. -/
def zeroLinesFrom : (n : Nat) → List (List Char) → List Nat
  | _, [] => []
  | n, line :: rest =>
    if isZeroLine line then n :: zeroLinesFrom (n + 1) rest else zeroLinesFrom (n + 1) rest

/-- The lines of a listing that never executed. -/
def uncovered (content : Bytes) : List Nat :=
  zeroLinesFrom 1 (Text.lines (Text.ofContent content))

def hasZeroLine (content : Bytes) : Bool :=
  (Text.lines (Text.ofContent content)).any isZeroLine

end TriplePass.Coverage

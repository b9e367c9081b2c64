import TriplePass.Shell.Pattern

/-! # Trimming

The value of a parameter loses the part at one of its ends that fits a pattern, the longest or the
shortest one. Several arguments are trimmed as one text in which a NUL stands between them, and
a comparison ends at a NUL; so what fits may lie in other places than at the end of the last one.
-/
namespace TriplePass.Shell

/-- The numbers up to `n` in the order in which they are tried. -/
def tries (ascending : Bool) (n : Nat) : List Nat :=
  if ascending then List.range (n + 1) else (List.range (n + 1)).reverse

/-- The text cut at a place, if there is one. -/
def keepFrom (side : Side) (s : Octets) : Option Nat → Octets
  | none => s
  | some n =>
    match side with
    | .start => s.drop n
    | .finish => s.take n

/-- Whether the place of the cut is looked for from the start on. -/
def isAscending (side : Side) (longest : Bool) : Bool :=
  match side with
  | .start => !longest
  | .finish => longest

/-- The text without the part at one of its ends that fits the pattern. -/
def trimmed (side : Side) (longest : Bool) (pattern : List Atom) (s : Octets) : Octets :=
  keepFrom side s <| (tries (isAscending side longest) s.length).find? fun n =>
    match side with
    | .start => fits pattern (s.take n)
    | .finish => fits pattern (s.drop n)

/-! ## Several arguments -/

/-- Whether a character of a quoted value is stored behind an escape. -/
def isEscaped (c : Char) : Bool :=
  "!*?[=~:/-]\\".toList.contains c || ('\x81' ≤ c && c ≤ '\x88')

def stored (quoted : Bool) (s : Octets) : Octets :=
  s.flatMap fun c => if quoted && isEscaped c then ['\x81', c] else [c]

/-- What is stored from a place up to the next NUL. -/
def stringAt (cells : Marked) (place : Nat) : Marked :=
  (cells.drop place).takeWhile (·.1 != '\x00')

/-- Several arguments with a NUL between them, without the part that fits. They are stored in front
of the pattern, and if there are escapes in the first one, a copy of it without them behind the
pattern. Comparisons are made in the copy, or else in the arguments themselves. From the start on,
they go through the first argument only; from the end on, they go back as far as the arguments are
long, also beyond the copy. The beginning is compared with a NUL put behind it, wherever that is. -/
def trimmedArguments (quoted : Bool) (side : Side) (longest : Bool) (pattern : Marked)
    (arguments : List Octets) : Octets :=
  let value := ['\x00'].intercalate arguments
  let first := arguments.headD []
  let front := stored quoted value
  let isCopied := quoted && first.any isEscaped
  let start := if isCopied then front.length + pattern.length + 2 else 0
  let finish := if isCopied then start + first.length else front.length
  let cells :=
    Pattern.plainText front ++ ('\x00', false) :: pattern ++
      ('\x00', false) :: Pattern.plainText first
  let fitsAt := fun place =>
    match side with
    | .start =>
      let cells := cells.set place ('\x00', false)
      fits (stringAt cells (front.length + 1)).atoms (stringAt cells start).text
    | .finish => fits pattern.atoms (stringAt cells place).text
  keepFrom side value <|
    if isAscending side longest then
      (tries true first.length).find? fun n => fitsAt (start + n)
    else (tries false value.length).find? fun n => fitsAt (finish - (value.length - n))

end TriplePass.Shell

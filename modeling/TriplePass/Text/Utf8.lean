/-! # UTF-8

Reading replaces every maximal ill-formed run by one replacement character: bytes are taken one at
a time, a lead byte fixes how many continuation bytes are owed and which range the next one must
lie in, and a byte outside that range closes the run and is read again as a first byte. Strict
reading refuses a text in which anything would be replaced.
-/
namespace TriplePass

abbrev Bytes := List UInt8

namespace Utf8

/-- Between characters, or inside one: `owed` continuation bytes after the next, which must lie
between `low` and `high`; `value` holds the bits read so far. -/
inductive State where
  | start
  | inside (owed low high value : Nat)
  deriving DecidableEq, Repr

/-- A decoded character, or `none` for a maximal ill-formed run. -/
abbrev Piece := Option Char

def first (b : Nat) : List Piece × State :=
  if b < 0x80 then ([some (Char.ofNat b)], .start)
  else if 0xC2 ≤ b ∧ b ≤ 0xDF then ([], .inside 0 0x80 0xBF (b - 0xC0))
  else if b = 0xE0 then ([], .inside 1 0xA0 0xBF 0)
  else if b = 0xED then ([], .inside 1 0x80 0x9F 0xD)
  else if 0xE1 ≤ b ∧ b ≤ 0xEF then ([], .inside 1 0x80 0xBF (b - 0xE0))
  else if b = 0xF0 then ([], .inside 2 0x90 0xBF 0)
  else if 0xF1 ≤ b ∧ b ≤ 0xF3 then ([], .inside 2 0x80 0xBF (b - 0xF0))
  else if b = 0xF4 then ([], .inside 2 0x80 0x8F 4)
  else ([none], .start)

def step : State → Nat → List Piece × State
  | .start, b => first b
  | .inside owed low high value, b =>
    if low ≤ b ∧ b ≤ high then
      match owed with
      | 0 => ([some (Char.ofNat (64 * value + (b - 0x80)))], .start)
      | owed + 1 => ([], .inside owed 0x80 0xBF (64 * value + (b - 0x80)))
    else
      let (pieces, state) := first b
      (none :: pieces, state)

/-- What is still open at the end of the bytes is ill-formed. -/
def rest : State → List Piece
  | .start => []
  | .inside .. => [none]

/-- The state of a run over bytes: where it stands, and the pieces found, last one first. -/
structure Run where
  state : State := .start
  found : List Piece := []

def Run.feed (r : Run) (b : UInt8) : Run :=
  let (pieces, state) := step r.state b.toNat
  ⟨state, pieces.reverse ++ r.found⟩

def Run.pieces (r : Run) : List Piece :=
  ((rest r.state).reverse ++ r.found).reverse

def pieces (bytes : Bytes) : List Piece :=
  (bytes.foldl Run.feed {}).pieces

def replacement : Char := '\uFFFD'

def decode (bytes : Bytes) : List Char :=
  (pieces bytes).map (·.getD replacement)

/-- The text, unless some run of bytes is ill-formed. -/
def decode? (bytes : Bytes) : Option (List Char) :=
  let ps := pieces bytes
  if ps.all (·.isSome) then some (ps.filterMap id) else none

def encode (text : String) : Bytes :=
  text.toUTF8.toList

end Utf8
end TriplePass

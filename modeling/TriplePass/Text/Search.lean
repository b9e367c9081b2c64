/-! # Prefixes, suffixes and fields

Tests and cuts on strings, all by characters.
-/
namespace TriplePass.Text

def startsWith (s head : String) : Bool :=
  head.toList.isPrefixOf s.toList

def endsWith (s tail : String) : Bool :=
  tail.toList.isSuffixOf s.toList

/-- What follows `head`, if the text starts with it. -/
def dropPrefix? : (head text : List Char) → Option (List Char)
  | [], text => some text
  | _ :: _, [] => none
  | h :: hs, c :: cs => if h = c then dropPrefix? hs cs else none

theorem dropPrefix?_eq_some {head text rest : List Char} :
    dropPrefix? head text = some rest ↔ text = head ++ rest := by
  induction head generalizing text with
  | nil => simp [dropPrefix?, eq_comm]
  | cons h hs ih =>
    cases text with
    | nil => simp [dropPrefix?]
    | cons c cs =>
      by_cases hc : h = c
      · simp [dropPrefix?, hc, ih]
      · simp [dropPrefix?, hc, Ne.symm hc]

/-- One more character in front of the first field. -/
def extendFirst (c : Char) : List (List Char) → List (List Char)
  | [] => [[c]]
  | f :: fs => (c :: f) :: fs

/-- The fields between the occurrences of a separator, taken from the left without overlap; `skip`
characters of an occurrence are still to be passed over. -/
def fieldsFrom (separator : List Char) : (skip : Nat) → List Char → List (List Char)
  | _, [] => [[]]
  | skip + 1, _ :: cs => fieldsFrom separator skip cs
  | 0, c :: cs =>
    if separator.isPrefixOf (c :: cs) then [] :: fieldsFrom separator (separator.length - 1) cs
    else extendFirst c (fieldsFrom separator 0 cs)

def fields (separator s : String) : List String :=
  (fieldsFrom separator.toList 0 s.toList).map String.ofList

end TriplePass.Text

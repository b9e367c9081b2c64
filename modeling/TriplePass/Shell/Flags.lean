import TriplePass.Shell.State

/-! # Arguments of commands

Flags stand in front of the other arguments, several letters in one word if need be; two minus signs
end them. Values are shown in quotes so that a shell could read them back.
-/
namespace TriplePass.Shell

/-- A flag that was given, with its own argument if it takes one. -/
structure Flag where
  letter : Char
  argument : Octets := []
  deriving DecidableEq, Repr

/-- Whether the letter is among the allowed ones, and then whether it takes an argument, which a
colon behind it says. Such a colon is no letter itself. -/
def takesArgument? (allowed : Octets) (letter : Char) : Option Bool :=
  match allowed with
  | [] => none
  | c :: ':' :: rest => if c = letter then some true else takesArgument? rest letter
  | c :: rest => if c = letter then some false else takesArgument? rest letter

/-- The flags in one word behind its minus sign, given the words behind it. -/
def letters (allowed : Octets) : Octets → List Octets → Action (List Flag × List Octets)
  | [], words => return ([], words)
  | c :: more, words =>
    match takesArgument? allowed c with
    | none => fail ("Illegal option -".toList ++ [c])
    | some false => do
      let (found, words) ← letters allowed more words
      return (⟨c, []⟩ :: found, words)
    | some true =>
      match more, words with
      | [], [] => fail ("No arg for -".toList ++ c :: " option".toList)
      | [], word :: words => return ([⟨c, word⟩], words)
      | _, _ => return ([⟨c, more⟩], words)

/-- The flags and the words behind them; every word is looked at once. -/
def flagsOf (allowed : Octets) : (fuel : Nat) → List Octets → Action (List Flag × List Octets)
  | 0, words => return ([], words)
  | fuel + 1, words =>
    match words with
    | ['-', '-'] :: rest => return ([], rest)
    | ('-' :: c :: more) :: rest => do
      let (found, rest) ← letters allowed (c :: more) rest
      let (others, rest) ← flagsOf allowed fuel rest
      return (found ++ others, rest)
    | _ => return ([], words)

def flags (allowed : String) (words : List Octets) : Action (List Flag × List Octets) :=
  flagsOf allowed.toList words.length words

def has (found : List Flag) (letter : Char) : Bool :=
  found.any (·.letter == letter)

/-- A text in single quotes; the single quotes in it are put in double quotes by runs. -/
def inQuotes : (fuel : Nat) → Octets → Octets
  | 0, _ => []
  | fuel + 1, text =>
    let plain := text.takeWhile (· != '\'')
    let behind := text.drop plain.length
    let quotes := behind.takeWhile (· == '\'')
    let rest := behind.drop quotes.length
    let shown := '\'' :: plain ++ ['\'']
    if quotes.isEmpty then shown
    else
      shown ++ '"' :: quotes ++ '"' :: (if rest.isEmpty then [] else inQuotes fuel rest)

def quotedText (text : Octets) : Octets :=
  inQuotes (text.length + 1) text

/-- A line of output. -/
def sayLine (text : Octets) : Action Unit :=
  say 1 (text ++ ['\n'])

end TriplePass.Shell

import TriplePass.Shell.Redirection

/-! # Conditions

The arguments of a test are an expression. Up to four of them are told apart by their number, more
by descent: alternatives of conjunctions of negations. What looks like an operator is an operand
where an operator could not stand.
-/
namespace TriplePass.Shell.Test

inductive Symbol where
  | stop
  | operand
  | unary (letter : Char)
  | binary (operator : String)
  | negation
  | conjunction
  | alternative
  | opening
  | closing
  deriving DecidableEq, Repr

def binaryOperators : List String :=
  ["=", "!=", "<", ">", "-eq", "-ne", "-ge", "-gt", "-le", "-lt", "-nt", "-ot", "-ef"]

def symbol? (word : Octets) : Option Symbol :=
  match word with
  | ['!'] => some .negation
  | ['('] => some .opening
  | [')'] => some .closing
  | ['-', 'a'] => some .conjunction
  | ['-', 'o'] => some .alternative
  | _ =>
    if binaryOperators.contains (String.ofList word) then some (.binary (String.ofList word))
    else
      match word with
      | ['-', c] => if "rwxefdcbpugkstznhOGLS".toList.contains c then some (.unary c) else none
      | _ => none

def isBinary (word : Octets) : Bool :=
  binaryOperators.contains (String.ofList word)

/-- What the first word is. An operator of one operand is an operand itself if nothing follows it,
or if a binary operator and something else follow it. -/
def symbolOf : List Octets → Symbol
  | [] => .stop
  | word :: rest =>
    match symbol? word, rest with
    | none, _ | some (.unary _), [] | some .opening, [] => .operand
    | some (.unary c), next :: _ :: _ => if isBinary next then .operand else .unary c
    | some s, _ => s

/-- The words from the current one on; a test that is no expression has a message. -/
abbrev Reader := StateT (List Octets) (Except Octets)

def refuse {α : Type} (word : Octets) (text : String) : Reader α :=
  throw (if word.isEmpty then text.toList else word ++ ": ".toList ++ text.toList)

/-- Goes on by some words. -/
def skip (n : Nat) : Reader Unit :=
  modify (·.drop n)

/-- The symbol at some distance. -/
def look (n : Nat) : Reader Symbol := do
  return symbolOf ((← get).drop n)

/-! ## Files -/

def kindOf (s : State) (name : Octets) : Option Entry :=
  match s.tree.locateText s.workingDir (Octets.toText name) with
  | .ok place => s.tree.entryAt place
  | .error _ => none

def isDevice (name : Octets) : Bool :=
  device? name == some .nowhere || device? name == some .full

def isAllowed (s : State) (p : Permission) (name : Octets) : Bool :=
  match s.tree.locateText s.workingDir (Octets.toText name) with
  | .ok place => (s.tree.entryAt place).isSome && !s.tree.denies place p
  | .error _ => false

/-- What is asked of a file. All files belong to the user. -/
def ofFile (s : State) (letter : Char) (name : Octets) : Bool :=
  let entry := kindOf s name
  match letter with
  | 'd' => entry == some .directory
  | 'f' => entry.any Entry.isFile
  | 'e' | 'O' | 'G' => entry.isSome || isDevice name
  | 'r' => isAllowed s .read name || isDevice name
  | 'w' => isAllowed s .write name || isDevice name
  | 'c' => isDevice name
  | 'x' =>
    match entry with
    | some .directory => isAllowed s .search name
    | some (.file executable _) => executable
    | _ => false
  | 's' =>
    match entry with
    | some .directory => true
    | some (.file _ content) => !content.isEmpty
    | _ => false
  | 'h' | 'L' =>
    match s.tree.entry? s.workingDir (Octets.toText name) with
    | some (.link _) => true
    | _ => false
  | _ => false

def placeOf (s : State) (name : Octets) : Option Place :=
  (s.tree.locateText s.workingDir (Octets.toText name)).toOption

/-- Whether the first file has been changed after the second one. -/
def isNewer (s : State) (a b : Octets) : Bool :=
  match placeOf s a, placeOf s b with
  | some p, some q =>
    let since := fun (place : Place) => s.tree.entries.findIdx? (·.1 == place)
    match since p, since q with
    | some m, some n => m < n
    | _, _ => false
  | _, _ => false

/-! ## Expressions -/

def number (word : Octets) : Reader Int :=
  match Arithmetic.wholeNumber? .decimal word with
  | some n => return n
  | none => throw ("Illegal number: ".toList ++ word)

def compare (p : Int → Int → Bool) (a b : Octets) : Reader Bool := do
  let m ← number a
  let n ← number b
  return p m n

def applied (s : State) (operator : String) (a b : Octets) : Reader Bool :=
  match operator with
  | "=" => return a == b
  | "!=" => return a != b
  | "<" => return a < b
  | ">" => return b < a
  | "-eq" => compare (fun m n => m = n) a b
  | "-ne" => compare (fun m n => m ≠ n) a b
  | "-lt" => compare (fun m n => m < n) a b
  | "-le" => compare (fun m n => m ≤ n) a b
  | "-gt" => compare (fun m n => n < m) a b
  | "-ge" => compare (fun m n => n ≤ m) a b
  | "-nt" => return isNewer s a b
  | "-ot" => return isNewer s b a
  | _ => return (placeOf s a).isSome && placeOf s a == placeOf s b

def current : Reader Octets := do
  return (← get).headD []

/-- An operand with what is asked of it; the last word read stays the current one. -/
def simple (s : State) : Symbol → Reader Bool
  | .unary letter => do
    let operator ← current
    skip 1
    match ← get with
    | [] => refuse operator "argument expected"
    | word :: _ =>
      match letter with
      | 'z' => return word.isEmpty
      | 'n' => return !word.isEmpty
      | 't' =>
        let _ ← number word
        return false
      | _ => return ofFile s letter word
  | _ => do
    match ← look 1 with
    | .binary operator =>
      let a ← current
      skip 2
      match ← get with
      | [] => refuse operator.toList "argument expected"
      | b :: _ => applied s operator a b
    | _ => return !(← current).isEmpty

mutual

def alternatives (s : State) : (fuel : Nat) → Symbol → Reader Bool
  | 0, _ => return false
  | fuel + 1, symbol => do
    let a ← conjunctions s fuel symbol
    if (← look 1) = .alternative then
      skip 2
      let b ← alternatives s fuel (← look 0)
      return a || b
    else return a

def conjunctions (s : State) : (fuel : Nat) → Symbol → Reader Bool
  | 0, _ => return false
  | fuel + 1, symbol => do
    let a ← negations s fuel symbol
    if (← look 1) = .conjunction then
      skip 2
      let b ← conjunctions s fuel (← look 0)
      return a && b
    else return a

def negations (s : State) : (fuel : Nat) → Symbol → Reader Bool
  | 0, _ => return false
  | fuel + 1, symbol => do
    match symbol with
    | .negation =>
      let next ← look 1
      unless next = .stop do skip 1
      return !(← negations s fuel next)
    | .stop => return false
    | .opening =>
      skip 1
      let next ← look 0
      if next = .closing then return false
      else
        let a ← alternatives s fuel next
        skip 1
        unless (← look 0) = .closing do refuse [] "closing paren expected"
        return a
    | symbol => simple s symbol

end

/-- Reads a whole expression, which starts with the given symbol. -/
def whole (s : State) (symbol : Symbol) (words : List Octets) : Except Octets Bool := do
  let (answer, rest) ← alternatives s (4 * words.length + 8) symbol words
  match rest with
  | word :: _ :: _ =>
    throw (if word.isEmpty then "unexpected operator".toList
      else word ++ ": unexpected operator".toList)
  | _ => return answer

/-- The answer of a test, or what is wrong with it. In front of two or three words any number of
negations counts once. -/
def answer (s : State) : (negated : Bool) → List Octets → Except Octets Bool
  | _, [] => .ok false
  | negated, [a, b, c] =>
    if isBinary b then (· != negated) <$> whole s .operand [a, b, c]
    else if a = ['('] && c = [')'] then (· != negated) <$> whole s (symbolOf [b]) [b]
    else if a = ['!'] then answer s true [b, c]
    else (· != negated) <$> whole s (symbolOf [a, b, c]) [a, b, c]
  | negated, [a, b, c, d] =>
    if a = ['('] && d = [')'] then (· != negated) <$> whole s (symbolOf [b, c]) [b, c]
    else if a = ['!'] then answer s true [b, c, d]
    else (· != negated) <$> whole s (symbolOf [a, b, c, d]) [a, b, c, d]
  | negated, words => (· != negated) <$> whole s (symbolOf words) words

/-- Executes a test; in brackets, the last word has to close them. -/
def run (brackets : Bool) (words : List Octets) : Action Unit := do
  if brackets && words.getLast? ≠ some [']'] then fail "missing ]".toList
  else
    match answer (← get) false (if brackets then words.dropLast else words) with
    | .ok answer => setStatus (if answer then 0 else 1)
    | .error text => fail text

end TriplePass.Shell.Test

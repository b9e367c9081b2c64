import TriplePass.Shell.Token

/-! # From tokens to commands

Commands are read by descent: lists of and-or chains, whose members are pipelines of compound
commands and simple ones. A script is read one list of commands at a time, up to the end of its
line, so that what stands in front of a fault can still be executed.
-/
namespace TriplePass.Shell

/-- The commands whose assignments outlive them and whose errors end the shell. -/
def specialCommands : List String :=
  [".", ":", "break", "continue", "eval", "exec", "exit", "export", "readonly", "return", "set",
    "shift", "times", "trap", "unset", "local"]

/-- How a list ends: with the line, or with a token that closes it; there it may be empty. -/
inductive ListKind where
  | line
  | filled
  | optional
  deriving DecidableEq, Repr

/-- A word that assigns to a variable: its name, and the word that gives the value. -/
def assignment? : Word → Option (Octets × Word)
  | .literal false text :: parts =>
    let name := text.takeWhile (· != '=')
    if isName name then
      match text.drop name.length with
      | '=' :: value => some (name, if value.isEmpty then parts else .literal false value :: parts)
      | _ => none
    else none
  | _ => none

/-- The text of the delimiter of a here-document, and whether it is quoted. -/
def delimiterOf (w : Word) : Octets × Bool :=
  (w.flatMap partText, w.any isQuoted)
where
  partText : Part → Octets
    | .literal _ text => text
    | .parameter _ name _ => '$' :: name
    | _ => []
  isQuoted : Part → Bool
    | .literal quoted _ => quoted
    | _ => false

def sequenceOf (commands : List Command) : Option Command :=
  match commands with
  | [] => none
  | [c] => some c
  | _ => some (.sequence commands)

/-- The command in a process of its own that is not waited for. -/
def inBackground (line : Nat) : Command → Command
  | .pipeline _ stages => .pipeline true stages
  | .redirected line redirects body => .background line redirects body
  | c => .background line [] c

/-- A command with redirections behind it. Those of a subshell, also of one alone in braces, are
replaced. -/
def withRedirects (line : Nat) (redirects : List Redirect) (c : Command) : Command :=
  if redirects.isEmpty then c
  else
    match c with
    | .subshell line _ body => .subshell line redirects body
    | c => .redirected line redirects c

section
variable (inner : Inner)

def nextToken (e : Expecting) : Parse Token := do
  readToken inner ((← get).rest.length + 2) e

def expectKeyword (text : String) : Parse Unit := do
  let t ← nextToken inner .all
  unless t.isKeyword text do unexpectedFor t (.keyword text)

/-- A redirection behind its operator. -/
def redirectOf (descriptor : Nat) (operator : String) : Parse Redirect := do
  match ← nextToken inner .plain with
  | .word w =>
    match operator with
    | ">" => return .write descriptor false w
    | ">|" => return .write descriptor true w
    | ">>" => return .append descriptor w
    | "<" => return .read descriptor w
    | "<>" => return .readWrite descriptor w
    | ">&" | "<&" => return .duplicate descriptor w
    | _ =>
      let (delimiter, quoted) := delimiterOf w
      .document descriptor <$> announce ⟨delimiter, operator = "<<-", quoted⟩
  | t => unexpected t

def redirects : (fuel : Nat) → Parse (List Redirect)
  | 0 => return []
  | fuel + 1 => do
    match ← nextToken inner ⟨true, false, true⟩ with
    | .redirect descriptor operator =>
      let r ← redirectOf inner descriptor operator
      return r :: (← redirects fuel)
    | t =>
      pushBack t
      return []

/-- The items of a simple command so far, last ones first. -/
structure Items where
  assignments : List (Octets × Word) := []
  words : List Word := []
  redirects : List Redirect := []

def Items.toCommand (i : Items) (line : Nat) : Command :=
  .simple line i.assignments.reverse i.words.reverse i.redirects.reverse

/-- The name that a pair of brackets behind it would define as a function. -/
def Items.functionName? (i : Items) : Option Word :=
  match i.words, i.assignments, i.redirects with
  | [w], [], [] => some w
  | _, _, _ => none

/-- A simple command, or a function; `body` reads the body of a function. -/
def simpleCommand (body : Parse Command) (line : Nat) : (fuel : Nat) → Items → Parse Command
  | 0, i => return i.toCommand line
  | fuel + 1, i => do
    let passed ← passAlias
    match ← nextToken inner ⟨false, false, i.words.isEmpty || passed⟩ with
    | .word w =>
      match if i.words.isEmpty then assignment? w else none with
      | some a => simpleCommand body line fuel { i with assignments := a :: i.assignments }
      | none => simpleCommand body line fuel { i with words := w :: i.words }
    | .redirect descriptor operator =>
      let r ← redirectOf inner descriptor operator
      simpleCommand body line fuel { i with redirects := r :: i.redirects }
    | t =>
      match if t.isOperator "(" then i.functionName? else none with
      | some w =>
        let t ← nextToken inner .plain
        unless t.isOperator ")" do unexpectedFor t (.operator ")")
        match w.plain?.filter fun name =>
            isName name && !specialCommands.contains (String.ofList name) with
        | some name => return .define name (← body)
        | none => fault "Bad function name"
      | none =>
        pushBack t
        return i.toCommand line

/-- The words of a `for` behind its `in`. -/
def forWords : (fuel : Nat) → Parse (List Word)
  | 0 => return []
  | fuel + 1 => do
    match ← nextToken inner .plain with
    | .word w => return w :: (← forWords fuel)
    | t => if t.isOperator ";" then return [] else
      match t with
      | .newline => return []
      | t => unexpected t

/-- The patterns of an arm, with the bracket behind the last one; the first token has been
read. -/
def patterns : (fuel : Nat) → Token → Parse (List Word)
  | 0, t => unexpected t
  | fuel + 1, t => do
    let w :=
      match t with
      | .word w => w
      | .keyword text => [.literal false text.toList]
      | _ => []
    let t ← nextToken inner .plain
    if t.isOperator "|" then return w :: (← patterns fuel (← nextToken inner .plain))
    else if t.isOperator ")" then return [w]
    else unexpectedFor t (.operator ")")

end

mutual

/-- Reads a list; `read` holds what it has so far, last one first. -/
def list : (fuel : Nat) → ListKind → (read : List Command) → Parse (Option Command)
  | 0, _, read => return sequenceOf read.reverse
  | fuel + 1, kind, read => do
    let t ← nextToken (substitution fuel) ⟨true, kind ≠ .line, true⟩
    match t with
    | .newline => return sequenceOf read.reverse
    | .endOfInput =>
      pushBack t
      return sequenceOf read.reverse
    | _ =>
      pushBack t
      if t.endsList && (kind = .optional || (kind = .filled && !read.isEmpty)) then
        return sequenceOf read.reverse
      else
        let line := (← get).line
        let c ← chain fuel
        let t ← nextToken (substitution fuel) .plain
        let read := (if t.isOperator "&" then inBackground line c else c) :: read
        match t with
        | .endOfInput =>
          pushBack t
          return sequenceOf read.reverse
        | .newline =>
          pushBack t
          list fuel kind read
        | _ =>
          if t.isOperator "&" || t.isOperator ";" then list fuel kind read
          else if kind = .line then unexpected t
          else
            pushBack t
            return sequenceOf read.reverse

/-- The commands of a substitution inside a word. -/
def substitution : (fuel : Nat) → Inner
  | 0, _ => return none
  | fuel + 1, closed => do
    let c ← list fuel .optional []
    if closed then
      let t ← nextToken (substitution fuel) .plain
      unless t.isOperator ")" do unexpectedFor t (.operator ")")
    return c

def chain : (fuel : Nat) → Parse Command
  | 0 => fault ""
  | fuel + 1 => do
    let c ← pipeline fuel .all
    chainRest fuel c

/-- Chains associate to the left. -/
def chainRest : (fuel : Nat) → Command → Parse Command
  | 0, c => return c
  | fuel + 1, c => do
    let t ← nextToken (substitution fuel) .plain
    if t.isOperator "&&" then chainRest fuel (.both c (← pipeline fuel .all))
    else if t.isOperator "||" then chainRest fuel (.either c (← pipeline fuel .all))
    else
      pushBack t
      return c

def pipeline : (fuel : Nat) → Expecting → Parse Command
  | 0, _ => fault ""
  | fuel + 1, e => do
    let t ← nextToken (substitution fuel) e
    if t.isKeyword "!" then
      return .negated (← stages fuel (← command fuel ⟨true, false, true⟩))
    else
      pushBack t
      stages fuel (← command fuel .plain)

def stages : (fuel : Nat) → Command → Parse Command
  | 0, c => return c
  | fuel + 1, c => do
    let t ← nextToken (substitution fuel) .plain
    if t.isOperator "|" then
      return .pipeline false (c :: (← moreStages fuel))
    else
      pushBack t
      return c

def moreStages : (fuel : Nat) → Parse (List Command)
  | 0 => return []
  | fuel + 1 => do
    let c ← command fuel .all
    let t ← nextToken (substitution fuel) .plain
    if t.isOperator "|" then return c :: (← moreStages fuel)
    else
      pushBack t
      return [c]

def command : (fuel : Nat) → Expecting → Parse Command
  | 0, _ => fault ""
  | fuel + 1, e => do
    let inner := substitution fuel
    let line := (← get).line
    let t ← nextToken inner e
    match t with
    | .keyword "if" => do
      let c ← branch fuel
      finish fuel line c
    | .keyword "while" => do
      let c ← loopOf fuel false
      finish fuel line c
    | .keyword "until" => do
      let c ← loopOf fuel true
      finish fuel line c
    | .keyword "for" => do
      let c ← forOf fuel line
      finish fuel line c
    | .keyword "case" => do
      let c ← caseOf fuel line
      finish fuel line c
    | .keyword "\x7b" => do
      let c ← filled fuel
      expectKeyword inner "\x7d"
      finish fuel line c
    | .operator "(" => do
      let c ← filled fuel
      let t ← nextToken inner .all
      unless t.isOperator ")" do unexpectedFor t (.operator ")")
      finish fuel line (.subshell line [] c)
    | .word _ | .redirect .. => do
      pushBack t
      simpleCommand inner (command fuel .all) (← get).line ((← get).rest.length + 2) {}
    | t => unexpected t

/-- The redirections behind a compound command. -/
def finish : (fuel : Nat) → (line : Nat) → Command → Parse Command
  | 0, _, c => return c
  | fuel + 1, line, c => do
    let rs ← redirects (substitution fuel) ((← get).rest.length + 2)
    return withRedirects line rs c

/-- A list that is not empty. -/
def filled : (fuel : Nat) → Parse Command
  | 0 => fault ""
  | fuel + 1 => do
    match ← list fuel .filled [] with
    | some c => return c
    | none => return .sequence []

/-- What follows an `if` or `elif`. -/
def branch : (fuel : Nat) → Parse Command
  | 0 => fault ""
  | fuel + 1 => do
    let inner := substitution fuel
    let condition ← filled fuel
    expectKeyword inner "then"
    let first ← filled fuel
    let t ← nextToken inner .all
    if t.isKeyword "elif" then return .ifElse condition first (some (← branch fuel))
    else if t.isKeyword "else" then
      let second ← filled fuel
      expectKeyword inner "fi"
      return .ifElse condition first (some second)
    else if t.isKeyword "fi" then return .ifElse condition first none
    else unexpectedFor t (.keyword "fi")

def loopOf : (fuel : Nat) → (inverted : Bool) → Parse Command
  | 0, _ => fault ""
  | fuel + 1, inverted => do
    let inner := substitution fuel
    let condition ← filled fuel
    expectKeyword inner "do"
    let body ← filled fuel
    expectKeyword inner "done"
    return .loop inverted condition body

def forOf : (fuel : Nat) → (line : Nat) → Parse Command
  | 0, _ => fault ""
  | fuel + 1, line => do
    let inner := substitution fuel
    let name ←
      match ← nextToken inner .plain with
      | .word w => pure ((w.plain?.filter isName))
      | _ => pure none
    match name with
    | none => fault "Bad for loop variable"
    | some name =>
      let t ← nextToken inner .all
      let words ←
        if t.isKeyword "in" then forWords inner ((← get).rest.length + 2)
        else do
          unless t.isOperator ";" do pushBack t
          pure [[.parameter true ['@'] .plain]]
      expectKeyword inner "do"
      let body ← filled fuel
      expectKeyword inner "done"
      return .forEach line name words body

def caseOf : (fuel : Nat) → (line : Nat) → Parse Command
  | 0, _ => fault ""
  | fuel + 1, line => do
    let inner := substitution fuel
    match ← nextToken inner .plain with
    | .word subject =>
      let t ← nextToken inner .all
      unless t.isKeyword "in" do unexpectedFor t (.keyword "in")
      return .select line subject (← arms fuel)
    | t => unexpectedFor t (.word [])

def arms : (fuel : Nat) → Parse (List (List Word × Option Command))
  | 0 => return []
  | fuel + 1 => do
    let inner := substitution fuel
    let t ← nextToken inner ⟨true, true, false⟩
    if t.isKeyword "esac" then return []
    else
      let t ← if t.isOperator "(" then nextToken inner .plain else pure t
      let ws ← patterns inner ((← get).rest.length + 2) t
      let body ← list fuel .optional []
      let t ← nextToken inner ⟨true, true, false⟩
      if t.isKeyword "esac" then return [(ws, body)]
      else if t.isOperator ";;" then return (ws, body) :: (← arms fuel)
      else unexpectedFor t (.operator ";;")

end

/-- The commands up to the end of a line, which may be none; no result at the end of the script.
Each character is read by at most so many levels of the grammar. -/
def nextCommands : Parse (Option (Option Command)) := do
  let fuel := 16 * ((← get).rest.length + 4)
  let c ← reread (list fuel .line [])
  modify fun k => { k with announced := 0, documents := [], known := [] }
  match c, (← get).pushed with
  | none, some .endOfInput => return none
  | c, _ => return some c

end TriplePass.Shell

import TriplePass.Shell.Cursor

/-! # Shell tokens

A script is cut into words, operators, redirections and line ends. Quotes are resolved on the way;
what a dollar sign or a backquote introduces becomes a part of its own. Commands inside a word are
read by the grammar, which comes as a parameter.
-/
namespace TriplePass.Shell

/-- Reads the commands of a substitution; `closed` says that a bracket ends them. -/
abbrev Inner := (closed : Bool) → Parse (Option Command)

/-- What ends a row of parts. -/
inductive Stop where
  | word
  | quote
  | brace
  | text
  /-- Two closing brackets, outside of so many open ones. -/
  | brackets (depth : Nat)
  deriving DecidableEq, Repr

/-- In double quotes, and in what is read like them, blanks and single quotes are plain. -/
structure Context where
  quoted : Bool
  stop : Stop
  /-- The delimiter of the document that this is in. -/
  document : Option Delimiter := none
  deriving DecidableEq, Repr

namespace Context

def bare : Context := { quoted := false, stop := .word }
def quotes : Context := { quoted := true, stop := .quote }
def text : Context := { quoted := true, stop := .text }
def sum (depth : Nat) : Context := { quoted := true, stop := .brackets depth }
def operand (quoted : Bool) : Context := { quoted, stop := .brace }

/-- The characters that a backslash takes the meaning from. -/
def escapes (k : Context) (c : Char) : Bool :=
  !k.quoted || c == '\\' || c == '\x60' || c == '$' || (c == '"' && k.stop != .text) ||
    (c == '\x7d' && k.stop == .brace)

/-- What is wrong if the script or the document ends here. -/
def unclosed (k : Context) : Option String :=
  match k.stop with
  | .word | .text => none
  | .quote => some (if k.document.isSome then "Missing '\x7d'" else "Unterminated quoted string")
  | .brace =>
    some (if k.quoted && k.document.isNone then "Unterminated quoted string"
      else "Missing '\x7d'")
  | .brackets _ => some "Missing '))'"

end Context

/-- A character that ends a word unless it is quoted. -/
def isMeta (c : Char) : Bool :=
  " \t\n;&|<>()".toList.contains c

/-- A character that may mean more than itself. -/
def isActive (k : Context) (c : Char) : Bool :=
  c == '\\' || c == '$' || c == '\x60' || (c == '\n' && k.document.isSome) ||
    match k.stop with
    | .word => isMeta c || c == '\'' || c == '"'
    | .quote => c == '"'
    | .brace => c == '\x7d' || c == '"' || (c == '\'' && !k.quoted)
    | .text => false
    | .brackets _ => c == '(' || c == ')'

/-- The parts of a text in quotes; the quotes themselves count, unless they hold all arguments
and nothing else. -/
def quotedParts : Word → Word
  | [.parameter true ['@'] .plain] => [.parameter true ['@'] .plain]
  | parts => .literal true [] :: parts

/-- The command text in backquotes, up to the closing one. -/
def backquoted (quoted : Bool) : (fuel : Nat) → Parse Octets
  | 0 => return []
  | fuel + 1 => do
    let k ← get
    match k.rest with
    | [] => fault "EOF in backquote substitution"
    | '\x60' :: rest =>
      set (k.pass '\x60' rest)
      return []
    | '\\' :: '\n' :: rest =>
      set (k.pass '\n' rest)
      backquoted quoted fuel
    | '\\' :: c :: rest =>
      set (k.pass c rest)
      let more ← backquoted quoted fuel
      if c = '\\' || c = '\x60' || c = '$' || (quoted && c = '"') then return c :: more
      else return '\\' :: c :: more
    | c :: rest =>
      set (k.pass c rest)
      return c :: (← backquoted quoted fuel)

/-- Runs a parser on a text of its own, whose lines are counted from the given one. -/
def within {α : Type} (line : Nat) (text : Octets) (p : Parse α) : Parse α := do
  let k ← get
  let own := { k with
    rest := text, line, pushed := none, active := [], blankEnds := [], pending := [] }
  match p own with
  | .ok (a, l) =>
    set { k with announced := l.announced, documents := l.documents }
    return a
  | .error e => throw e

/-- The name of a parameter in braces, if there is one. -/
def bracedName : Parse (Option Octets) := do
  let n := (← get).rest.length
  match ← peek with
  | some c =>
    if isNameStart c then return some (← joinedWhile isNameCharacter n)
    else if c.isDigit then return some (← joinedWhile Char.isDigit n)
    else if isSpecial c then
      advance
      return some [c]
    else
      if c ≠ '\x7d' then dropOne
      return none
  | none => return none

/-- What a number sign behind an opening brace is. -/
inductive SignUse where
  | parameter
  | length
  | mistake
  deriving DecidableEq, Repr

/-- A number sign asks for a length in front of a name, and in front of another special parameter
that stands alone; no other character may stand alone there. -/
def signUse : Octets → SignUse
  | '#' :: c :: d :: _ =>
    if isNameStart c || c.isDigit then .length
    else if c = '\x7d' || d ≠ '\x7d' then .parameter
    else if isSpecial c then .length
    else .mistake
  | _ => .parameter

section
variable (parts : Context → Parse Word) (quoted : Bool)

def operand (make : Word → Modifier) : Parse Modifier :=
  make <$> parts (.operand quoted)

def trimOperand (side : Side) (sign : Char) : Parse Modifier := do
  let longest ← accept sign
  return .trim side longest (← parts (.operand false))

/-- The modifier behind the name of a parameter in braces, with the closing brace. -/
def modifier : Parse Modifier := do
  match ← peek with
  | some '\x7d' =>
    advance
    return .plain
  | some '#' =>
    advance
    trimOperand parts .start '#'
  | some '%' =>
    advance
    trimOperand parts .finish '%'
  | _ =>
    let evenIfEmpty ← accept ':'
    let sign ← peek
    dropOne
    match sign with
    | some '-' => operand parts quoted (.fallback evenIfEmpty)
    | some '=' => operand parts quoted (.assign evenIfEmpty)
    | some '?' => operand parts quoted (.demand evenIfEmpty)
    | some '+' => operand parts quoted (.replacement evenIfEmpty)
    | some '\x7d' => operand parts quoted .ending
    | _ => operand parts quoted fun _ => .unknown

def braced : Parse Part := do
  modify Cursor.joinLines
  match signUse (← get).rest with
  | .length =>
    advance
    let name ← bracedName
    if (← peek) = some '\x7d' then
      advance
      return .parameter quoted (name.getD []) .length
    else
      return .parameter quoted (name.getD []) (← operand parts quoted fun _ => .unknown)
  | .parameter =>
    match ← bracedName with
    | some name => return .parameter quoted name (← modifier parts quoted)
    | none => return .parameter quoted [] (← operand parts quoted fun _ => .unknown)
  | .mistake =>
    dropOne
    dropOne
    return .parameter quoted [] (← operand parts quoted fun _ => .unknown)

variable (inner : Inner)

/-- What a dollar sign introduces; it has been passed over. -/
def dollar : Parse Part := do
  match ← peek with
  | some '\x7b' =>
    advance
    braced parts quoted
  | some '(' =>
    advance
    if ← accept '(' then return .arithmetic quoted (← parts (.sum 0))
    else return .output quoted (← apart (inner true))
  | some c =>
    if isNameStart c then
      return .parameter quoted (← joinedWhile isNameCharacter (← get).rest.length) .plain
    else if isSpecial c then
      advance
      return .parameter quoted [c] .plain
    else return .literal quoted ['$']
  | none => return .literal quoted ['$']

def backquote : Parse Part := do
  let text ← backquoted quoted (← get).rest.length.succ
  return .output quoted (← within 1 text (inner false))

end

/-- The row of parts up to its end, which is passed over unless it ends a word. -/
def parts (inner : Inner) : (fuel : Nat) → Context → Parse Word
  | 0, _ => return []
  | fuel + 1, ctx => do
    let more := fun (other : Context) => parts inner fuel { other with document := ctx.document }
    let finish : Parse Word :=
      match ctx.unclosed with
      | some text => fault text
      | none => return []
    let k ← get
    match k.rest with
    | [] => finish
    | '\\' :: '\n' :: rest =>
      set (k.pass '\n' rest)
      more ctx
    | ['\\'] =>
      set (k.pass '\\' [])
      return .literal true ['\\'] :: (← more ctx)
    | '\\' :: c :: rest =>
      set (k.pass c rest)
      return .literal true (if ctx.escapes c then [c] else ['\\', c]) :: (← more ctx)
    | '$' :: rest =>
      set (k.pass '$' rest)
      let part ← dollar more ctx.quoted inner
      return part :: (← more ctx)
    | '\x60' :: rest =>
      set (k.pass '\x60' rest)
      let part ← backquote ctx.quoted inner
      return part :: (← more ctx)
    | c :: rest =>
      if !isActive ctx c then
        return .literal ctx.quoted (← takeWhile (!isActive ctx ·)) :: (← more ctx)
      else
        match if c = '\n' then ctx.document else none with
        | some d =>
          set (k.pass c rest)
          let behind ← if ← atDelimiter d then finish else more ctx
          return .literal ctx.quoted [c] :: behind
        | none =>
          match ctx.stop with
          | .brackets depth =>
            set (k.pass c rest)
            if c = '(' then return .literal true [c] :: (← more (.sum (depth + 1)))
            else if depth ≠ 0 then return .literal true [c] :: (← more (.sum (depth - 1)))
            else if ← accept ')' then return []
            else return .literal true [c] :: (← more ctx)
          | _ =>
            if c = '\'' then
              set (k.pass c rest)
              match ← apostrophe ctx.document (rest.length + 1) with
              | some text => return .literal true text :: (← more ctx)
              | none => fault ((Context.unclosed { ctx with stop := .quote }).getD "")
            else if c = '"' && ctx.stop = .quote || c = '\x7d' then
              set (k.pass c rest)
              return []
            else if c = '"' then
              set (k.pass c rest)
              let inside ← more .quotes
              return quotedParts inside ++ (← more ctx)
            else return []

def word (inner : Inner) : Parse Word := do
  parts inner ((← get).rest.length + 1) .bare

/-- A whole text that is read like the inside of double quotes. -/
def wholeText (inner : Inner) : Parse Word := do
  parts inner ((← get).rest.length + 1) .text

/-- The text of a document at the cursor, up to its delimiter. -/
def document (inner : Inner) (d : Delimiter) : Parse Word := do
  let fuel := (← get).rest.length + 1
  if d.quoted then return [.literal true (← quotedLines d fuel)]
  else
    modify Cursor.joinLines
    if ← atDelimiter d then return [] else parts inner fuel { Context.text with document := some d }

/-- Reads the documents that begin here. -/
def pendingDocuments (inner : Inner) : Parse Unit := do
  let pending := (← get).pending
  modify fun k => { k with pending := [] }
  pending.forM fun (n, d) => do
    let w ← reread (document inner d)
    modify fun k => { k with documents := (n, w) :: k.documents }

/-! ## Tokens -/

/-- The operator behind a smaller or greater sign, both together. -/
def redirectOperator (c : Char) : Parse String := do
  let second ← peek
  let pair := String.ofList (c :: second.toList)
  if [">>", ">|", ">&", "<&", "<>", "<<"].contains pair then
    advance
    if pair = "<<" && (← get).rest.head? = some '-' then
      advance
      return "<<-"
    else return pair
  else return String.ofList [c]

def doubled (c : Char) : Parse Token := do
  if ← accept c then return .operator (String.ofList [c, c])
  else return .operator (String.ofList [c])

/-- The token at the cursor, which stands on no blank. -/
def token (inner : Inner) : Parse Token := do
  match ← peek with
  | none => return .endOfInput
  | some c =>
    if c = '\n' then
      advance
      pendingDocuments inner
      return .newline
    else if c = '(' || c = ')' then
      advance
      return .operator (String.ofList [c])
    else if c = ';' || c = '&' || c = '|' then
      advance
      doubled c
    else if c = '<' || c = '>' then
      advance
      return .redirect (if c = '<' then 0 else 1) (← redirectOperator c)
    else
      let w ← word inner
      match w, (← get).rest.head? with
      | [.literal false [d]], some c =>
        if d.isDigit && (c = '<' || c = '>') then
          advance
          return .redirect (d.toNat - 48) (← redirectOperator c)
        else return .word w
      | _, _ => return .word w

def isBlank (c : Char) : Bool :=
  c == ' ' || c == '\t'

/-- Passes over blanks and a comment. -/
def skipBlanks : (fuel : Nat) → Parse Unit
  | 0 => return
  | fuel + 1 => do
    match ← peek with
    | some c =>
      if isBlank c then
        advance
        skipBlanks fuel
      else if c = '#' then discard (takeWhile (· != '\n'))
    | none => return

/-- The token that was put back, or the next one. -/
def rawToken (inner : Inner) : Parse Token := do
  let k ← get
  match k.pushed with
  | some t =>
    set { k with pushed := none }
    return t
  | none =>
    skipBlanks (k.rest.length + 1)
    token inner

def keywords : List String :=
  ["!", "case", "do", "done", "elif", "else", "esac", "fi", "for", "if", "in", "then", "until",
    "while", "\x7b", "\x7d"]

def Token.keyword? : Token → Option Token
  | .word w =>
    w.plain?.bind fun text =>
      if keywords.contains (String.ofList text) then some (.keyword (String.ofList text))
      else none
  | _ => none

/-- The text of an alias that may be put in place of a token. -/
def aliasFor (t : Token) : Parse (Option (String × Octets)) := do
  match t with
  | .word w =>
    let k ← get
    return do
      let name := String.ofList (← w.plain?)
      let text ← k.aliases.get? name
      if k.active.any fun a => a.1 == name && a.2 < k.rest.length then none
      else some (name, text)
  | _ => return none

/-- Passes over blanks, and says whether an alias that ends in a blank has ended there; the next
word may be an alias too then. -/
def passAlias : Parse Bool := do
  let k ← get
  if k.pushed.isSome then return false
  else
    skipBlanks (k.rest.length + 1)
    let n := (← get).rest.length
    return k.blankEnds.any fun l => n ≤ l && l < k.rest.length

/-- Which meanings of a token are asked for besides the plain one. -/
structure Expecting where
  keywords : Bool := false
  newlines : Bool := false
  aliases : Bool := false

def Expecting.plain : Expecting := {}

def Expecting.all : Expecting := ⟨true, true, true⟩

/-- The next token. Line ends are passed over and words are taken for keywords or replaced by
their aliases as asked for. -/
def readToken (inner : Inner) : (fuel : Nat) → Expecting → Parse Token
  | 0, _ => rawToken inner
  | fuel + 1, e => do
    let t ← rawToken inner
    match t with
    | .newline => if e.newlines then readToken inner fuel e else return t
    | _ =>
      match if e.keywords then t.keyword? else none with
      | some t => return t
      | none =>
        match ← if e.aliases then aliasFor t else pure none with
        | some (name, text) =>
          modify fun k => { k with
            rest := text ++ k.rest
            active := (name, k.rest.length) :: k.active
            blankEnds := if text.getLast?.any isBlank then k.rest.length :: k.blankEnds
              else k.blankEnds }
          readToken inner fuel e
        | none => return t

end TriplePass.Shell

import TriplePass.Shell.Expansion

/-! # Redirections

The names in all redirections of a command are expanded first; then the files are opened one after
the other, and a document is expanded when it is its turn. If one of them fails, all descriptors
stay as they were.
-/
namespace TriplePass.Shell

inductive Target where
  | write (force : Bool)
  | append
  | read
  | readWrite
  deriving DecidableEq, Repr

/-- A redirection whose name has been expanded. -/
inductive Opening where
  | file (descriptor : Nat) (target : Target) (name : Octets)
  | duplicate (descriptor : Nat) (source : Octets)
  | document (descriptor : Nat) (body : Word)

def Opening.descriptor : Opening → Nat
  | .file descriptor .. | .duplicate descriptor _ | .document descriptor _ => descriptor

/-- The one digit that gives a descriptor to be copied, or a minus sign. -/
def isDescriptor (text : Octets) : Bool :=
  match text with
  | [c] => c.isDigit || c == '-'
  | _ => false

/-- Reports a mistake in the script that shows only when it is executed. -/
def failReading {α : Type} (text : String) : Action α := do
  modify fun s => { s with line := s.readLine }
  fail ("Syntax error: ".toList ++ text.toList)

section
variable (execute : Option Command → Action Octets)

def opening : Redirect → Action Opening
  | .write descriptor force name => .file descriptor (.write force) <$> text execute name
  | .append descriptor name => .file descriptor .append <$> text execute name
  | .read descriptor name => .file descriptor .read <$> text execute name
  | .readWrite descriptor name => .file descriptor .readWrite <$> text execute name
  | .document descriptor body => return .document descriptor body
  | .duplicate descriptor source => do
    let source ← text execute source
    if isDescriptor source then return .duplicate descriptor source
    else failReading "Bad fd number"

end

/-! ## Opening files -/

/-- Where a file of that name is, or will be once it has been made; a link to nothing is followed
as well. -/
def placeToCreate (t : FileTree) : (links : Nat) → Place → String → Except Errno Place
  | links, workingDir, name =>
    match t.locateText workingDir name with
    | .ok place => .ok place
    | .error .absent =>
      let path := Path.ofString name
      let isNamed := path.names ≠ [] && path.name ≠ ".."
      match if isNamed then t.locate workingDir ⟨path.anchor, path.names.dropLast⟩
        else .error .absent with
      | .error e => .error e
      | .ok dir =>
        if t.entryAt dir ≠ some .directory then .error .notDirectory
        else
          match t.entryAt (dir ++ [path.name]), links with
          | some (.link target), links + 1 => placeToCreate t links dir target
          | some _, _ => .error .tooManyLinks
          | none, _ =>
            if Text.endsWith name "/" then .error .isDirectory else .ok (dir ++ [path.name])
    | .error e => .error e

def refusal (creates : Bool) (e : Errno) : Octets :=
  if e == .absent || e == .notDirectory then
    (if creates then "Directory nonexistent" else "No such file").toList
  else e.message.toList

/-- Names of the system for a device, or for a descriptor that is open. -/
inductive Device where
  | nowhere
  | full
  | terminal
  | descriptor (n : Nat)
  deriving DecidableEq, Repr

def device? (name : Octets) : Option Device :=
  match String.ofList name with
  | "/dev/null" => some .nowhere
  | "/dev/full" => some .full
  | "/dev/tty" => some .terminal
  | "/dev/stdin" => some (.descriptor 0)
  | "/dev/stdout" => some (.descriptor 1)
  | "/dev/stderr" => some (.descriptor 2)
  | _ =>
    let start := "/dev/fd/".toList
    let digits := name.drop start.length
    if start.isPrefixOf name && !digits.isEmpty && digits.all Char.isDigit then
      some (.descriptor ((String.ofList digits).toNat?.getD 0))
    else none

def accessOf : Target → Access
  | .write _ => .write
  | .append => .append
  | .readWrite => .readWrite
  | .read => .read

/-- Reports that a file cannot be opened. -/
def refuseFor (creates : Bool) (name reason : Octets) : Action Unit :=
  fail ((if creates then "cannot create ".toList else "cannot open ".toList) ++ name ++
    ": ".toList ++ reason)

def refuse (creates : Bool) (name : Octets) (e : Errno) : Action Unit :=
  refuseFor creates name (refusal creates e)

/-- Whether the user may open the file that is at a place. -/
def mayOpen (t : FileTree) (target : Target) (place : Place) : Bool :=
  let reads := target = .read || target = .readWrite
  !(reads && t.denies place .read) && (target = .read || !t.denies place .write)

/-- Opens the file at a place. -/
def openPlace (descriptor : Nat) (target : Target) (name : Octets) (place : Place) :
    Action Unit := do
  let s ← get
  let guards := target = .write false && s.isOn .noOverwrite
  let channel := Channel.file place 0 (accessOf target)
  match s.tree.entryAt place with
  | some .directory =>
    if target ≠ .read then refuse (!guards) name .isDirectory
    else if !mayOpen s.tree target place then refuse false name .denied
    else set (s.openChannel descriptor .nowhere)
  | some (.file executable _) =>
    if guards then refuseFor true name "File exists".toList
    else if !mayOpen s.tree target place then refuse (target ≠ .read) name .denied
    else
      let cuts := target = .write false || target = .write true
      let t := if cuts then s.tree.put place (.file executable []) else s.tree
      set ({ s with tree := t }.openChannel descriptor channel)
  | _ =>
    if s.tree.denies place.dropLast .write then refuse true name .denied
    else set ({ s with tree := s.tree.put place (.file false []) }.openChannel descriptor channel)

/-- Lets a descriptor lead to where another one does. -/
def copyDescriptor (source target : Nat) : Action Bool := do
  let s ← get
  match s.descriptors.lookup source with
  | some id =>
    set { s with descriptors := (target, id) :: s.descriptors.filter (·.1 != target) }
    return true
  | none => return false

def openNamed (descriptor : Nat) (target : Target) (name : Octets) : Action Unit := do
  let s ← get
  let creates := target ≠ .read
  match device? name with
  | some .nowhere => set (s.openChannel descriptor .nowhere)
  | some .full => set (s.openChannel descriptor .full)
  | some .terminal => refuseFor creates name "No such device or address".toList
  | some (.descriptor n) =>
    match s.channelOf? n with
    | some (_, .file place _ _) => openPlace descriptor target name place
    | _ => unless ← copyDescriptor n descriptor do refuse creates name .absent
  | none =>
    let written := Octets.toText name
    match if creates then placeToCreate s.tree FileTree.maxLinks s.workingDir written
      else s.tree.locateText s.workingDir written with
    | .ok place => openPlace descriptor target name place
    | .error e => refuse creates name e

section
variable (execute : Option Command → Action Octets)

/-- Opens a redirection. If descriptors will be put back, the one that errors are written to is
closed before another one takes its place, and a failure to do so remains unseen. -/
def connect (returns : Bool) : Opening → Action Unit
  | .file descriptor target name => openNamed descriptor target name
  | .document descriptor body => do
    let written ← text execute body
    modify (·.openChannel descriptor (.input written))
  | .duplicate descriptor source => do
    if source = ['-'] then modify (·.closeDescriptor descriptor)
    else
      let n := Arithmetic.digitsValue 10 source
      unless n = descriptor do
        unless ← copyDescriptor n descriptor do
          if returns && descriptor = 2 then modify (·.closeDescriptor 2)
          fail (source ++ ": Bad file descriptor".toList)

/-- Opens all of them, and says whether that was possible. -/
def connectAll (os : List Opening) : Action Bool := do
  let descriptors := (← get).descriptors
  tryCatch (do os.forM (connect execute true); return true) fun
    | .failed _ => do
      modify fun s => { s with descriptors }
      return false
    | halt => throw halt

end

end TriplePass.Shell

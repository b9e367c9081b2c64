import TriplePass.Task

/-! # Hosts

A host starts the children of the harness. Starting one may already change files; what a child
does from then on until it has ended is a function of the files it finds. A host may refuse. It also
gives the harness its standard output, which takes the characters of some encoding.
-/
namespace TriplePass

structure Ending where
  /-- Negative if a signal has ended the child. -/
  status : Int
  stdout : Bytes := []
  stderr : Bytes := []
  deriving DecidableEq, Repr

structure Child where
  finish : FileTree → Ending × FileTree

structure Host where
  spawn : Task → Environment → FileTree → Except Errno (Child × FileTree)
  /-- The characters that the encoding of the standard output has; in UTF-8 it has all of them. -/
  prints : Char → Bool := fun _ => true

namespace Task

/-- The whole environment of a task's child. -/
def environment (t : Task) (parent : Environment) : Environment :=
  Dictionary.overlay parent t.bindings

def hasNul (s : String) : Bool :=
  s.toList.contains '\x00'

/-- What keeps a task from being handed to the system at all: the name of a variable holds an
equals sign, or some text holds a NUL. -/
def fault? (t : Task) (env : Environment) : Option Failure :=
  if env.any (·.1.toList.contains '=') then some .illegalVariable
  else if t.command.any hasNul || t.dir.hasNul || env.any (fun v => hasNul v.1 || hasNul v.2) then
    some .embeddedNul
  else none

end Task
end TriplePass

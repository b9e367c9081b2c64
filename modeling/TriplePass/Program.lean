import TriplePass.Host
import TriplePass.Shell.Run

/-! # Programs

The host whose programs are the scripts in the file tree: a task's command is found with the search
path of the child's own environment, and a shell executes it from its start to its end.
-/
namespace TriplePass.Program

/-- The directory that a child enters. -/
def enter (t : FileTree) (workingDir : Place) (dir : Path) : Except Errno Place := do
  let place ← t.locate workingDir dir
  if t.entryAt place ≠ some .directory then .error .notDirectory
  else if t.denies place .search then .error .denied
  else return place

def ending (status : Int) (s : Shell.State) : Ending × FileTree :=
  (⟨if 0 ≤ status then status % 256 else status, Shell.Octets.toBytes s.stdout.reverse.flatten,
    Shell.Octets.toBytes s.stderr.reverse.flatten⟩, s.tree)

/-- Runs a shell that is started with the given words. -/
def run (dir : Place) (env : Environment) (words : List String) (t : FileTree) :
    Ending × FileTree :=
  let env := env.map fun v => (v.1, Shell.Octets.ofText v.2)
  match Shell.runShell (Shell.fresh t dir env (words.map Shell.Octets.ofText)) with
  | .ok status s => ending status s
  | .error _ s => ending 0 s

/-- A child runs while it is waited for. -/
def host (workingDir : Place) : Host where
  spawn task env t := do
    let dir ← enter t workingDir task.dir
    let words ← Script.find t dir env task.command
    return (⟨run dir env words⟩, t)

end TriplePass.Program

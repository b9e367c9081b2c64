import TriplePass.Console
import TriplePass.Coverage.Survey
import TriplePass.Host
import TriplePass.Lint.Filter
import TriplePass.Reconcile
import TriplePass.Status

/-! # Runs of the harness

A run plans an invocation, starts all passes, and then waits for them one by one: check, lint,
run. Captured output is passed on pass by pass, the lint filtered and the run without what the
check has shown. Coverage comes last. If a pass cannot be started, those before it are still
waited for. Everything that happens on the way is recorded in order.
-/
namespace TriplePass

inductive Event where
  | spawned (pass : Pass)
  | waited (pass : Pass)
  /-- Output of a tool that the harness passes on. -/
  | forwarded (stream : Stream) (text : String)
  /-- Output that a child writes to the harness's own streams. -/
  | inherited (stream : Stream) (bytes : Bytes)
  /-- A message of the harness. -/
  | logged (text : String)
  /-- The coverage listings are looked at from here on. -/
  | surveyed
  deriving DecidableEq, Repr

/-- What an event adds to a stream, in UTF-8. -/
def Event.bytes (stream : Stream) : Event → Bytes
  | .forwarded s text => if s = stream then Utf8.encode text else []
  | .inherited s bytes => if s = stream then bytes else []
  | .logged text => if stream = .stderr then Utf8.encode text else []
  | .spawned _ | .waited _ | .surveyed => []

structure Session where
  tree : FileTree
  resolver : Resolver := {}
  events : List Event := []
  deriving DecidableEq, Repr

/-- What was written to a stream. -/
def Session.written (s : Session) (stream : Stream) : Bytes :=
  s.events.flatMap (Event.bytes stream)

/-- A run may fail; the session then stays as it was left. -/
abbrev Run := EStateM Failure Session

structure Harness where
  settings : Settings
  console : Console
  environment : Environment
  host : Host
  /-- The directory that all relative paths start from. -/
  workingDir : Place
  /-- The directory in which the tools run. -/
  dir : Path

structure Result where
  plan : Plan
  status : Int
  outcomes : List Outcome
  coverage : Option Coverage.Report := none
  deriving DecidableEq, Repr

/-- A child that is running. -/
structure Running where
  task : Task
  child : Child

/-- The children of a plan that always has a check. -/
structure Launched where
  check : Running
  run : Option Running
  lint : Option Running

namespace Run

def record (e : Event) : Run Unit :=
  modify fun s => { s with events := s.events ++ [e] }

def log (text : String) : Run Unit :=
  if text = "" then pure () else record (.logged text)

def inherit (stream : Stream) (bytes : Bytes) : Run Unit :=
  if bytes = [] then pure () else record (.inherited stream bytes)

def lookup {α : Type} (x : FileTree → Lookup α) : Run α := fun s =>
  match x s.tree s.resolver with
  | .ok a resolver => .ok a { s with resolver }
  | .error e resolver => .error e { s with resolver }

def survey {α : Type} (x : Coverage.Survey α) : Run α := fun s =>
  match x s.tree with
  | .ok a tree => .ok a { s with tree }
  | .error e tree => .error (.system e) { s with tree }

def lift {α : Type} : Except Failure α → Run α
  | .ok a => pure a
  | .error e => throw e

end Run

namespace Running

def pass (r : Running) : Pass :=
  r.task.pass

def isCaptured (r : Running) : Bool :=
  r.task.redirection == .capture

def captured (bytes : Bytes) : String :=
  String.ofList (Text.ofContent bytes)

/-- Waits until a child has ended. -/
def wait (r : Running) : Run Outcome := do
  let s ← get
  let (ending, tree) := r.child.finish s.tree
  set { s with tree }
  if r.isCaptured then
    Run.record (.waited r.pass)
    return {
      pass := r.pass
      status := ending.status
      stdout := captured ending.stdout
      stderr := captured ending.stderr
    }
  else
    Run.inherit .stdout ending.stdout
    Run.inherit .stderr ending.stderr
    Run.record (.waited r.pass)
    return { pass := r.pass, status := ending.status }

end Running

namespace Harness

def programName : String := Recursion.harnessName

def debug (h : Harness) (message : String) : Run Unit :=
  Run.log (h.console.debugText message)

/-- Whether the standard output has the characters of a text. -/
def takes (h : Harness) (text : String) : Bool :=
  text.toList.all h.host.prints

/-- Passes output of a tool on; an empty text is not written at all. The standard output refuses a
text as a whole, the standard error stream escapes the characters that it lacks. -/
def echo (h : Harness) (stream : Stream) (text : String) : Run Unit :=
  if text = "" then pure ()
  else if stream = .stderr || h.takes text then Run.record (.forwarded stream (Console.echo text))
  else throw .unwritable

def forward (h : Harness) (text : Stream → String) : Run Unit := do
  h.echo .stdout (text .stdout)
  h.echo .stderr (text .stderr)

/-- Passes the output of a child on unless the child has written it itself. -/
def forwardOf (h : Harness) (r : Running) (text : Stream → String) : Run Unit :=
  if r.isCaptured then h.forward text else pure ()

/-- The plan for an invocation, with the sources as they are found. -/
def plan (h : Harness) (inv : Invocation) : Run Plan := do
  let p ← Run.lookup fun t =>
    Plan.ofInvocation t h.workingDir h.settings h.environment h.dir inv
  h.debug ("plan " ++ p.describe)
  return p

/-- Hands a task to the host. -/
def spawn (h : Harness) (task : Task) : Run Running := do
  let env := task.environment h.environment
  match task.fault? env with
  | some failure => throw failure
  | none =>
    let s ← get
    match h.host.spawn task env s.tree with
    | .ok (child, tree) =>
      set { s with tree }
      Run.record (.spawned task.pass)
      return ⟨task, child⟩
    | .error e => throw (.harness (.launch task.command (.ofErrno e)))

def launchNow (h : Harness) (inv : Invocation) (p : Plan) (pass : Pass) : Run Running := do
  let task ← Run.lift (Task.build pass inv p h.settings h.dir h.environment)
  h.debug ("launch kind=" ++ pass.name ++ " command=\"" ++ task.render ++ "\"")
  h.spawn task

def waitAll : List Running → Run Unit
  | [] => return
  | r :: rest => do
    let _ ← r.wait
    waitAll rest

/-- Starts a pass; if the host refuses it, those that are already running are waited for. -/
def launch (h : Harness) (inv : Invocation) (p : Plan) (running : List Running) (pass : Pass) :
    Run Running :=
  tryCatch (h.launchNow inv p pass) fun
    | .harness (.launch command cause) => do
      waitAll running
      throw (.harness (.launch command cause))
    | e => throw e

/-- Starts every pass of the plan: the check, then the run, which takes longest, then the lint. -/
def launchAll (h : Harness) (inv : Invocation) (p : Plan) : Run Launched := do
  let check ← h.launch inv p [] .check
  let run ← if p.run then some <$> h.launch inv p [check] .run else pure none
  let lint ← if p.lint then some <$> h.launch inv p (check :: run.toList) .lint else pure none
  return ⟨check, run, lint⟩

def finish (h : Harness) (r : Running) : Run Outcome := do
  let o ← r.wait
  h.debug ("exit kind=" ++ o.pass.name ++ " status=" ++ toString o.status)
  return o

def finishEach (h : Harness) : List Running → Run (List Outcome)
  | [] => return []
  | r :: rest => do
    let o ← h.finish r
    return o :: (← h.finishEach rest)

def finishCheck (h : Harness) (r : Running) : Run Outcome := do
  let o ← h.finish r
  h.forwardOf r o.text
  return o

/-- Passes the messages of a lint on, and records its diagnostics. -/
def showLint (h : Harness) (o : Outcome) : Run Outcome := do
  let (o, messages) ← Run.lift (Lint.filterOutcome o)
  h.debug ("lint diagnostics=" ++ toString o.diagnostics.length)
  h.forward (Lint.joined · messages)
  return o

def linterName (p : Plan) : String :=
  (p.lintProgram.map Path.name).getD "linter"

def warnOfCrash (h : Harness) (p : Plan) (o : Outcome) : Run Unit :=
  if Status.isCrash o.status then
    Run.log (h.console.warn (programName ++ ": " ++ linterName p ++ " crashed with status " ++
      toString o.status ++ "; lint ignored"))
  else pure ()

def finishLint (h : Harness) (p : Plan) (r : Running) : Run Outcome := do
  let o ← h.finish r
  let o ← if r.isCaptured then h.showLint o else pure o
  h.warnOfCrash p o
  return o

def reportCoverage (h : Harness) (p : Plan) : Run Coverage.Report := do
  Run.record .surveyed
  let report ← Run.survey (Coverage.run h.workingDir h.dir p.sources)
  report.diagnostics.forM fun d => h.echo .stdout d.render
  report.consumed.forM fun listing => h.debug ("consumed listing=" ++ listing.name)
  report.removed.forM fun listing => h.debug ("removed listing=" ++ listing.name)
  return report

def finishRun (h : Harness) (p : Plan) (check : Outcome) (r : Running) :
    Run (Outcome × Option Coverage.Report) := do
  let o ← h.finish r
  h.forwardOf r (reconciled (some check) o)
  if Coverage.shouldProcess p.run p.coverage (some o.status) then
    return (o, some (← h.reportCoverage p))
  else return (o, none)

/-- After a failed check the other passes are waited for, and their output is dropped. -/
def finishEarly (h : Harness) (p : Plan) (running : Launched) (check : Outcome) : Run Result := do
  Run.log (h.console.info (programName ++ ": check failed with status " ++
    toString check.status ++ "; skipping lint and unittest output"))
  let others ← h.finishEach (running.lint.toList ++ running.run.toList)
  return { plan := p, status := check.status, outcomes := check :: others }

def finishAll (h : Harness) (p : Plan) (running : Launched) (check : Outcome) : Run Result := do
  let lint ← match running.lint with
    | some r => some <$> h.finishLint p r
    | none => pure none
  let (run, coverage) ← match running.run with
    | some r => do
      let (o, report) ← h.finishRun p check r
      pure (some o, report)
    | none => pure (none, none)
  let status := Status.aggregate (some check.status) (run.map (·.status)) (lint.map (·.status))
  h.debug ("aggregate status=" ++ toString status)
  return { plan := p, status, outcomes := check :: (lint.toList ++ run.toList), coverage }

/-- Runs all passes for the arguments of an invocation. -/
def run (h : Harness) (arguments : List String) : Run Result := do
  let inv := Invocation.ofArguments arguments
  let p ← h.plan inv
  let running ← h.launchAll inv p
  let check ← h.finishCheck running.check
  if !check.ok && h.settings.exitEarly then h.finishEarly p running check
  else h.finishAll p running check

/-- A session in which nothing has happened yet. -/
def start (h : Harness) (t : FileTree) : Session :=
  { tree := t, resolver := Resolver.ofEnvironment h.environment }

end Harness
end TriplePass

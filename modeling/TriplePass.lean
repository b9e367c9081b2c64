import TriplePass.CommandLine
import TriplePass.Console
import TriplePass.Coverage.Listing
import TriplePass.Coverage.Survey
import TriplePass.Diagnostic
import TriplePass.Dictionary
import TriplePass.Failure
import TriplePass.FileTree
import TriplePass.Harness
import TriplePass.Host
import TriplePass.Invocation
import TriplePass.Lint.Filter
import TriplePass.Lint.Line
import TriplePass.Lint.Noise
import TriplePass.Main
import TriplePass.Number.Binary64
import TriplePass.Number.Shortest
import TriplePass.Outcome
import TriplePass.Path
import TriplePass.Plan
import TriplePass.Program
import TriplePass.Reconcile
import TriplePass.Record
import TriplePass.Resolver
import TriplePass.Script
import TriplePass.Settings.Basic
import TriplePass.Settings.Layer
import TriplePass.Settings.Reading
import TriplePass.Shell.Arithmetic
import TriplePass.Shell.Builtin
import TriplePass.Shell.Cursor
import TriplePass.Shell.Decimal
import TriplePass.Shell.Declare
import TriplePass.Shell.Directory
import TriplePass.Shell.Expansion
import TriplePass.Shell.Fields
import TriplePass.Shell.FileNames
import TriplePass.Shell.Flags
import TriplePass.Shell.Format
import TriplePass.Shell.Lookup
import TriplePass.Shell.Mode
import TriplePass.Shell.Parser
import TriplePass.Shell.Pattern
import TriplePass.Shell.Position
import TriplePass.Shell.Process
import TriplePass.Shell.ReadLine
import TriplePass.Shell.Redirection
import TriplePass.Shell.Run
import TriplePass.Shell.Signal
import TriplePass.Shell.Startup
import TriplePass.Shell.State
import TriplePass.Shell.Syntax
import TriplePass.Shell.Test
import TriplePass.Shell.Token
import TriplePass.Shell.Trap
import TriplePass.Shell.Trim
import TriplePass.Source
import TriplePass.Status
import TriplePass.Task
import TriplePass.Text.Blank
import TriplePass.Text.Content
import TriplePass.Text.Digit
import TriplePass.Text.Identifier
import TriplePass.Text.Lines
import TriplePass.Text.Printable
import TriplePass.Text.Quoted
import TriplePass.Text.Ranges
import TriplePass.Text.Search
import TriplePass.Text.Token
import TriplePass.Text.Utf8
import TriplePass.Text.Width
import TriplePass.Toml.Document
import TriplePass.Toml.Scalar
import TriplePass.Toml.Scan
import TriplePass.Toml.Section
import TriplePass.Toml.Text
import TriplePass.Value
import TriplePass.Proofs.Console
import TriplePass.Proofs.Coverage.Attribution
import TriplePass.Proofs.Coverage.Cleaning
import TriplePass.Proofs.Coverage.Counter
import TriplePass.Proofs.Coverage.Damage
import TriplePass.Proofs.Coverage.Deletion
import TriplePass.Proofs.Coverage.Grouping
import TriplePass.Proofs.Coverage.Listing
import TriplePass.Proofs.Coverage.Naming
import TriplePass.Proofs.Coverage.Rerun
import TriplePass.Proofs.Coverage.Survey
import TriplePass.Proofs.Dictionary
import TriplePass.Proofs.Effect
import TriplePass.Proofs.FileTree
import TriplePass.Proofs.FileTree.LinkFree
import TriplePass.Proofs.FileTree.Normal
import TriplePass.Proofs.FileTree.Removal
import TriplePass.Proofs.Harness.Accounting
import TriplePass.Proofs.Harness.Advisory
import TriplePass.Proofs.Harness.Ending
import TriplePass.Proofs.Harness.ExitStatus
import TriplePass.Proofs.Harness.Failing
import TriplePass.Proofs.Harness.Finishing
import TriplePass.Proofs.Harness.Gating
import TriplePass.Proofs.Harness.Launching
import TriplePass.Proofs.Harness.Lifecycle
import TriplePass.Proofs.Harness.LintStage
import TriplePass.Proofs.Harness.Milestones
import TriplePass.Proofs.Harness.Nesting
import TriplePass.Proofs.Harness.Output
import TriplePass.Proofs.Harness.Relinting
import TriplePass.Proofs.Harness.RunStage
import TriplePass.Proofs.Harness.Session
import TriplePass.Proofs.Harness.Showing
import TriplePass.Proofs.Harness.Waiting
import TriplePass.Proofs.Invocation.Inspection
import TriplePass.Proofs.Invocation.ProgramArguments
import TriplePass.Proofs.Invocation.RunCommand
import TriplePass.Proofs.Lint.Filter
import TriplePass.Proofs.Lint.Line
import TriplePass.Proofs.Lint.Noise
import TriplePass.Proofs.Lint.Refilter
import TriplePass.Proofs.Path
import TriplePass.Proofs.Plan.Coherence
import TriplePass.Proofs.Plan.Making
import TriplePass.Proofs.Plan.Sanitizer
import TriplePass.Proofs.Plan.Verdict
import TriplePass.Proofs.Resolver.Answers
import TriplePass.Proofs.Resolver.Directories
import TriplePass.Proofs.Resolver.Found
import TriplePass.Proofs.Resolver.Lifetime
import TriplePass.Proofs.Resolver.Reachable
import TriplePass.Proofs.Settings.Document
import TriplePass.Proofs.Settings.Dump
import TriplePass.Proofs.Settings.Flags
import TriplePass.Proofs.Settings.Layering
import TriplePass.Proofs.Settings.Loading
import TriplePass.Proofs.Settings.Reading
import TriplePass.Proofs.Settings.Rewriting
import TriplePass.Proofs.Settings.Session
import TriplePass.Proofs.Source
import TriplePass.Proofs.Status
import TriplePass.Proofs.Task.Environment
import TriplePass.Proofs.Task.Execution
import TriplePass.Proofs.Text.Content
import TriplePass.Proofs.Text.Endings
import TriplePass.Proofs.Text.Fields
import TriplePass.Proofs.Text.Lines
import TriplePass.Proofs.Text.Reading
import TriplePass.Proofs.Text.Runs
import TriplePass.Proofs.Text.Strict
import TriplePass.Proofs.Text.Token
import TriplePass.Proofs.Text.Utf8
import TriplePass.Proofs.Toml.Scan
import TriplePass.Proofs.Toml.Tidy

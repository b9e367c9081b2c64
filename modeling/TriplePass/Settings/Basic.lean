import TriplePass.Dictionary
import TriplePass.Path

/-! # Settings

The fifteen settings of the harness with their defaults, and each of them as a field: its name,
the shape of its values, and how to get and put it.
-/
namespace TriplePass

namespace Settings

/-- The allocator libraries that are looked for: each name in every system directory. -/
def systemAllocators : List Path :=
  ["libmimalloc.so", "libtcmalloc.so"].flatMap fun name =>
    ["/usr/lib/x86_64-linux-gnu", "/usr/lib64", "/usr/lib"].map fun dir =>
      (Path.ofString dir).child name

end Settings

structure Settings where
  checkCompilers : List String := ["dmd", "ldmd2"]
  runCompilers : List String := ["dmd", "ldmd2"]
  sanitizerCompilers : List String := ["ldmd2"]
  linter : Option String := some "dscanner"
  lintArguments : List String := ["--styleCheck"]
  allocatorLibraries : List Path := Settings.systemAllocators
  preloadVariable : String := "LD_PRELOAD"
  demangler : String := "ddemangled"
  useDemangler : Bool := true
  exitEarly : Bool := false
  debug : Bool := false
  useColor : Bool := true
  useEmoji : Bool := false
  recursionMarker : String := "XDMD_ACTIVE"
  extraEnvironment : Environment := []
  deriving DecidableEq, Repr

/-- What a field can hold. -/
inductive Setting where
  | texts (items : List String)
  | text (s : String)
  | optionalText (s : Option String)
  | paths (items : List Path)
  | flag (b : Bool)
  | bindings (vars : Environment)
  deriving DecidableEq, Repr

inductive Shape where
  | texts
  | text
  | optionalText
  | paths
  | flag
  | bindings
  deriving DecidableEq, Repr

def Setting.shape : Setting → Shape
  | .texts _ => .texts
  | .text _ => .text
  | .optionalText _ => .optionalText
  | .paths _ => .paths
  | .flag _ => .flag
  | .bindings _ => .bindings

inductive Field where
  | checkCompilers
  | runCompilers
  | sanitizerCompilers
  | linter
  | lintArguments
  | allocatorLibraries
  | preloadVariable
  | demangler
  | useDemangler
  | exitEarly
  | debug
  | useColor
  | useEmoji
  | recursionMarker
  | extraEnvironment
  deriving DecidableEq, Repr

namespace Field

def all : List Field :=
  [.checkCompilers, .runCompilers, .sanitizerCompilers, .linter, .lintArguments,
    .allocatorLibraries, .preloadVariable, .demangler, .useDemangler, .exitEarly, .debug,
    .useColor, .useEmoji, .recursionMarker, .extraEnvironment]

def name : Field → String
  | .checkCompilers => "check_compilers"
  | .runCompilers => "run_compilers"
  | .sanitizerCompilers => "sanitizer_compilers"
  | .linter => "linter"
  | .lintArguments => "lint_arguments"
  | .allocatorLibraries => "allocator_libraries"
  | .preloadVariable => "preload_variable"
  | .demangler => "demangler"
  | .useDemangler => "use_demangler"
  | .exitEarly => "exit_early_on_check_failure"
  | .debug => "debug"
  | .useColor => "use_color"
  | .useEmoji => "use_emoji"
  | .recursionMarker => "recursion_marker"
  | .extraEnvironment => "extra_environment"

def named? (s : String) : Option Field :=
  all.find? (·.name == s)

def shape : Field → Shape
  | .checkCompilers | .runCompilers | .sanitizerCompilers | .lintArguments => .texts
  | .linter => .optionalText
  | .allocatorLibraries => .paths
  | .preloadVariable | .demangler | .recursionMarker => .text
  | .useDemangler | .exitEarly | .debug | .useColor | .useEmoji => .flag
  | .extraEnvironment => .bindings

theorem mem_all (f : Field) : f ∈ all := by
  cases f <;> simp [all]

theorem named?_name (f : Field) : named? f.name = some f := by
  cases f <;> decide

end Field

namespace Settings

def get (s : Settings) : Field → Setting
  | .checkCompilers => .texts s.checkCompilers
  | .runCompilers => .texts s.runCompilers
  | .sanitizerCompilers => .texts s.sanitizerCompilers
  | .linter => .optionalText s.linter
  | .lintArguments => .texts s.lintArguments
  | .allocatorLibraries => .paths s.allocatorLibraries
  | .preloadVariable => .text s.preloadVariable
  | .demangler => .text s.demangler
  | .useDemangler => .flag s.useDemangler
  | .exitEarly => .flag s.exitEarly
  | .debug => .flag s.debug
  | .useColor => .flag s.useColor
  | .useEmoji => .flag s.useEmoji
  | .recursionMarker => .text s.recursionMarker
  | .extraEnvironment => .bindings s.extraEnvironment

/-- The settings with one field changed; a setting of another shape changes nothing. -/
def put (s : Settings) : Field → Setting → Settings
  | .checkCompilers, .texts x => { s with checkCompilers := x }
  | .runCompilers, .texts x => { s with runCompilers := x }
  | .sanitizerCompilers, .texts x => { s with sanitizerCompilers := x }
  | .linter, .optionalText x => { s with linter := x }
  | .lintArguments, .texts x => { s with lintArguments := x }
  | .allocatorLibraries, .paths x => { s with allocatorLibraries := x }
  | .preloadVariable, .text x => { s with preloadVariable := x }
  | .demangler, .text x => { s with demangler := x }
  | .useDemangler, .flag x => { s with useDemangler := x }
  | .exitEarly, .flag x => { s with exitEarly := x }
  | .debug, .flag x => { s with debug := x }
  | .useColor, .flag x => { s with useColor := x }
  | .useEmoji, .flag x => { s with useEmoji := x }
  | .recursionMarker, .text x => { s with recursionMarker := x }
  | .extraEnvironment, .bindings x => { s with extraEnvironment := x }
  | _, _ => s

theorem shape_get (s : Settings) (f : Field) : (s.get f).shape = f.shape := by
  cases f <;> rfl

theorem get_put (s : Settings) {f : Field} {x : Setting} (h : x.shape = f.shape) (q : Field) :
    (s.put f x).get q = if q = f then x else s.get q := by
  cases f <;> cases x <;> cases h <;> cases q <;> rfl

theorem ext_get {s t : Settings} (h : ∀ f, s.get f = t.get f) : s = t := by
  obtain ⟨⟩ := s
  obtain ⟨⟩ := t
  simp only [mk.injEq]
  exact ⟨Setting.texts.inj (h .checkCompilers), Setting.texts.inj (h .runCompilers),
    Setting.texts.inj (h .sanitizerCompilers), Setting.optionalText.inj (h .linter),
    Setting.texts.inj (h .lintArguments), Setting.paths.inj (h .allocatorLibraries),
    Setting.text.inj (h .preloadVariable), Setting.text.inj (h .demangler),
    Setting.flag.inj (h .useDemangler), Setting.flag.inj (h .exitEarly),
    Setting.flag.inj (h .debug), Setting.flag.inj (h .useColor), Setting.flag.inj (h .useEmoji),
    Setting.text.inj (h .recursionMarker), Setting.bindings.inj (h .extraEnvironment)⟩

end Settings
end TriplePass

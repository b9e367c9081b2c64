import TriplePass.Host
import TriplePass.Proofs.Dictionary
import TriplePass.Proofs.Path

/-! # The environment of a child

A child finds the variables of the parent and, over them, those of the settings. The harness adds
two of its own: the recursion marker, and for a compiler the preload list with the allocator's
library at its end. The list goes on where the parent's ends, so one that the settings put in its
place is lost.
-/
namespace TriplePass

def Environment.value (env : Environment) (name : String) : String :=
  (Dictionary.get? env name).getD ""

namespace Task
variable {pass : Pass} {plan : Plan} {s : Settings} {parent : Environment} {name : String}

def preloaded : Pass → Plan → Option Path
  | .lint, _ => none
  | .check, plan | .run, plan => plan.allocator

def inheritedBy (s : Settings) (parent : Environment) : Environment :=
  Dictionary.overlay parent s.extraEnvironment

def childEnvironment (pass : Pass) (plan : Plan) (s : Settings) (parent : Environment) :
    Environment :=
  Dictionary.overlay parent (bindingsFor pass plan s parent)

theorem allocator_of_preloaded {library : Path} (h : preloaded pass plan = some library) :
    plan.allocator = some library := by
  cases pass with
  | lint => cases h
  | check | run => exact h

theorem environment_of_build {inv : Invocation} {dir : Path} {task : Task}
    (h : build pass inv plan s dir parent = .ok task) :
    task.environment parent = childEnvironment pass plan s parent := by
  unfold build at h
  split at h
  · cases h
    rfl
  · cases h

def markedExtras (s : Settings) : Environment :=
  s.extraEnvironment.set s.recursionMarker "1"

theorem bindingsFor_eq (pass : Pass) (plan : Plan) (s : Settings) (parent : Environment) :
    bindingsFor pass plan s parent =
      match preloaded pass plan with
      | none => markedExtras s
      | some library => (markedExtras s).set s.preloadVariable
          (extendPreload (parent.value s.preloadVariable) library.toString) := by
  cases ha : plan.allocator <;> cases pass <;> simp only [bindingsFor, preloaded, ha] <;> rfl

theorem distinct_bindingsFor (h : s.extraEnvironment.Distinct) :
    (bindingsFor pass plan s parent).Distinct := by
  have hmarked : (markedExtras s).Distinct := h.set _ _
  rw [bindingsFor_eq]
  split
  · exact hmarked
  · exact hmarked.set _ _

/-- Behind the preload list comes the marker, and behind that what is inherited. -/
theorem get?_childEnvironment (h : s.extraEnvironment.Distinct) (pass : Pass) (plan : Plan)
    (parent : Environment) (name : String) :
    Dictionary.get? (childEnvironment pass plan s parent) name =
      ((preloaded pass plan).bind fun library => if name = s.preloadVariable then
        some (extendPreload (parent.value name) library.toString) else none).or
        (if name = s.recursionMarker then some "1" else (inheritedBy s parent).get? name) := by
  rw [childEnvironment, Dictionary.get?_overlay (distinct_bindingsFor h), bindingsFor_eq,
    inheritedBy, Dictionary.get?_overlay h]
  cases preloaded pass plan with
  | none =>
    simp only [markedExtras, Dictionary.get?_set, Option.bind_none, Option.none_or]
    split <;> rfl
  | some library =>
    simp only [markedExtras, Dictionary.get?_set, Option.bind_some]
    by_cases hp : name = s.preloadVariable
    · subst hp
      simp
    · simp only [hp, if_false, Option.none_or]
      split <;> rfl

theorem extendPreload_ne_empty {library : String} (h : library ≠ "") (existing : String) :
    extendPreload existing library ≠ "" := by
  unfold extendPreload
  split
  · exact h
  · intro hempty
    exact h (String.append_eq_empty_iff.1 hempty).2

theorem length_extendPreload (existing library : String) :
    (extendPreload existing library).length =
      library.length + if existing = "" then 0 else existing.length + 1 := by
  unfold extendPreload
  split
  · rfl
  · have hcolon : ":".length = 1 := by decide
    rw [String.length_append, String.length_append, hcolon]
    omega

/-- A longer list shows what it was before. -/
theorem extendPreload_inj {a b library : String} :
    extendPreload a library = extendPreload b library ↔ a = b := by
  refine ⟨fun h => ?_, fun h => h ▸ rfl⟩
  have hlength := congrArg String.length h
  rw [length_extendPreload, length_extendPreload] at hlength
  by_cases ha : a = ""
  · by_cases hb : b = ""
    · rw [ha, hb]
    · rw [if_pos ha, if_neg hb] at hlength
      omega
  · by_cases hb : b = ""
    · rw [if_neg ha, if_pos hb] at hlength
      omega
    · rw [extendPreload, if_neg ha, extendPreload, if_neg hb, String.append_assoc,
        String.append_assoc, String.append_left_inj] at h
      exact h

structure Equipped (pass : Pass) (plan : Plan) (s : Settings) (parent : Environment) :
    Prop where
  /-- A task that is built for the pass is started with these variables. -/
  started : ∀ inv dir task, build pass inv plan s dir parent = .ok task →
    task.environment parent = childEnvironment pass plan s parent
  marked : (childEnvironment pass plan s parent).value s.recursionMarker ≠ ""
  inherited : ∀ name, name ≠ s.recursionMarker → name ≠ s.preloadVariable →
    Dictionary.get? (childEnvironment pass plan s parent) name =
      Dictionary.get? (inheritedBy s parent) name
  unpreloaded : s.preloadVariable ≠ s.recursionMarker → preloaded pass plan = none →
    Dictionary.get? (childEnvironment pass plan s parent) s.preloadVariable =
      Dictionary.get? (inheritedBy s parent) s.preloadVariable
  /-- The list that is extended is the parent's. -/
  preloaded : ∀ library, preloaded pass plan = some library →
    Dictionary.get? (childEnvironment pass plan s parent) s.preloadVariable =
      some (extendPreload (parent.value s.preloadVariable) library.toString)
  /-- It is the inherited one exactly if the settings put no other in its place. -/
  extended_iff : ∀ library, Task.preloaded pass plan = some library →
    (Dictionary.get? (childEnvironment pass plan s parent) s.preloadVariable =
        some (extendPreload ((inheritedBy s parent).value s.preloadVariable) library.toString) ↔
      ∀ list, Dictionary.get? s.extraEnvironment s.preloadVariable = some list →
        list = parent.value s.preloadVariable)

theorem value_inheritedBy (h : s.extraEnvironment.Distinct) (parent : Environment)
    (name : String) :
    (inheritedBy s parent).value name =
      (Dictionary.get? s.extraEnvironment name).getD (parent.value name) := by
  rw [Environment.value, inheritedBy, Dictionary.get?_overlay h]
  cases Dictionary.get? s.extraEnvironment name <;> rfl

/-- A child is marked, finds every other variable as it is inherited, and finds the allocator behind
the parent's preload list. -/
theorem environment_equipped (hextra : s.extraEnvironment.Distinct)
    (hlibrary : ∀ library, plan.allocator = some library → ∃ text, library = Path.ofString text)
    (pass : Pass) (parent : Environment) : Equipped pass plan s parent where
  started _ _ _ hbuild := environment_of_build hbuild
  marked := by
    rw [Environment.value, get?_childEnvironment hextra, if_pos rfl]
    cases hp : Task.preloaded pass plan with
    | none =>
      simp only [Option.bind_none, Option.none_or, Option.getD_some]
      decide
    | some library =>
      rw [Option.bind_some]
      split
      · obtain ⟨text, rfl⟩ := hlibrary library (allocator_of_preloaded hp)
        exact extendPreload_ne_empty (Path.toString_ofString_ne_empty text) _
      · simp only [Option.none_or, Option.getD_some]
        decide
  inherited name hmarker hpreload := by
    rw [get?_childEnvironment hextra, if_neg hmarker]
    simp [hpreload]
  unpreloaded hdiffer hnone := by
    rw [get?_childEnvironment hextra, hnone, if_neg hdiffer]
    rfl
  preloaded library hsome := by
    rw [get?_childEnvironment hextra, hsome]
    simp
  extended_iff library hsome := by
    rw [get?_childEnvironment hextra, hsome, value_inheritedBy hextra]
    simp only [Option.bind_some, if_true, Option.some_or, Option.some.injEq, extendPreload_inj]
    cases Dictionary.get? s.extraEnvironment s.preloadVariable with
    | none => simp
    | some list => simp [eq_comm]

/-! ### A preload list of the settings -/

def mimalloc : Path := Path.ofString "/usr/lib/libmimalloc.so"

def allocatingPlan : Plan where
  check := true
  run := false
  lint := false
  redirection := .inherit
  checkProgram := some (Path.ofString "/opt/d/dmd")
  allocator := some mimalloc

theorem environment_equipped_mimalloc :
    Dictionary.Distinct [("DFLAGS", "-g"), ("LD_PRELOAD", "/lib/libfoo.so")] ∧
      allocatingPlan.allocator = some (Path.ofString "/usr/lib/libmimalloc.so") ∧
      Equipped .check allocatingPlan
        { extraEnvironment := [("DFLAGS", "-g"), ("LD_PRELOAD", "/lib/libfoo.so")] }
        [("LD_PRELOAD", "/lib/libfoo.so")] := by
  have hextra : Dictionary.Distinct [("DFLAGS", "-g"), ("LD_PRELOAD", "/lib/libfoo.so")] := by
    decide
  have hlibrary : allocatingPlan.allocator = some (Path.ofString "/usr/lib/libmimalloc.so") := rfl
  exact ⟨hextra, hlibrary, environment_equipped hextra
    (fun library h => ⟨_, Option.some.inj (h.symm.trans hlibrary)⟩) .check _⟩

/-- The list that the settings give is gone. -/
theorem environment_preload_lost :
    Environment.value (inheritedBy { extraEnvironment := [("LD_PRELOAD", "/lib/libfoo.so")] } [])
        "LD_PRELOAD" = "/lib/libfoo.so" ∧
      Dictionary.get? (childEnvironment .check allocatingPlan
        { extraEnvironment := [("LD_PRELOAD", "/lib/libfoo.so")] } []) "LD_PRELOAD" =
        some "/usr/lib/libmimalloc.so" := by
  decide

end Task
end TriplePass

import TriplePass.Proofs.Settings.Dump
import TriplePass.Proofs.Settings.Loading

/-! # Flags

A flag counts only if it is set, and then to a truth value or not at all. What the flags of an
environment contribute is a table with each name once.
-/
namespace TriplePass

namespace Layer
open Result
variable {env : Environment} {data : Table} {flag raw suffix : String} {b : Bool}

def flagWord (raw : String) : String :=
  lowered (String.ofList (Text.strip raw.toList))

def truthy (raw : String) : Bool :=
  truthyFlags.contains (flagWord raw)

def flagValue (env : Environment) (suffix : String) : Option Bool :=
  (Dictionary.get? env (flagPrefix ++ suffix)).map truthy

def FlagReadable (env : Environment) (suffix : String) : Prop :=
  ∀ raw, Dictionary.get? env (flagPrefix ++ suffix) = some raw →
    truthy raw = true ∨ falsyFlags.contains (flagWord raw) = true

theorem readFlagText_eq_ok : readFlagText flag raw = .ok b ↔
    (truthy raw = true ∨ falsyFlags.contains (flagWord raw) = true) ∧ truthy raw = b := by
  have hread : readFlagText flag raw =
      if truthy raw then .ok true
      else if falsyFlags.contains (flagWord raw) then .ok false
      else .error (.badFlag flag raw) := rfl
  rw [hread]
  split
  next htrue => simp [htrue]
  next htrue =>
    split
    next hfalse => simp_all
    next hfalse => simp_all

theorem flag?_eq_ok {b? : Option Bool} : flag? env suffix = .ok b? ↔
    FlagReadable env suffix ∧ flagValue env suffix = b? := by
  unfold flag? FlagReadable flagValue
  dsimp only
  cases Dictionary.get? env (flagPrefix ++ suffix) with
  | none => simp
  | some raw =>
    rw [map_eq_ok]
    constructor
    · rintro ⟨b, hb, rfl⟩
      obtain ⟨hword, rfl⟩ := readFlagText_eq_ok.1 hb
      exact ⟨fun _ h => Option.some.inj h ▸ hword, rfl⟩
    · rintro ⟨hword, rfl⟩
      exact ⟨truthy raw, readFlagText_eq_ok.2 ⟨hword raw rfl, rfl⟩, rfl⟩

def flagEntry (env : Environment) (flag : String × Field × Bool) : Option (String × Value) :=
  (flagValue env flag.1).map fun b => (flag.2.1.name, .boolean (b != flag.2.2))

def lintEntries (env : Environment) : Table :=
  if flagValue env "NO_LINT" = some true then [(Field.linter.name, .null)] else []

theorem readFlags_eq_ok {flags : List (String × Field × Bool)} :
    readFlags env flags = .ok data ↔
      (∀ suffix ∈ flags.map Prod.fst ++ ["NO_LINT"], FlagReadable env suffix) ∧
        flags.filterMap (flagEntry env) ++ lintEntries env = data := by
  induction flags generalizing data with
  | nil =>
    rw [readFlags, bind_eq_ok]
    simp only [flag?_eq_ok, List.map_nil, List.nil_append, List.forall_mem_singleton,
      List.filterMap_nil, lintEntries]
    constructor
    · rintro ⟨_, ⟨hread, rfl⟩, h⟩
      refine ⟨hread, ?_⟩
      split at h <;> cases h
      · rw [if_pos ‹_›]
      · rw [if_neg ‹_›]
    · rintro ⟨hread, rfl⟩
      refine ⟨_, ⟨hread, rfl⟩, ?_⟩
      split <;> rfl
  | cons flag rest ih =>
    obtain ⟨suffix, f, inverted⟩ := flag
    rw [readFlags, bind_eq_ok]
    simp only [flag?_eq_ok, bind_eq_ok, ih, List.map_cons, List.cons_append, List.forall_mem_cons]
    have hentry : flagEntry env (suffix, f, inverted) =
        (flagValue env suffix).map fun b => (f.name, .boolean (b != inverted)) := rfl
    constructor
    · rintro ⟨_, ⟨hflag, rfl⟩, _, ⟨hrest, rfl⟩, h⟩
      refine ⟨⟨hflag, hrest⟩, ?_⟩
      rw [List.filterMap_cons, hentry]
      cases hvalue : flagValue env suffix with
      | none => rw [hvalue] at h; exact Except.ok.inj h
      | some b => rw [hvalue] at h; exact Except.ok.inj h
    · rintro ⟨⟨hflag, hrest⟩, rfl⟩
      refine ⟨_, ⟨hflag, rfl⟩, _, ⟨hrest, rfl⟩, ?_⟩
      rw [List.filterMap_cons, hentry]
      cases flagValue env suffix <;> rfl

def flagGiven (env : Environment) : Field → Option Setting
  | .debug => (flagValue env "DEBUG").map .flag
  | .useColor => (flagValue env "NO_COLOR").map fun b => .flag !b
  | .useEmoji => (flagValue env "NO_EMOJI").map fun b => .flag !b
  | .useDemangler => (flagValue env "NO_DEMANGLE").map fun b => .flag !b
  | .exitEarly => (flagValue env "EXIT_EARLY").map .flag
  | .linter => if flagValue env "NO_LINT" = some true then some (.optionalText none) else none
  | _ => none

theorem get?_flagEntries (env : Environment) (flags : List (String × Field × Bool)) (f : Field) :
    Dictionary.get? (flags.filterMap (flagEntry env)) f.name =
      flags.findSome? fun flag =>
        if flag.2.1 = f then (flagEntry env flag).map Prod.snd else none := by
  induction flags with
  | nil => rfl
  | cons flag rest ih =>
    rw [List.filterMap_cons, List.findSome?_cons, ← ih]
    unfold flagEntry
    cases flagValue env flag.1 with
    | none => simp
    | some b =>
      simp only [Option.map_some, Dictionary.get?_cons]
      by_cases hf : flag.2.1 = f
      · simp [hf]
      · have hname : f.name ≠ flag.2.1.name := fun h => hf (Field.name_inj h).symm
        simp [hf, hname]

theorem get?_lintEntries (env : Environment) (f : Field) :
    Dictionary.get? (lintEntries env) f.name =
      if f = .linter ∧ flagValue env "NO_LINT" = some true then some .null else none := by
  unfold lintEntries
  by_cases hlint : flagValue env "NO_LINT" = some true
  · rw [if_pos hlint, Dictionary.get?_cons]
    by_cases hf : f = .linter
    · simp [hf, hlint]
    · have hname : f.name ≠ Field.linter.name := fun h => hf (Field.name_inj h)
      simp [hf, hname, Dictionary.get?]
  · rw [if_neg hlint, if_neg fun h => hlint h.2]
    rfl

theorem given_flags (env : Environment) (f : Field) :
    Settings.given (Dictionary.get? (flagFields.filterMap (flagEntry env) ++ lintEntries env)) f =
      flagGiven env f := by
  unfold Settings.given
  rw [Dictionary.get?_append, get?_flagEntries, get?_lintEntries]
  have hread (f : Field) (hf : f.shape = .flag) (b : Bool) :
      (f.read (.boolean b)).toOption = some (.flag b) := by
    rw [Field.read_boolean hf]
    rfl
  cases f with
  | debug =>
    cases h : flagValue env "DEBUG" <;>
      simp [flagFields, flagEntry, flagGiven, hread .debug rfl, h]
  | useColor =>
    cases h : flagValue env "NO_COLOR" <;>
      simp [flagFields, flagEntry, flagGiven, hread .useColor rfl, h]
  | useEmoji =>
    cases h : flagValue env "NO_EMOJI" <;>
      simp [flagFields, flagEntry, flagGiven, hread .useEmoji rfl, h]
  | useDemangler =>
    cases h : flagValue env "NO_DEMANGLE" <;>
      simp [flagFields, flagEntry, flagGiven, hread .useDemangler rfl, h]
  | exitEarly =>
    cases h : flagValue env "EXIT_EARLY" <;>
      simp [flagFields, flagEntry, flagGiven, hread .exitEarly rfl, h]
  | linter =>
    have hnull : (Field.linter.read .null).toOption = some (.optionalText none) := rfl
    by_cases h : flagValue env "NO_LINT" = some true <;> simp [flagFields, flagGiven, hnull, h]
  | _ => rfl

theorem names_flagEntries (env : Environment) (flags : List (String × Field × Bool)) :
    (Dictionary.names (flags.filterMap (flagEntry env))).Sublist
      (flags.map fun flag => flag.2.1.name) := by
  induction flags with
  | nil => exact .slnil
  | cons flag rest ih =>
    rw [List.filterMap_cons, List.map_cons]
    unfold flagEntry
    cases flagValue env flag.1 with
    | none => exact ih.cons _
    | some b => exact ih.cons_cons _

theorem distinct_flags (env : Environment) :
    Dictionary.Distinct (flagFields.filterMap (flagEntry env) ++ lintEntries env) := by
  have hlint : (Dictionary.names (lintEntries env)).Sublist [Field.linter.name] := by
    unfold lintEntries
    split
    · exact .refl _
    · exact List.nil_sublist _
  have hall := (names_flagEntries env flagFields).append hlint
  have hnodup : (flagFields.map (fun flag => flag.2.1.name) ++ [Field.linter.name]).Nodup := by
    decide
  unfold Dictionary.Distinct Dictionary.names
  rw [List.map_append]
  exact hall.nodup hnodup

/-- A flag gives a truth value to a field of flags, or switches the linter off. -/
theorem mem_flags {name : String} {v : Value}
    (h : (name, v) ∈ flagFields.filterMap (flagEntry env) ++ lintEntries env) :
    (∃ f : Field, ∃ b, f.name = name ∧ f.shape = .flag ∧ v = .boolean b) ∨
      Field.linter.name = name ∧ v = .null := by
  have hshape : ∀ flag ∈ flagFields, flag.2.1.shape = .flag := by decide
  rcases List.mem_append.1 h with hmem | hmem
  · obtain ⟨flag, hflag, hentry⟩ := List.mem_filterMap.1 hmem
    obtain ⟨b, -, heq⟩ := Option.map_eq_some_iff.1 hentry
    cases heq
    exact .inl ⟨flag.2.1, _, rfl, hshape flag hflag, rfl⟩
  · unfold lintEntries at hmem
    split at hmem
    · cases List.mem_singleton.1 hmem
      exact .inr ⟨rfl, rfl⟩
    · cases hmem

theorem valid_flags (env : Environment) :
    Settings.Valid (Dictionary.get? (flagFields.filterMap (flagEntry env) ++ lintEntries env)) := by
  intro name v hfind
  rcases mem_flags ((distinct_flags env).mem_iff.2 hfind) with ⟨f, b, hname, hshape, rfl⟩ |
    ⟨hname, rfl⟩
  · exact ⟨f, _, hname, Field.read_boolean hshape b⟩
  · exact ⟨.linter, _, hname, rfl⟩

theorem regular_flags (env : Environment) :
    Table.Regular (flagFields.filterMap (flagEntry env) ++ lintEntries env) := by
  refine ⟨distinct_flags env, ?_⟩
  intro name v hv
  rcases mem_flags ((distinct_flags env).mem_iff.2 hv) with ⟨f, b, -, -, rfl⟩ | ⟨-, rfl⟩
  · trivial
  · trivial

theorem load_flags {t : FileTree} {workingDir : Place} :
    (Layer.flags env).load t workingDir = .ok data ↔ readFlags env flagFields = .ok data := by
  rw [Layer.load]
  cases readFlags env flagFields <;> simp

end Layer

namespace Settings
open Layer Result
variable {t : FileTree} {workingDir : Place} {env : Environment} {s c : Settings}

theorem addLayer_flags : addLayer t workingDir s (.flags env) = .ok c ↔
    (∀ suffix ∈ flagFields.map Prod.fst ++ ["NO_LINT"], FlagReadable env suffix) ∧
      ∀ f, c.get f = (flagGiven env f).getD (s.get f) := by
  simp only [addLayer_eq_ok, load_flags, readFlags_eq_ok]
  constructor
  · rintro ⟨_, ⟨hflags, rfl⟩, hupdate⟩
    obtain ⟨-, hfields⟩ := (update_eq_ok (distinct_flags env)).1 hupdate
    exact ⟨hflags, fun f => by rw [hfields, given_flags]⟩
  · rintro ⟨hflags, hfields⟩
    refine ⟨_, ⟨hflags, rfl⟩, (update_eq_ok (distinct_flags env)).2 ?_⟩
    exact ⟨valid_flags env, fun f => by rw [hfields, given_flags]⟩

end Settings
end TriplePass

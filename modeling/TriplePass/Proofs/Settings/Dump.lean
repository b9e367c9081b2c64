import TriplePass.Proofs.FileTree.Normal
import TriplePass.Proofs.Settings.Reading

/-! # Settings written out

Settings are written out as a table with a value for every field, and each of these values is read
as the setting that it was written for. So changing some settings is the same as writing all of them
out, putting the changes on top, and reading the whole table from scratch.
-/
namespace TriplePass

def Value.Regular : Value → Prop
  | .table entries => Dictionary.Distinct entries
  | _ => True

/-- A table of settings holds each name once, and so do the tables in it. -/
structure Table.Regular (data : Table) : Prop where
  distinct : Dictionary.Distinct data
  values : ∀ name v, Dictionary.get? data name = some v → v.Regular

namespace Setting

/-- A path is as it is written, and a variable is set once. -/
def Regular : Setting → Prop
  | .paths items => ∀ path ∈ items, Path.ofString path.toString = path
  | .bindings vars => Dictionary.Distinct vars
  | _ => True

def value : Setting → Value
  | .texts items => .array (items.map .string)
  | .text s => .string s
  | .optionalText none => .null
  | .optionalText (some s) => .string s
  | .paths items => .array (items.map fun path => .string path.toString)
  | .flag b => .boolean b
  | .bindings vars => .table (vars.map fun v => (v.1, .string v.2))

end Setting

/-! ### Reading what was written -/

section Items
variable {α : Type}

theorem readItems_map {item : Value → Read α} {write : α → Value} {l : List α}
    (h : ∀ a ∈ l, item (write a) = .ok a) (i : Nat) : readItems item i (l.map write) = .ok l := by
  induction l generalizing i with
  | nil => rfl
  | cons a rest ih =>
    obtain ⟨ha, hrest⟩ := List.forall_mem_cons.1 h
    have hmore := ih hrest (i + 1)
    exact Read.both_eq_ok.2 ⟨a, rest, Read.within_eq_ok.2 ha, hmore, rfl⟩

theorem mem_of_readItems {item : Value → Read α} {values : List Value} {i : Nat} {l : List α}
    (h : readItems item i values = .ok l) {a : α} (ha : a ∈ l) : ∃ v, item v = .ok a := by
  induction values generalizing i l with
  | nil =>
    cases h
    cases ha
  | cons v rest ih =>
    obtain ⟨b, more, hb, hmore, rfl⟩ := Read.both_eq_ok.1 h
    rcases List.mem_cons.1 ha with rfl | ha
    · exact ⟨v, Read.within_eq_ok.1 hb⟩
    · exact ih hmore ha

end Items

namespace Field
open Result
variable {f : Field} {v : Value} {x : Setting}

/-- A setting is read from the value that it is written as. -/
theorem read_value (hshape : x.shape = f.shape) (hx : x.Regular) : f.read x.value = .ok x := by
  rw [Field.read, Read.within_eq_ok, ← hshape]
  cases x with
  | texts items =>
    have hitems : readItems readText 0 (items.map .string) = .ok items := by
      apply readItems_map
      intro s _
      rfl
    exact map_eq_ok.2 ⟨items, hitems, rfl⟩
  | paths items =>
    have hitems : readItems readPath 0 (items.map fun path => .string path.toString) =
        .ok items := by
      apply readItems_map
      intro path hpath
      exact congrArg Except.ok (hx path hpath)
    exact map_eq_ok.2 ⟨items, hitems, rfl⟩
  | bindings vars => exact map_eq_ok.2 ⟨vars, Settings.readEntries_text.2 rfl, rfl⟩
  | optionalText s => cases s <;> rfl
  | text | flag => rfl

theorem distinct_texts {vars : Environment} :
    Dictionary.Distinct (vars.map fun v => (v.1, Value.string v.2)) ↔ vars.Distinct := by
  rw [Dictionary.Distinct, Dictionary.Distinct, Dictionary.names, Dictionary.names, List.map_map]
  rfl

theorem regular_of_shapeRead {shape : Shape} (hv : v.Regular) (h : shape.read v = .ok x) :
    x.Regular := by
  cases x with
  | paths items =>
    have hshape := shape_of_shapeRead h
    subst hshape
    obtain ⟨_, hitems, heq⟩ := map_eq_ok.1 h
    cases heq
    intro path hpath
    cases v with
    | array values =>
      obtain ⟨w, hw⟩ := mem_of_readItems hitems hpath
      cases w with
      | string s =>
        cases hw
        exact FileTree.ofString_toString s
      | _ => cases hw
    | _ => cases hitems
  | bindings vars =>
    have hshape := shape_of_shapeRead h
    subst hshape
    cases v with
    | table entries =>
      obtain ⟨_, hentries, heq⟩ := map_eq_ok.1 h
      cases heq
      rw [Settings.readEntries_text] at hentries
      rw [hentries] at hv
      exact distinct_texts.1 hv
    | _ => cases h
  | texts | text | optionalText | flag => trivial

theorem regular_of_read (hv : v.Regular) (h : f.read v = .ok x) : x.Regular :=
  regular_of_shapeRead hv (Read.within_eq_ok.1 h)

end Field

namespace Settings
variable {s c : Settings} {data lower upper : Table} {f : Field}

def WellTyped (s : Settings) : Prop :=
  ∀ f, (s.get f).shape = f.shape ∧ (s.get f).Regular

theorem wellTyped_default : WellTyped {} := by
  intro f
  refine ⟨shape_get _ f, ?_⟩
  cases f with
  | allocatorLibraries =>
    change ∀ path ∈ systemAllocators, Path.ofString path.toString = path
    decide +kernel
  | extraEnvironment => exact List.nodup_nil
  | _ => trivial

/-- What is read from regular values keeps the types. -/
theorem WellTyped.given (hs : s.WellTyped) (hdata : Table.Regular data)
    (hfields : ∀ f, c.get f = (given (Dictionary.get? data) f).getD (s.get f)) : c.WellTyped := by
  intro f
  refine ⟨shape_get c f, ?_⟩
  rw [hfields]
  cases hgiven : Settings.given (Dictionary.get? data) f with
  | none => exact (hs f).2
  | some x =>
    obtain ⟨v, hv, hx⟩ := Option.bind_eq_some_iff.1 hgiven
    exact Field.regular_of_read (hdata.values _ v hv) (Result.toOption_eq_some.1 hx)

/-! ### Tables on top of each other -/

theorem Valid.exists_read {find : String → Option Value} {v : Value} (h : Valid find)
    (hv : find f.name = some v) : ∃ x, f.read v = .ok x := by
  obtain ⟨g, x, hname, hread⟩ := h f.name v hv
  cases Field.name_inj hname
  exact ⟨x, hread⟩

theorem given_eq_read {v : Value} (h : Dictionary.get? data f.name = some v) :
    given (Dictionary.get? data) f = (f.read v).toOption := by
  rw [given, h]
  rfl

theorem given_of_none (h : Dictionary.get? data f.name = none) :
    given (Dictionary.get? data) f = none := by
  rw [given, h]
  rfl

theorem given_overlay (hupper : Dictionary.Distinct upper) (hvalid : Valid (Dictionary.get? upper))
    (f : Field) : given (Dictionary.get? (Dictionary.overlay lower upper)) f =
      (given (Dictionary.get? upper) f).or (given (Dictionary.get? lower) f) := by
  have hget := Dictionary.get?_overlay hupper lower f.name
  cases hv : Dictionary.get? upper f.name with
  | none =>
    rw [given_of_none hv, Option.none_or, given, given, hget, hv, Option.none_or]
  | some v =>
    rw [hv, Option.some_or] at hget
    obtain ⟨x, hread⟩ := hvalid.exists_read hv
    rw [given_eq_read hv, given_eq_read hget, hread]
    rfl

theorem valid_overlay_iff (hupper : Dictionary.Distinct upper)
    (hlower : Valid (Dictionary.get? lower)) :
    Valid (Dictionary.get? (Dictionary.overlay lower upper)) ↔ Valid (Dictionary.get? upper) := by
  constructor
  · intro h name v hv
    refine h name v ?_
    rw [Dictionary.get?_overlay hupper, hv]
    rfl
  · intro h name v hv
    rw [Dictionary.get?_overlay hupper, Option.or_eq_some_iff] at hv
    rcases hv with hv | ⟨-, hv⟩
    · exact h name v hv
    · exact hlower name v hv

/-- One table after the other is the second on top of the first. -/
theorem update_overlay (hlower : Dictionary.Distinct lower) (hupper : Dictionary.Distinct upper)
    {t u : Settings} (ht : s.update lower = .ok t) (hu : t.update upper = .ok u) :
    s.update (Dictionary.overlay lower upper) = .ok u := by
  obtain ⟨hvalid, hfirst⟩ := (update_eq_ok hlower).1 ht
  obtain ⟨hvalid', hsecond⟩ := (update_eq_ok hupper).1 hu
  refine (update_eq_ok (hlower.overlay upper)).2
    ⟨(valid_overlay_iff hupper hvalid).2 hvalid', fun f => ?_⟩
  rw [hsecond, hfirst, given_overlay hupper hvalid', Option.getD_or]

/-! ### Settings as a table -/

def dump (s : Settings) : Table :=
  Field.all.map fun f => (f.name, (s.get f).value)

theorem distinct_dump (s : Settings) : Dictionary.Distinct s.dump := by
  rw [Dictionary.Distinct, Dictionary.names, dump, List.map_map]
  change (Field.all.map Field.name).Nodup
  decide

theorem get?_dump (s : Settings) (f : Field) :
    Dictionary.get? s.dump f.name = some (s.get f).value :=
  (distinct_dump s).mem_iff.1 (List.mem_map.2 ⟨f, Field.mem_all f, rfl⟩)

theorem WellTyped.valid_dump (hs : s.WellTyped) : Valid (Dictionary.get? s.dump) := by
  intro name v hv
  obtain ⟨f, -, heq⟩ := List.mem_map.1 ((distinct_dump s).mem_iff.2 hv)
  cases heq
  exact ⟨f, s.get f, rfl, Field.read_value (hs f).1 (hs f).2⟩

theorem WellTyped.given_dump (hs : s.WellTyped) (f : Field) :
    Settings.given (Dictionary.get? s.dump) f = some (s.get f) := by
  rw [given_eq_read (get?_dump s f), Field.read_value (hs f).1 (hs f).2]
  rfl

/-- A table changes settings as it changes the table that they are written as, which is then read
from scratch. -/
theorem WellTyped.update_dump (hs : s.WellTyped) (hdata : Dictionary.Distinct data) (r : Settings) :
    r.update (Dictionary.overlay s.dump data) = .ok c ↔ s.update data = .ok c := by
  rw [update_eq_ok ((distinct_dump s).overlay data), update_eq_ok hdata,
    valid_overlay_iff hdata hs.valid_dump]
  refine and_congr_right fun hvalid => forall_congr' fun f => ?_
  rw [given_overlay hdata hvalid, hs.given_dump, Option.getD_or, Option.getD_some]

theorem WellTyped.restored (hs : s.WellTyped) (r : Settings) : r.update s.dump = .ok s := by
  have hempty : Dictionary.Distinct ([] : Table) := List.nodup_nil
  exact (hs.update_dump hempty r).2 rfl

end Settings
end TriplePass

import Mathlib.Data.List.Forall2
import TriplePass.Settings.Reading
import TriplePass.Proofs.Dictionary

/-! # Reading tables of settings

A table is taken over exactly if every name in it is that of a field and every value can be read by
its field. Then it changes the fields that it names, each to what its value is read as, and no
other. The variables of a table of texts are its entries, under the names that they have there.
-/
namespace TriplePass

namespace Result
variable {ε α β : Type}

theorem map_eq_ok {f : α → β} {r : Except ε α} {b : β} :
    f <$> r = .ok b ↔ ∃ a, r = .ok a ∧ f a = b := by
  cases r <;> simp [Functor.map, Except.map]

theorem mapError_eq_ok {ε' : Type} {g : ε → ε'} {r : Except ε α} {a : α} :
    r.mapError g = .ok a ↔ r = .ok a := by
  cases r <;> simp [Except.mapError]

theorem bind_eq_ok {f : α → Except ε β} {r : Except ε α} {b : β} :
    r >>= f = .ok b ↔ ∃ a, r = .ok a ∧ f a = .ok b := by
  cases r <;> simp [bind, Except.bind]

theorem toOption_eq_some {r : Except ε α} {a : α} : r.toOption = some a ↔ r = .ok a := by
  cases r <;> simp [Except.toOption]

end Result

namespace Read
variable {α β γ : Type}

theorem within_eq_ok {l : Locator} {r : Read α} {a : α} : r.within l = .ok a ↔ r = .ok a := by
  cases r <;> simp [Read.within]

theorem both_eq_ok {combine : α → β → γ} {r : Read α} {more : Read β} {c : γ} :
    Read.both combine r more = .ok c ↔ ∃ a b, r = .ok a ∧ more = .ok b ∧ combine a b = c := by
  cases r <;> cases more <;> simp [Read.both]

end Read

namespace Field
open Result Read
variable {f g : Field} {v : Value} {x : Setting}

theorem name_inj (h : f.name = g.name) : f = g :=
  Option.some.inj ((named?_name f).symm.trans ((congrArg named? h).trans (named?_name g)))

theorem named?_eq_some {name : String} : named? name = some f ↔ f.name = name := by
  constructor
  · intro h
    simpa using List.find?_some h
  · rintro rfl
    exact named?_name f

theorem shape_of_shapeRead {shape : Shape} (h : shape.read v = .ok x) : x.shape = shape := by
  unfold Shape.read at h
  split at h
  case h_4 => cases h; rfl
  case h_8 => cases h
  all_goals
    obtain ⟨a, -, rfl⟩ := map_eq_ok.1 h
    rfl

theorem shape_of_read (h : f.read v = .ok x) : x.shape = f.shape :=
  shape_of_shapeRead (within_eq_ok.1 h)

theorem read_boolean (hf : f.shape = .flag) (b : Bool) : f.read (.boolean b) = .ok (.flag b) := by
  rw [Field.read, hf]
  rfl

theorem readEntry_eq_ok {unknown : Refusal} {name : String} {c : Field × Setting} :
    readEntry unknown name v = .ok c ↔ c.1.name = name ∧ c.1.read v = .ok c.2 := by
  obtain ⟨f, x⟩ := c
  unfold readEntry
  cases hnamed : named? name with
  | none =>
    simp only [reduceCtorEq, false_iff]
    rintro ⟨hname, -⟩
    rw [named?_eq_some.2 hname] at hnamed
    cases hnamed
  | some g =>
    have hname := named?_eq_some.1 hnamed
    rw [map_eq_ok]
    constructor
    · rintro ⟨y, hy, heq⟩
      cases heq
      exact ⟨hname, hy⟩
    · rintro ⟨hf, hx⟩
      cases name_inj (hf.trans hname.symm)
      exact ⟨x, hx, rfl⟩

end Field

/-! ### Tables -/

namespace Settings
open Result Read
variable {s c : Settings} {data : Dictionary Value} {changes : List (Field × Setting)}

/-- Every value that is found belongs to a field and can be read by it. -/
def Valid (find : String → Option Value) : Prop :=
  ∀ name v, find name = some v → ∃ f x, Field.name f = name ∧ f.read v = .ok x

def given (find : String → Option Value) (f : Field) : Option Setting :=
  (find f.name).bind fun v => (f.read v).toOption

def Gives (e : String × Value) (c : Field × Setting) : Prop :=
  c.1.name = e.1 ∧ c.1.read e.2 = .ok c.2

theorem readTable_eq_ok : readTable data = .ok changes ↔ List.Forall₂ Gives data changes := by
  induction data generalizing changes with
  | nil => simp [readTable, List.forall₂_nil_left_iff, eq_comm]
  | cons e rest ih =>
    rw [readTable, both_eq_ok, List.forall₂_cons_left_iff]
    constructor
    · rintro ⟨c, more, hc, hmore, rfl⟩
      exact ⟨c, more, Field.readEntry_eq_ok.1 hc, ih.1 hmore, rfl⟩
    · rintro ⟨c, more, hc, hmore, rfl⟩
      exact ⟨c, more, Field.readEntry_eq_ok.2 hc, ih.2 hmore, rfl⟩

theorem get_putAll (h : List.Forall₂ Gives data changes) (hdata : data.Distinct) (s : Settings)
    (f : Field) : (s.putAll changes).get f = (given data.get? f).getD (s.get f) := by
  induction h generalizing s with
  | nil => rfl
  | @cons e c rest more hc hmore ih =>
    obtain ⟨hfresh, hrest⟩ := List.nodup_cons.1 hdata
    obtain ⟨hname, hread⟩ := hc
    change ((s.put c.1 c.2).putAll more).get f = _
    rw [ih hrest, get_put s (Field.shape_of_read hread)]
    unfold given
    rw [Dictionary.get?_cons]
    by_cases hf : f = c.1
    · -- no later entry sets the field over again
      have hnone : Dictionary.get? rest f.name = none :=
        Dictionary.get?_of_not_mem (by rw [hf, hname]; exact hfresh)
      have hthis : f.name = e.1 := by rw [hf, hname]
      rw [hnone, if_pos hf, if_pos hthis, hf]
      simp [hread, Except.toOption]
    · have hother : f.name ≠ e.1 := fun heq => hf (Field.name_inj (heq.trans hname.symm))
      rw [if_neg hf, if_neg hother]

theorem exists_gives_iff :
    (∃ changes, List.Forall₂ Gives data changes) ↔ ∀ e ∈ data, ∃ c, Gives e c := by
  induction data with
  | nil => exact ⟨fun _ _ h => (nomatch h), fun _ => ⟨[], .nil⟩⟩
  | cons e rest ih =>
    rw [List.forall_mem_cons, ← ih]
    constructor
    · rintro ⟨changes, h⟩
      obtain ⟨c, more, hc, hmore, -⟩ := List.forall₂_cons_left_iff.1 h
      exact ⟨⟨c, hc⟩, more, hmore⟩
    · rintro ⟨⟨c, hc⟩, more, hmore⟩
      exact ⟨c :: more, .cons hc hmore⟩

theorem readEntries_text {entries : Table} {vars : Environment} :
    readEntries readText entries = .ok vars ↔ entries = vars.map fun v => (v.1, .string v.2) := by
  induction entries generalizing vars with
  | nil => cases vars <;> simp [readEntries]
  | cons e rest ih =>
    obtain ⟨name, v⟩ := e
    rw [readEntries, both_eq_ok]
    constructor
    · rintro ⟨text, more, htext, hmore, rfl⟩
      rw [within_eq_ok] at htext
      cases v with
      | string s =>
        cases htext
        rw [ih.1 hmore]
        rfl
      | _ => cases htext
    · intro h
      cases vars with
      | nil => cases h
      | cons var more =>
        cases h
        exact ⟨var.2, more, rfl, ih.2 rfl, rfl⟩

/-- The extra variables are those of the table, every name as it is written there. -/
theorem given_extraEnvironment {find : String → Option Value} {vars : Environment} :
    given find .extraEnvironment = some (.bindings vars) ↔
      find "extra_environment" = some (.table (vars.map fun v => (v.1, .string v.2))) := by
  have hread (v : Value) : Field.extraEnvironment.read v = .ok (.bindings vars) ↔
      v = .table (vars.map fun v => (v.1, .string v.2)) := by
    rw [Field.read, within_eq_ok]
    cases v with
    | table entries =>
      change (.bindings <$> readEntries readText entries : Read Setting) = _ ↔ _
      simp [map_eq_ok, readEntries_text]
    | _ => simp [Field.shape, Shape.read, refuse]
  simp only [given, Option.bind_eq_some_iff, toOption_eq_some, hread]
  exact ⟨fun ⟨v, hv, heq⟩ => heq ▸ hv, fun h => ⟨_, h, rfl⟩⟩

theorem exists_update (hdata : data.Distinct) (hvalid : Valid data.get?) (s : Settings) :
    ∃ c, s.update data = .ok c ∧ ∀ f, c.get f = (given data.get? f).getD (s.get f) := by
  obtain ⟨changes, hgives⟩ := exists_gives_iff.2 fun e he => by
    obtain ⟨f, x, hname, hread⟩ := hvalid e.1 e.2 (hdata.mem_iff.1 he)
    exact ⟨(f, x), hname, hread⟩
  exact ⟨_, map_eq_ok.2 ⟨changes, readTable_eq_ok.2 hgives, rfl⟩, get_putAll hgives hdata s⟩

/-- A table is taken over exactly if it is valid, and changes exactly what it gives. -/
theorem update_eq_ok (hdata : data.Distinct) :
    s.update data = .ok c ↔
      Valid data.get? ∧ ∀ f, c.get f = (given data.get? f).getD (s.get f) := by
  constructor
  · intro h
    obtain ⟨changes, hchanges, rfl⟩ := map_eq_ok.1 h
    have hgives := readTable_eq_ok.1 hchanges
    refine ⟨fun name v hv => ?_, get_putAll hgives hdata s⟩
    obtain ⟨c, hname, hread⟩ := exists_gives_iff.1 ⟨_, hgives⟩ _ (hdata.mem_iff.2 hv)
    exact ⟨c.1, c.2, hname, hread⟩
  · rintro ⟨hvalid, hfields⟩
    obtain ⟨c', hupdate, hfields'⟩ := exists_update hdata hvalid s
    rw [hupdate, ext_get fun f => (hfields f).trans (hfields' f).symm]

end Settings

end TriplePass

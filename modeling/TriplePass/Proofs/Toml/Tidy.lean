import Mathlib.Data.List.Nodup
import TriplePass.Proofs.Dictionary
import TriplePass.Toml.Document

/-! # Names in a document

A document that is read gives a table that holds each name once, and so does every table in it, at
any depth. Statements keep the tables under construction so: they change the node of a name where
it stands, or put a new name behind the others.
-/
namespace TriplePass

namespace Value
variable {v : Value} {entries : Table} {items : List Value}

def isPlain : Value → Bool
  | .array _ | .table _ => false
  | _ => true

/-- Every table in the value holds each name once. -/
inductive Tidy : Value → Prop where
  | table {entries : Table} : Dictionary.Distinct entries → (∀ e ∈ entries, Tidy e.2) →
      Tidy (.table entries)
  | array {items : List Value} : (∀ v ∈ items, Tidy v) → Tidy (.array items)
  | plain {v : Value} : v.isPlain = true → Tidy v

theorem tidy_table_iff :
    Tidy (.table entries) ↔ Dictionary.Distinct entries ∧ ∀ e ∈ entries, Tidy e.2 := by
  constructor
  · intro h
    cases h with
    | table hdistinct hvalues => exact ⟨hdistinct, hvalues⟩
    | plain h => cases h
  · rintro ⟨hdistinct, hvalues⟩
    exact .table hdistinct hvalues

theorem tidy_array_iff : Tidy (.array items) ↔ ∀ v ∈ items, Tidy v := by
  constructor
  · intro h
    cases h with
    | array h => exact h
    | plain h => cases h
  · exact .array

theorem tidy_nil : Tidy (.table []) :=
  tidy_table_iff.2 ⟨List.nodup_nil, List.forall_mem_nil _⟩

end Value

namespace Toml
open Value

/-! ### Tables under construction -/

section Nodes
variable {name : String} {path : List String} {make : Option Node} {change : Node → Option Node}
  {entries new : Nodes} {items : List Nodes} {node : Node} {v : Value}

theorem tableOf_eq (entries : Nodes) :
    Node.tableOf entries = entries.map fun e => (e.1, e.2.toValue) := by
  induction entries with
  | nil => rfl
  | cons e rest ih =>
    obtain ⟨name, node⟩ := e
    rw [Node.tableOf, ih, List.map_cons]

theorem arrayOf_eq (items : List Nodes) :
    Node.arrayOf items = items.map fun item => .table (Node.tableOf item) := by
  induction items with
  | nil => rfl
  | cons item rest ih => rw [Node.arrayOf, ih, List.map_cons]

def Tidied (entries : Nodes) : Prop :=
  (Value.table (Node.tableOf entries)).Tidy

theorem tidied_iff :
    Tidied entries ↔ Dictionary.Distinct entries ∧ ∀ e ∈ entries, e.2.toValue.Tidy := by
  have hnames : Dictionary.names (Node.tableOf entries) = Dictionary.names entries := by
    rw [Dictionary.names, tableOf_eq, List.map_map]
    rfl
  rw [Tidied, tidy_table_iff, Dictionary.Distinct, hnames, tableOf_eq, List.forall_mem_map]
  rfl

theorem tidied_nil : Tidied [] :=
  tidy_nil

theorem tidy_tables_iff : (Node.tables items).toValue.Tidy ↔ ∀ item ∈ items, Tidied item := by
  rw [Node.toValue, tidy_array_iff, arrayOf_eq, List.forall_mem_map]
  rfl

theorem names_changeKey (h : changeKey name make change entries = some new) :
    Dictionary.names new = Dictionary.names entries ∨
      name ∉ Dictionary.names entries ∧
        Dictionary.names new = Dictionary.names entries ++ [name] := by
  induction entries generalizing new with
  | nil =>
    obtain ⟨node, -, rfl⟩ := Option.map_eq_some_iff.1 h
    exact .inr ⟨List.not_mem_nil, rfl⟩
  | cons e rest ih =>
    obtain ⟨n, node⟩ := e
    rw [changeKey] at h
    split at h
    next hn =>
      obtain ⟨changed, -, rfl⟩ := Option.map_eq_some_iff.1 h
      exact .inl rfl
    next hn =>
      obtain ⟨more, hmore, rfl⟩ := Option.map_eq_some_iff.1 h
      rcases ih hmore with hsame | ⟨hfresh, happend⟩
      · exact .inl (congrArg (n :: ·) hsame)
      · refine .inr ⟨fun hmem => ?_, congrArg (n :: ·) happend⟩
        rcases List.mem_cons.1 hmem with heq | hmem
        · exact hn heq.symm
        · exact hfresh hmem

theorem mem_changeKey (h : changeKey name make change entries = some new) {e : String × Node}
    (he : e ∈ new) : e ∈ entries ∨ make = some e.2 ∨
      ∃ old ∈ entries, change old.2 = some e.2 := by
  induction entries generalizing new with
  | nil =>
    obtain ⟨node, hmake, rfl⟩ := Option.map_eq_some_iff.1 h
    cases List.mem_singleton.1 he
    exact .inr (.inl hmake)
  | cons first rest ih =>
    obtain ⟨n, node⟩ := first
    rw [changeKey] at h
    split at h
    next hn =>
      obtain ⟨changed, hchange, rfl⟩ := Option.map_eq_some_iff.1 h
      rcases List.mem_cons.1 he with rfl | he
      · exact .inr (.inr ⟨(n, node), List.mem_cons_self, hchange⟩)
      · exact .inl (List.mem_cons_of_mem _ he)
    next hn =>
      obtain ⟨more, hmore, rfl⟩ := Option.map_eq_some_iff.1 h
      rcases List.mem_cons.1 he with rfl | he
      · exact .inl List.mem_cons_self
      · rcases ih hmore he with he | hmake | ⟨old, hold, hchange⟩
        · exact .inl (List.mem_cons_of_mem _ he)
        · exact .inr (.inl hmake)
        · exact .inr (.inr ⟨old, List.mem_cons_of_mem _ hold, hchange⟩)

def Keeps (change : Nodes → Option Nodes) : Prop :=
  ∀ entries new, Tidied entries → change entries = some new → Tidied new

theorem keeps_changeKey (hmake : ∀ node, make = some node → node.toValue.Tidy)
    (hchange : ∀ old node, old.toValue.Tidy → change old = some node → node.toValue.Tidy) :
    Keeps (changeKey name make change) := by
  intro entries new h hnew
  obtain ⟨hdistinct, hvalues⟩ := tidied_iff.1 h
  refine tidied_iff.2 ⟨?_, fun e he => ?_⟩
  · rcases names_changeKey hnew with hsame | ⟨hfresh, happend⟩
    · rw [Dictionary.Distinct, hsame]
      exact hdistinct
    · rw [Dictionary.Distinct, happend, ← List.concat_eq_append]
      exact List.Nodup.concat hfresh hdistinct
  · rcases mem_changeKey hnew he with he | hmade | ⟨old, hold, hchanged⟩
    · exact hvalues e he
    · exact hmake e.2 hmade
    · exact hchange old.2 e.2 (hvalues old hold) hchanged

theorem tidied_changeLast {f : Nodes → Option Nodes} {changed : List Nodes} (hf : Keeps f)
    (h : ∀ item ∈ items, Tidied item) (hchanged : changeLast f items = some changed) :
    ∀ item ∈ changed, Tidied item := by
  induction items generalizing changed with
  | nil => cases hchanged
  | cons first rest ih =>
    obtain ⟨hfirst, hrest⟩ := List.forall_mem_cons.1 h
    cases rest with
    | nil =>
      obtain ⟨new, hnew, rfl⟩ := Option.map_eq_some_iff.1 hchanged
      exact List.forall_mem_singleton.2 (hf _ _ hfirst hnew)
    | cons second rest =>
      obtain ⟨more, hmore, rfl⟩ := Option.map_eq_some_iff.1 hchanged
      exact List.forall_mem_cons.2 ⟨hfirst, ih hrest hmore⟩

theorem keeps_descend {last : String → Nodes → Option Nodes} (hlast : ∀ name, Keeps (last name))
    (path : List String) : Keeps (descend last path) := by
  induction path with
  | nil =>
    intro entries new _ hnew
    cases hnew
  | cons name path ih =>
    cases path with
    | nil => exact hlast name
    | cons next path =>
      refine keeps_changeKey (fun node hmade => ?_) fun old node hold hchanged => ?_
      · obtain ⟨inner, hinner, rfl⟩ := Option.map_eq_some_iff.1 hmade
        exact ih _ _ tidied_nil hinner
      · cases old with
        | value v => cases hchanged
        | table opening inner =>
          obtain ⟨changed, hinner, rfl⟩ := Option.map_eq_some_iff.1 hchanged
          exact ih _ _ hold hinner
        | tables items =>
          obtain ⟨changed, hitems, rfl⟩ := Option.map_eq_some_iff.1 hchanged
          exact tidy_tables_iff.2 (tidied_changeLast ih (tidy_tables_iff.1 hold) hitems)

theorem keeps_openTable (path : List String) : Keeps (openTable path) := by
  refine keeps_descend (fun name => keeps_changeKey ?_ ?_) path
  · rintro _ ⟨⟩
    exact tidy_nil
  · intro old node hold hchanged
    split at hchanged
    · cases hchanged
      exact hold
    · cases hchanged

theorem keeps_openItem (path : List String) : Keeps (openItem path) := by
  refine keeps_descend (fun name => keeps_changeKey ?_ ?_) path
  · rintro _ ⟨⟩
    exact tidy_tables_iff.2 (List.forall_mem_singleton.2 tidied_nil)
  · intro old node hold hchanged
    split at hchanged
    · cases hchanged
      refine tidy_tables_iff.2 (List.forall_mem_append.2 ⟨tidy_tables_iff.1 hold, ?_⟩)
      exact List.forall_mem_singleton.2 tidied_nil
    · cases hchanged

theorem keeps_setDotted (hv : v.Tidy) (path : List String) : Keeps (setDotted v path) := by
  induction path with
  | nil =>
    intro entries new _ hnew
    cases hnew
  | cons name path ih =>
    cases path with
    | nil =>
      refine keeps_changeKey ?_ ?_
      · rintro _ ⟨⟩
        exact hv
      · intro _ _ _ hchanged
        cases hchanged
    | cons next path =>
      refine keeps_changeKey (fun node hmade => ?_) fun old node hold hchanged => ?_
      · obtain ⟨inner, hinner, rfl⟩ := Option.map_eq_some_iff.1 hmade
        exact ih _ _ tidied_nil hinner
      · split at hchanged
        · cases hchanged
        · obtain ⟨changed, hinner, rfl⟩ := Option.map_eq_some_iff.1 hchanged
          exact ih _ _ hold hinner
        · cases hchanged

theorem keeps_setIn (hv : v.Tidy) (header path : List String) : Keeps (setIn header path v) := by
  intro entries new h hnew
  rw [setIn] at hnew
  split at hnew
  · exact keeps_setDotted hv path _ _ h hnew
  · refine keeps_descend (fun name => keeps_changeKey ?_ ?_) header _ _ h hnew
    · rintro _ ⟨⟩
    · intro old node hold hchanged
      have hkeeps : Keeps (setDotted v path) := keeps_setDotted hv path
      cases old with
      | value w => cases hchanged
      | table opening inner =>
        obtain ⟨changed, hinner, rfl⟩ := Option.map_eq_some_iff.1 hchanged
        exact hkeeps _ _ hold hinner
      | tables items =>
        obtain ⟨changed, hitems, rfl⟩ := Option.map_eq_some_iff.1 hchanged
        exact tidy_tables_iff.2 (tidied_changeLast hkeeps (tidy_tables_iff.1 hold) hitems)

end Nodes

/-! ### Scans -/

def Yields {α : Type} (P : α → Prop) (scan : Scan α) : Prop :=
  ∀ s a rest, scan s = .ok (a, rest) → P a

namespace Yields
variable {α β : Type} {P : α → Prop} {Q : β → Prop} {scan other : Scan α} {f : α → Scan β}

theorem pure {a : α} (h : P a) : Yields P (Pure.pure a) := by
  intro s b rest hok
  cases hok
  exact h

theorem malformed : Yields P Scan.malformed := by
  intro s a rest hok
  cases hok

theorem bind_of (h : Yields P scan) (hf : ∀ a, P a → Yields Q (f a)) : Yields Q (scan >>= f) := by
  intro s b rest hok
  change (scan s >>= fun p => f p.1 p.2) = _ at hok
  cases hscan : scan s with
  | error e => rw [hscan] at hok; cases hok
  | ok p =>
    rw [hscan] at hok
    exact hf p.1 (h _ _ _ hscan) _ _ _ hok

/-- What the first scan finds does not matter. -/
theorem bind (hf : ∀ a, Yields Q (f a)) : Yields Q (scan >>= f) :=
  bind_of (P := fun _ => True) (fun _ _ _ _ => trivial) fun a _ => hf a

theorem ite {p : Prop} [Decidable p] (h : Yields P scan) (ho : Yields P other) :
    Yields P (if p then scan else other) := by
  split
  · exact h
  · exact ho

theorem guarded {p : Prop} [Decidable p] {next : PUnit → Scan α} (h : ∀ u, Yields P (next u)) :
    Yields P (if p then next ⟨⟩ else Scan.malformed >>= next) :=
  ite (h _) (bind h)

theorem optional (h : Yields P scan) :
    Yields (fun a? => ∀ a, a? = some a → P a) (Scan.optional scan) := by
  intro s a? rest hok
  unfold Scan.optional at hok
  split at hok
  next hscan =>
    cases hok
    rintro _ ⟨⟩
    exact h _ _ _ hscan
  next =>
    cases hok
    exact fun _ hnone => nomatch hnone

end Yields

theorem yields_radixInteger : Yields Tidy radixInteger := by
  refine .bind fun _ => .bind fun c => ?_
  split
  · exact .bind fun _ => .bind fun _ => .pure (.plain rfl)
  · exact .malformed

theorem yields_decimalNumber : Yields Tidy decimalNumber := by
  refine .bind fun _ => .bind fun _ => .bind fun _ => .bind fun _ => .ite ?_ (.pure (.plain rfl))
  refine .ite (.bind fun _ => ?_) ?_
  · exact .pure (.plain rfl)
  · exact .pure (.plain rfl)

theorem yields_specialFloat : Yields Tidy specialFloat :=
  .bind fun _ => .bind fun _ => .ite (.bind fun _ => .pure (.plain rfl))
    (.bind fun _ => .ite (.bind fun _ => .pure (.plain rfl)) .malformed)

theorem yields_dated (d : Date) : Yields Tidy (dated d) := by
  refine .bind fun t => ?_
  cases t with
  | none =>
    exact .ite (.bind fun _ => .guarded fun _ => .pure (.plain rfl))
      (.bind fun _ => .guarded fun _ => .pure (.plain rfl))
  | some t =>
    exact .ite (.bind fun _ => .guarded fun _ => .pure (.plain rfl))
      (.bind fun _ => .guarded fun _ => .pure (.plain rfl))

theorem yields_number : Yields Tidy number := by
  refine .bind_of (.optional yields_radixInteger) fun v hv => ?_
  split
  · exact .pure (hv _ rfl)
  refine .bind fun s => ?_
  split
  · refine .ite yields_decimalNumber (.bind fun s => ?_)
    split
    · exact .ite yields_decimalNumber yields_specialFloat
    · exact .malformed
  · exact .malformed

theorem yields_scalar : Yields Tidy scalar := by
  refine .bind fun d => ?_
  split
  · exact yields_dated _
  refine .bind fun t => ?_
  split
  · exact .pure (.plain rfl)
  · exact yields_number

section Values
variable {item : Scan Value} {fuel depth : Nat} {entries : Nodes} {items : List Value}

theorem yields_itemsRest (h : Yields Tidy item) (hitems : ∀ v ∈ items, v.Tidy) :
    Yields (fun found => ∀ v ∈ found, v.Tidy) (itemsRest item fuel items) := by
  have hreverse (found : List Value) (hfound : ∀ v ∈ found, v.Tidy) :
      ∀ v ∈ found.reverse, v.Tidy := fun v hv => hfound v (List.mem_reverse.1 hv)
  induction fuel generalizing items with
  | zero => exact .malformed
  | succ fuel ih =>
    refine .bind fun _ => .bind fun _ => .ite (.bind fun _ => .pure (hreverse _ hitems)) ?_
    refine .bind_of h fun v hv => .bind fun _ => .bind fun c => ?_
    have hmore : ∀ w ∈ v :: items, w.Tidy := List.forall_mem_cons.2 ⟨hv, hitems⟩
    split
    · exact .bind fun _ => .pure (hreverse _ hmore)
    · exact .bind fun _ => ih hmore
    · exact .malformed

theorem yields_keyValue (h : Yields Tidy item) : Yields (fun e => e.2.Tidy) (keyValue item) :=
  .bind fun _ => .bind fun _ => .bind fun _ => .bind_of h fun _ hv => .pure hv

theorem yields_inlineRest (h : Yields Tidy item) (hentries : Tidied entries) :
    Yields (fun found => Tidy (.table found)) (inlineRest item fuel entries) := by
  induction fuel generalizing entries with
  | zero => exact .malformed
  | succ fuel ih =>
    refine .bind fun _ => .bind_of (yields_keyValue h) fun entry hv => ?_
    obtain ⟨path, v⟩ := entry
    dsimp only
    split
    · exact .malformed
    next new hnew =>
      have hmore : Tidied new := keeps_setDotted hv path _ _ hentries hnew
      refine .bind fun _ => .bind fun c => ?_
      split
      · exact .bind fun _ => .pure hmore
      · exact .bind fun _ => ih hmore
      · exact .malformed

theorem yields_inlineTable (h : Yields Tidy item) :
    Yields (fun found => Tidy (.table found)) (inlineTable item) :=
  .bind fun _ => .bind fun _ => .ite (.bind fun _ => .pure tidy_nil)
    (.bind fun _ => yields_inlineRest h tidied_nil)

theorem yields_value : Yields Tidy (value depth) := by
  induction depth with
  | zero => exact .malformed
  | succ depth ih =>
    refine .bind fun c => ?_
    split
    · exact .bind fun _ => .pure (.plain rfl)
    · exact .bind fun _ => .pure (.plain rfl)
    · refine .bind fun _ => .bind fun _ => ?_
      exact .bind_of (yields_itemsRest ih (List.forall_mem_nil _)) fun _ hitems => .pure (.array hitems)
    · exact .bind fun _ => .bind_of (yields_inlineTable ih) fun _ hfound => .pure hfound
    · exact .bind fun _ => .ite (.bind fun _ => .pure (.plain rfl))
        (.bind fun _ => .ite (.bind fun _ => .pure (.plain rfl)) yields_scalar)

end Values

/-! ### Documents -/

section Documents
variable {r : Reading} {fuel : Nat} {text : List Char} {data : Table}

theorem yields_orMalformed {α : Type} (a? : Option α) :
    Yields (fun a => a? = some a) (orMalformed a?) := by
  cases a? with
  | none => exact .malformed
  | some a => exact .pure rfl

theorem yields_header (hr : Tidied r.entries) :
    Yields (fun found => Tidied found.entries) (header r) := by
  refine .bind fun item => .bind fun _ => .bind fun _ => .bind fun path => ?_
  refine .bind_of (yields_orMalformed _) fun new hnew => ?_
  have hentries : Tidied new := by
    split at hnew
    · exact keeps_openItem path _ _ hr hnew
    · exact keeps_openTable path _ _ hr hnew
  exact .bind fun _ => .ite (.bind fun _ => .pure hentries) (.pure hentries)

theorem yields_statement (hr : Tidied r.entries) :
    Yields (fun found => Tidied found.entries) (statement r) := by
  refine .bind fun c => ?_
  split
  · exact yields_header hr
  · exact .pure hr
  · refine .ite (.bind fun _ => ?_) (.ite (.pure hr) .malformed)
    refine .bind_of (yields_keyValue yields_value) fun entry hv => ?_
    refine .bind_of (yields_orMalformed _) fun new hnew => .pure ?_
    exact keeps_setIn hv r.header entry.1 _ _ hr hnew
  · exact .pure hr

theorem yields_statements (hr : Tidied r.entries) :
    Yields (fun found => Tidied found.entries) (statements fuel r) := by
  induction fuel generalizing r with
  | zero => exact .malformed
  | succ fuel ih =>
    refine .bind fun _ => .bind_of (yields_statement hr) fun _ hfound => ?_
    refine .bind fun _ => .bind fun _ => .bind fun c => ?_
    split
    · exact .pure hfound
    · exact .bind fun _ => ih hfound
    · exact .malformed

/-- A document names nothing twice, in whichever of its tables. -/
theorem tidy_read (h : read text = .ok data) : Tidy (.table data) := by
  have hstart : Tidied ({} : Reading).entries := tidied_nil
  simp only [read] at h
  cases hscan : statements ((joinReturns text).length + 1) {} (joinReturns text) with
  | error fault =>
    rw [hscan] at h
    cases h
  | ok p =>
    rw [hscan] at h
    cases h
    exact yields_statements hstart _ _ _ hscan

end Documents
end Toml
end TriplePass

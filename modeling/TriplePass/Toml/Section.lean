import TriplePass.Value

/-! # Tables under construction

While a document is read, every table remembers what opened it: a header of its own, a header of
something inside it, or a dotted key. Headers may open a table once, and dotted keys may add only
to tables that no header has opened; arrays and inline tables are closed as soon as they are
written.
-/
namespace TriplePass.Toml

inductive Opening where
  | implied
  | headed
  | dotted
  deriving DecidableEq, Repr

inductive Node where
  | value (v : Value)
  | table (opening : Opening) (entries : List (String × Node))
  | tables (items : List (List (String × Node)))

abbrev Nodes := List (String × Node)

/-- The document with the last item of an array of tables changed. -/
def changeLast (change : Nodes → Option Nodes) : List Nodes → Option (List Nodes)
  | [] => none
  | [last] => (change last).map fun new => [new]
  | item :: rest => (changeLast change rest).map (item :: ·)

/-- The entries with the node of one key changed, or made where there was none. -/
def changeKey (name : String) (make : Option Node) (change : Node → Option Node) :
    Nodes → Option Nodes
  | [] => make.map fun node => [(name, node)]
  | (n, node) :: rest =>
    if n = name then (change node).map fun new => (n, new) :: rest
    else (changeKey name make change rest).map ((n, node) :: ·)

/-- Goes down the path of a header, through the last item of each array of tables, and makes the
tables that are missing. -/
def descend (last : String → Nodes → Option Nodes) : List String → Nodes → Option Nodes
  | [], _ => none
  | [name], entries => last name entries
  | name :: path, entries =>
    changeKey name ((descend last path []).map (.table .implied))
      (fun
        | .value _ => none
        | .table opening inner => (descend last path inner).map (.table opening)
        | .tables items => (changeLast (descend last path) items).map .tables)
      entries

/-- Opens the table of a header. -/
def openTable : List String → Nodes → Option Nodes :=
  descend fun name =>
    changeKey name (some (.table .headed []))
      (fun
        | .table .implied inner => some (.table .headed inner)
        | _ => none)

/-- Adds an item to the array of tables of a header. -/
def openItem : List String → Nodes → Option Nodes :=
  descend fun name =>
    changeKey name (some (.tables [[]]))
      (fun
        | .tables items => some (.tables (items ++ [[]]))
        | _ => none)

/-- Sets a dotted key, which must be new, below the table it is relative to. -/
def setDotted (v : Value) : List String → Nodes → Option Nodes
  | [], _ => none
  | [name], entries => changeKey name (some (.value v)) (fun _ => none) entries
  | name :: path, entries =>
    changeKey name ((setDotted v path []).map (.table .dotted))
      (fun
        | .table .headed _ => none
        | .table _ inner => (setDotted v path inner).map (.table .dotted)
        | _ => none)
      entries

/-- Sets a key in the section that a header has opened; without a header, in the document. -/
def setIn (header : List String) (path : List String) (v : Value) (entries : Nodes) :
    Option Nodes :=
  if header = [] then setDotted v path entries
  else
    descend
      (fun name =>
        changeKey name none
          (fun
            | .value _ => none
            | .table opening inner => (setDotted v path inner).map (.table opening)
            | .tables items => (changeLast (setDotted v path) items).map .tables))
      header entries

mutual

def Node.toValue : Node → Value
  | .value v => v
  | .table _ entries => .table (Node.tableOf entries)
  | .tables items => .array (Node.arrayOf items)

/-- The finished table of the entries. -/
def Node.tableOf : List (String × Node) → Table
  | [] => []
  | (name, node) :: rest => (name, node.toValue) :: Node.tableOf rest

def Node.arrayOf : List (List (String × Node)) → List Value
  | [] => []
  | item :: rest => .table (Node.tableOf item) :: Node.arrayOf rest

end

end TriplePass.Toml

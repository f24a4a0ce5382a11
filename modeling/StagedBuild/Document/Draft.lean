import StagedBuild.Document.Value

/-! A document in the making. Where a table came from decides what may still be added to it: a table
that has had its header is never opened again, one that only appeared on the way to another may still
get its header, one made by a dotted key takes further dotted keys, and a table written in braces is
a finished value. -/
namespace StagedBuild.Document

inductive Origin where
  | header
  | implied
  | dotted
  deriving DecidableEq, Repr

/-- `tables` is an array of tables made by double brackets; only its last element is open. -/
inductive Draft where
  | value (v : Value)
  | table (origin : Origin) (entries : List (String × Draft))
  | tables (earlier : List (List (String × Draft))) (last : List (String × Draft))
  deriving Inhabited

abbrev Drafts := List (String × Draft)

structure KeyPath where
  parents : List String
  last : String
  deriving DecidableEq, Repr

inductive Statement where
  | assign (path : KeyPath) (value : Value)
  | header (path : KeyPath)
  | arrayHeader (path : KeyPath)
  deriving Repr

def replace (key : String) (draft : Draft) (drafts : Drafts) : Drafts :=
  drafts.map fun (k, d) => if k == key then (k, draft) else (k, d)

def within (change : Drafts → Option Drafts) : List String → Drafts → Option Drafts
  | [], drafts => change drafts
  | key :: parents, drafts =>
    match drafts.lookup key with
    | none => do
      let inner ← within change parents []
      some (drafts ++ [(key, .table .implied inner)])
    | some (.table origin entries) => do
      let inner ← within change parents entries
      some (replace key (.table origin inner) drafts)
    | some (.tables earlier last) => do
      let inner ← within change parents last
      some (replace key (.tables earlier inner) drafts)
    | some (.value _) => none

/-- Adds a value under a dotted key. `own` says whether the table at hand may take the value itself:
at the end of a dotted path it must be one that dotted keys made. -/
def assignTo (own : Bool) (last : String) (value : Value) : List String → Drafts → Option Drafts
  | [], drafts =>
    if own && (drafts.lookup last).isNone then some (drafts ++ [(last, .value value)]) else none
  | key :: parents, drafts =>
    match drafts.lookup key with
    | none => do
      let inner ← assignTo true last value parents []
      some (drafts ++ [(key, .table .dotted inner)])
    | some (.table .header _) => none
    | some (.table .implied entries) => do
      let inner ← assignTo false last value parents entries
      some (replace key (.table .implied inner) drafts)
    | some (.table .dotted entries) => do
      let inner ← assignTo true last value parents entries
      some (replace key (.table .dotted inner) drafts)
    | some (.tables earlier entries) => do
      let inner ← assignTo false last value parents entries
      some (replace key (.tables earlier inner) drafts)
    | some (.value _) => none

def openTable (key : String) (drafts : Drafts) : Option Drafts :=
  match drafts.lookup key with
  | none => some (drafts ++ [(key, .table .header [])])
  | some (.table .implied entries) => some (replace key (.table .header entries) drafts)
  | some _ => none

def openElement (key : String) (drafts : Drafts) : Option Drafts :=
  match drafts.lookup key with
  | none => some (drafts ++ [(key, .tables [] [])])
  | some (.tables earlier last) => some (replace key (.tables (earlier ++ [last]) []) drafts)
  | some _ => none

structure Progress where
  drafts : Drafts := []
  current : List String := []

def Progress.add (p : Progress) : Statement → Option Progress
  | .assign path value => do
    let drafts ← within (assignTo true path.last value path.parents) p.current p.drafts
    some { p with drafts }
  | .header path => do
    let drafts ← within (openTable path.last) path.parents p.drafts
    some ⟨drafts, path.parents ++ [path.last]⟩
  | .arrayHeader path => do
    let drafts ← within (openElement path.last) path.parents p.drafts
    some ⟨drafts, path.parents ++ [path.last]⟩

mutual
def Draft.finish : Draft → Value
  | .value v => v
  | .table _ entries => .table (finishAll entries)
  | .tables earlier last => .array (finishRows earlier ++ [.table (finishAll last)])

def finishAll : Drafts → Entries
  | [] => []
  | (key, draft) :: rest => (key, draft.finish) :: finishAll rest

def finishRows : List Drafts → List Value
  | [] => []
  | row :: rest => .table (finishAll row) :: finishRows rest
end

def ofStatements? (statements : List Statement) : Option Entries := do
  let progress ← statements.foldlM Progress.add {}
  some (finishAll progress.drafts)

def ofPairs? (pairs : List (KeyPath × Value)) : Option Entries :=
  ofStatements? (pairs.map fun (path, value) => .assign path value)

end StagedBuild.Document

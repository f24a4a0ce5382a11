import StagedBuild.Event
import StagedBuild.Pattern.Mode
import StagedBuild.Text.Numeral

/-! Which events are logged. A filter is a list of entries, each for the events of a part of the
program or for all; the entry that names an event's part most closely decides. An entry may also ask
for a value that the events have, or for a scope around them. -/
namespace StagedBuild

/-- Which of the events of a part an entry is for: all, those with a value of this name, or those in a
scope or with a value that is given. This program has no scopes. -/
inductive Demand where
  | nothing
  | value (name : String)
  | scope
  deriving DecidableEq, Repr

structure FilterEntry where
  target : Option String := none
  demand : Demand := .nothing
  rank : Nat
  deriving DecidableEq, Repr

abbrev EventFilter := List FilterEntry

namespace FilterEntry

def coversTarget (entry : FilterEntry) (target : String) : Bool :=
  match entry.target with
  | none => true
  | some t => t.toList.isPrefixOf target.toList

def covers (entry : FilterEntry) (e : Event) : Bool :=
  entry.coversTarget e.target && match entry.demand with
    | .nothing => true
    | .value name => e.valueNames.contains name
    | .scope => false

def weight (entry : FilterEntry) : Nat :=
  match entry.target with
  | none => 0
  | some t => t.utf8ByteSize + 1

def isOrdered : List Char → List Char → Bool
  | [], _ => true
  | _ :: _, [] => false
  | a :: first, b :: second => if a = b then isOrdered first second else a.toNat < b.toNat

def yieldsDemand (first second : FilterEntry) : Bool :=
  match first.demand, second.demand with
  | .value name, .value other => isOrdered name.toList other.toList
  | .value _, _ => false
  | _, _ => true

def yields (first second : FilterEntry) : Bool :=
  first.weight < second.weight || (first.weight == second.weight && first.yieldsDemand second)

def decimalRank? (digits : List Char) : Option Nat :=
  if digits ≠ [] ∧ digits.all isDecimal ∧ decimalValue digits ≤ Level.trace.rank then
    some (decimalValue digits)
  else none

def namedRank? (name : String) : Option Nat :=
  [("off", 0), ("error", 1), ("warn", 2), ("info", 3), ("debug", 4), ("trace", 5)].lookup
    (String.ofList (name.toList.map Char.toLower))

def rank? (s : String) : Option Nat :=
  match s.toList with
  | '+' :: digits => decimalRank? digits
  | characters => match decimalRank? characters with
    | some rank => some rank
    | none => namedRank? s

def levelRank? : List Char → Option Nat
  | [] => some Level.trace.rank
  | level => rank? (String.ofList level)

def canStart (c : Char) : Bool := c = '-' || c = ':' || c = '_' || isAlphanumeric c

structure Brackets where
  scope : List Char
  value : Option (List Char) := none

structure Form where
  name : List Char
  brackets : Option Brackets := none
  hasLevel : Bool := false

def brackets? (cs : List Char) : Option (Brackets × List Char) :=
  let isInside := fun c => c ≠ ']' && c ≠ '\x7b'
  let scope := cs.takeWhile isInside
  match cs.dropWhile isInside with
  | ']' :: rest => some (⟨scope, none⟩, rest)
  | _ :: braced =>
    let value := braced.takeWhile (· ≠ '\x7d')
    match braced.dropWhile (· ≠ '\x7d') with
    | _ :: ']' :: rest => if value.isEmpty then none else some (⟨scope, some value⟩, rest)
    | _ => none
  | [] => none

def form? (cs : List Char) : Option Form :=
  let isName := fun c => c ≠ '=' && c ≠ '['
  let name := cs.takeWhile isName
  if ¬ name.head?.all canStart then none
  else match cs.dropWhile isName with
    | [] => if name.isEmpty then none else some ⟨name, none, false⟩
    | '[' :: rest => match brackets? rest with
      | some (brackets, []) => some ⟨name, some brackets, false⟩
      | some (brackets, '=' :: _) => some ⟨name, some brackets, true⟩
      | _ => none
    | _ => if name.isEmpty then none else some ⟨name, none, true⟩

def size (cs : List Char) : Nat := (String.ofList cs).utf8ByteSize

def Brackets.size (b : Brackets) : Nat :=
  FilterEntry.size b.scope + 1 +
    match b.value with
    | none => 0
    | some value => FilterEntry.size value + 2

def between (s : String) (start stop : Nat) : Option String :=
  String.fromUTF8? (s.toUTF8.extract start stop)

def isGivenValue (cs : List Char) : Bool := isNumeral cs || Pattern.isPattern cs

def valueDemand? (s : String) : Option Demand :=
  match splitOn '=' s.toList with
  | _ :: given :: _ => if isGivenValue given then some .scope else none
  | _ => some (.value s)

def demand? (s : String) (start : Nat) (b : Brackets) : Option Demand :=
  match b.value with
  | none => some .scope
  | some value => do
    let valueStart := start + size b.scope + 1
    let demand ← valueDemand? (← between s valueStart (valueStart + size value))
    some (if b.scope.isEmpty then demand else .scope)

def rankFrom? (s : String) (start : Nat) : Option Nat := do
  levelRank? (← between s start s.utf8ByteSize).toList

def bare (s : String) : FilterEntry :=
  match rank? s with
  | some rank => { rank }
  | none => { target := some s, rank := Level.trace.rank }

def dropWhiteSpace (cs : List Char) : List Char := cs.dropWhile isWhiteSpace

def tidied (cs : List Char) : List Char := (dropWhiteSpace (dropWhiteSpace cs).reverse).reverse

/-- The entry that a text spells. Its form is that of the text without the white space around it, but
the parts are taken from the same places of the text as it stands. -/
def read? (s : String) : Option FilterEntry := do
  let form ← form? (tidied s.toList)
  let nameEnd := size form.name
  match form.brackets with
  | none =>
    if form.hasLevel then
      let target ← between s 0 nameEnd
      let rank ← rankFrom? s (nameEnd + 1)
      some { target := some target, rank }
    else some (bare s)
  | some brackets =>
    let target ← if form.name.isEmpty then some none else (between s 0 nameEnd).map some
    let demand ← demand? s (nameEnd + 1) brackets
    let rank ←
      if form.hasLevel then rankFrom? s (nameEnd + 1 + brackets.size + 1)
      else some Level.trace.rank
    some { target, demand, rank }

end FilterEntry

namespace EventFilter

def usual : EventFilter := [{ rank := Level.warn.rank }]

def read? (s : String) : Option EventFilter :=
  match (pieces ',' s).filter (· != "") with
  | [] => some [{ rank := Level.error.rank }]
  | entries => entries.mapM FilterEntry.read?

def ofOption (s : Option String) : EventFilter := (s.bind read?).getD usual

def closer (best : Option FilterEntry) (entry : FilterEntry) : Option FilterEntry :=
  match best with
  | none => some entry
  | some other => if other.yields entry then some entry else some other

def deciding (filter : EventFilter) (e : Event) : Option FilterEntry :=
  (filter.filter (·.covers e)).foldl closer none

def accepts (filter : EventFilter) (e : Event) : Bool :=
  match deciding filter e with
  | some entry => e.level.rank ≤ entry.rank
  | none => false

def passed (filter : EventFilter) (events : List Event) : List Event := events.filter filter.accepts

end EventFilter

end StagedBuild

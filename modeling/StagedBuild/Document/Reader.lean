import StagedBuild.Document.Draft
import StagedBuild.Document.Moment
import StagedBuild.Document.Number
import StagedBuild.Document.Quoted

/-! Reading a configuration document. Nesting of values and the number of parts of a key are bounded
by a limit, the number of statements, elements and pairs by the length of the text; the bounds are
also what the recursion runs on. -/
namespace StagedBuild.Document

def keyPart : Reader String
  | '"' :: rest => (basic rest).map fun (name, rest) => (String.ofList name, rest)
  | '\'' :: rest => (literal rest).map fun (name, rest) => (String.ofList name, rest)
  | cs =>
    let name := cs.takeWhile isKeyCharacter
    if name.isEmpty then none else some (String.ofList name, cs.dropWhile isKeyCharacter)

def key : Nat → Reader KeyPath
  | 0, _ => none
  | n + 1, cs => do
    let (name, rest) ← keyPart cs
    match skipBlanks rest with
    | '.' :: rest =>
      let (path, rest) ← key n (skipBlanks rest)
      some (⟨name :: path.parents, path.last⟩, rest)
    | rest => some (⟨[], name⟩, rest)

def spelling (cs : List Char) : List Char × List Char :=
  let front := cs.takeWhile isScalarCharacter
  let rest := cs.dropWhile isScalarCharacter
  -- One blank may stand between a date and a digit of the time.
  match date? front, rest with
  | some [], ' ' :: c :: behind =>
    if isDecimal c then
      (front ++ ' ' :: (c :: behind).takeWhile isScalarCharacter,
        (c :: behind).dropWhile isScalarCharacter)
    else (front, rest)
  | _, _ => (front, rest)

def measure? (cs : List Char) : Option Value :=
  ((integer? cs).map Value.integer).or <|
  ((float? cs).map Value.float).or <|
  if isMoment cs then some (.moment (String.ofList cs)) else none

def scalar : Reader Value := fun cs =>
  let (front, rest) := spelling cs
  if front == "true".toList then some (.boolean true, rest)
  else if front == "false".toList then some (.boolean false, rest)
  else (measure? front).map (·, rest)

def simpleValue : Reader Value
  | '"' :: rest => (quoted ('"' :: rest)).map fun (s, rest) => (.text (String.ofList s), rest)
  | '\'' :: rest => (quoted ('\'' :: rest)).map fun (s, rest) => (.text (String.ofList s), rest)
  | cs => scalar cs

def elements (item : Reader Value) : Nat → Reader (List Value)
  | 0, _ => none
  | n + 1, cs => do
    match ← skipGap false cs with
    | ']' :: rest => some ([], rest)
    | cs =>
      let (v, rest) ← item cs
      match ← skipGap false rest with
      | ',' :: rest =>
        let (vs, rest) ← elements item n rest
        some (v :: vs, rest)
      | ']' :: rest => some ([v], rest)
      | _ => none

def pairs (limit : Nat) (item : Reader Value) : Nat → Reader (List (KeyPath × Value))
  | 0, _ => none
  | n + 1, cs => do
    match ← skipGap false cs with
    | '}' :: rest => some ([], rest)
    | cs =>
      let (path, rest) ← key limit cs
      match ← skipGap false rest with
      | '=' :: rest =>
        let (v, rest) ← item (← skipGap false rest)
        match ← skipGap false rest with
        | ',' :: rest =>
          let (more, rest) ← pairs limit item n rest
          some ((path, v) :: more, rest)
        | '}' :: rest => some ([(path, v)], rest)
        | _ => none
      | _ => none

def nestedValue (limit count : Nat) (item : Reader Value) : Reader Value
  | '[' :: rest => (elements item count rest).map fun (vs, rest) => (.array vs, rest)
  | '{' :: rest => do
    let (list, rest) ← pairs limit item count rest
    let entries ← ofPairs? list
    some (.table entries, rest)
  | cs => simpleValue cs

def value (limit count : Nat) : Nat → Reader Value
  | 0 => simpleValue
  | depth + 1 => nestedValue limit count (value limit count depth)

def statement (limit count : Nat) : Reader Statement
  | '[' :: '[' :: rest => do
    match ← key limit (skipBlanks rest) with
    | (path, ']' :: ']' :: rest) =>
      let rest ← lineEnd rest
      some (.arrayHeader path, rest)
    | _ => none
  | '[' :: rest => do
    match ← key limit (skipBlanks rest) with
    | (path, ']' :: rest) =>
      let rest ← lineEnd rest
      some (.header path, rest)
    | _ => none
  | cs => do
    match ← key limit cs with
    | (path, '=' :: rest) =>
      let (v, rest) ← value limit count limit (skipBlanks rest)
      let rest ← lineEnd rest
      some (.assign path v, rest)
    | _ => none

def statements (limit count : Nat) : Nat → List Char → Option (List Statement)
  | 0, _ => none
  | n + 1, cs => do
    match ← skipGap false cs with
    | [] => some []
    | cs =>
      let (first, rest) ← statement limit count cs
      let more ← statements limit count n rest
      some (first :: more)

def dropMark : List Char → List Char
  | '\ufeff' :: rest => rest
  | cs => cs

def readWithin? (limit : Nat) (text : String) : Option Entries := do
  let cs := dropMark text.toList
  let count := cs.length + 1
  let list ← statements limit count count cs
  ofStatements? list

def depthLimit : Nat := 80

def read? (text : String) : Option Entries := readWithin? depthLimit text

end StagedBuild.Document

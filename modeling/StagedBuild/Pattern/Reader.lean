import StagedBuild.Pattern
import StagedBuild.Text.Alphanumeric
import StagedBuild.Text.Hexadecimal
import StagedBuild.Text.WhiteSpace

/-! Reading a pattern. Sets and groups nest up to `nestLimit`, and the number of their parts is bounded
by the length of the text; the bounds are also what the recursion runs on. A verbose pattern may hold
white space and comments, which do not count. -/
namespace StagedBuild.Pattern

abbrev Reader (α : Type) := List Char → Option (α × List Char)

def nestLimit : Nat := 250

def dropSpace : (comment : Bool) → List Char → List Char
  | _, [] => []
  | true, c :: rest => dropSpace (c != '\n') rest
  | false, c :: rest =>
    if isWhiteSpace c then dropSpace false rest
    else if c = '#' then dropSpace true rest
    else c :: rest

def skip (verbose : Bool) (cs : List Char) : List Char := if verbose then dropSpace false cs else cs

def hexDigits (verbose : Bool) : Nat → Nat → Reader Nat
  | 0, value, cs => some (value, cs)
  | _ + 1, _, [] => none
  | n + 1, value, c :: rest => do
    let digit ← hexDigit? c
    hexDigits verbose n (16 * value + digit) (skip verbose rest)

def code (verbose : Bool) (digits : Nat) : Reader Pattern := fun cs => do
  let (n, rest) ← hexDigits verbose digits 0 (skip verbose cs)
  if n.isValidChar then some (.character ⟨Char.ofNat n, digits == 2⟩, rest) else none

def controlCharacters : List (Char × Char) :=
  [('a', '\x07'), ('f', '\x0c'), ('t', '\t'), ('n', '\n'), ('r', '\r'), ('v', '\x0b')]

def isEscapable (c : Char) : Bool := c.toNat < 0x80 && !c.isAlphanum && c != '<' && c != '>'

def escaped? (c : Char) : Option Pattern :=
  if ['d', 's', 'w'].contains c then some (.shorthand false)
  else if ['D', 'S', 'W'].contains c then some (.shorthand true)
  else if ['A', 'z'].contains c then some .edge
  else if ['b', 'B', '<', '>'].contains c then some .wordEdge
  else if isEscapable c then some (.character ⟨c, false⟩)
  else (controlCharacters.lookup c).map fun control => .character ⟨control, false⟩

def escape (verbose : Bool) : Reader Pattern
  | [] => none
  | 'x' :: rest => code verbose 2 rest
  | 'u' :: rest => code verbose 4 rest
  | 'U' :: rest => code verbose 8 rest
  | c :: rest => (escaped? c).map (·, rest)

def setItem (verbose : Bool) : Reader Pattern
  | [] => none
  | '\\' :: rest => escape verbose rest
  | c :: rest => some (.character ⟨c, false⟩, rest)

def single? : Pattern → Option PatternSet
  | .character c => some (.range c c)
  | .shorthand negated => some (.shorthand negated)
  | _ => none

def range? : Pattern → Pattern → Option PatternSet
  | .character first, .character last =>
    if first.value ≤ last.value then some (.range first last) else none
  | _, _ => none

/-- The character that is taken for the next one. In a comment it is the first that is no white space. -/
def upcoming (verbose : Bool) (cs : List Char) : Option Char :=
  if verbose then
    match cs.dropWhile isWhiteSpace with
    | '#' :: rest => (rest.dropWhile isWhiteSpace).head?
    | rest => rest.head?
  else cs.head?

def setRange (verbose : Bool) : Reader PatternSet := fun cs => do
  let (first, rest) ← setItem verbose cs
  match skip verbose rest with
  | [] => none
  | '-' :: rest =>
    let next := upcoming verbose rest
    if next == some ']' || next == some '-' then (single? first).map (·, '-' :: rest)
    else
      let (last, rest) ← setItem verbose (skip verbose rest)
      (range? first last).map (·, rest)
  | rest => (single? first).map (·, rest)

def setNames : List String :=
  [ "alnum", "alpha", "ascii", "blank", "cntrl", "digit", "graph", "lower", "print", "punct", "space",
    "upper", "word", "xdigit" ]

def namedSet : Reader PatternSet
  | ':' :: rest =>
    let (negated, rest) := match rest with
      | '^' :: rest => (true, rest)
      | rest => (false, rest)
    match rest.dropWhile (· != ':') with
    | ':' :: ']' :: behind =>
      if setNames.contains (String.ofList (rest.takeWhile (· != ':'))) then some (.named negated, behind)
      else none
    | _ => none
  | _ => none

def closeSet (left : Option PatternSet) (parts : List PatternSet) : PatternSet :=
  match left with
  | none => .ofParts parts.reverse
  | some left => .combined left (.ofParts parts.reverse)

def plain (c : Char) : PatternSet := .range ⟨c, false⟩ ⟨c, false⟩

def setParts (verbose : Bool) (nested : Reader PatternSet) :
    Nat → (start : Bool) → Option PatternSet → List PatternSet → Reader PatternSet
  | 0, _, _, _, _ => none
  | n + 1, start, left, parts, cs =>
    match skip verbose cs with
    | [] => none
    | ']' :: rest =>
      if start && parts.isEmpty then setParts verbose nested n false left [plain ']'] rest
      else some (closeSet left parts, rest)
    | '[' :: rest => do
      let (s, rest) ← (namedSet rest).or (nested rest)
      setParts verbose nested n false left (s :: parts) rest
    | '&' :: '&' :: rest => setParts verbose nested n false (some (closeSet left parts)) [] rest
    | '~' :: '~' :: rest => setParts verbose nested n false (some (closeSet left parts)) [] rest
    | '-' :: rest =>
      if start then setParts verbose nested n true left (plain '-' :: parts) rest
      else if rest.head? == some '-' then
        setParts verbose nested n false (some (closeSet left parts)) [] (rest.drop 1)
      else do
        let (s, rest) ← setRange verbose ('-' :: rest)
        setParts verbose nested n false left (s :: parts) rest
    | cs => do
      let (s, rest) ← setRange verbose cs
      setParts verbose nested n false left (s :: parts) rest

def bracketed (verbose : Bool) (count : Nat) : Nat → Reader PatternSet
  | 0, _ => none
  | depth + 1, cs =>
    let parts := setParts verbose (bracketed verbose count depth) count true none []
    match skip verbose cs with
    | '^' :: rest => (parts rest).map fun (s, rest) => (.bracketed true s, rest)
    | rest => (parts rest).map fun (s, rest) => (.bracketed false s, rest)

def optionLetters : Reader PatternOptions := fun cs =>
  let isLetter := fun c => c != ':' && c != ')'
  let letters := cs.takeWhile isLetter
  if letters.all "imsUuRx-".toList.contains && decide letters.Nodup && letters.getLast? != some '-' then
    some (⟨letters.takeWhile (· != '-'), (letters.dropWhile (· != '-')).drop 1⟩, cs.dropWhile isLetter)
  else none

def canStartName (c : Char) : Bool := c = '_' || isAlphabetic c

def canFollowInName (c : Char) : Bool :=
  c = '_' || c = '.' || c = '[' || c = ']' || isAlphanumeric c

def groupName : Reader String := fun cs =>
  let name := cs.takeWhile (· != '>')
  match name, cs.dropWhile (· != '>') with
  | first :: more, _ :: rest =>
    if canStartName first && more.all canFollowInName then some (String.ofList name, rest) else none
  | _, _ => none

inductive Opening where
  | options (o : PatternOptions)
  | group (name : Option String) (o : PatternOptions)

def opening (verbose : Bool) : Reader Opening := fun cs =>
  match skip verbose cs with
  | '?' :: 'P' :: '<' :: rest => (groupName rest).map fun (name, rest) => (.group (some name) {}, rest)
  | '?' :: '<' :: rest => (groupName rest).map fun (name, rest) => (.group (some name) {}, rest)
  | '?' :: rest =>
    match optionLetters rest with
    | some (o, ':' :: behind) => some (.group none o, behind)
    | some (o, ')' :: behind) => if o = {} then none else some (.options o, behind)
    | _ => none
  | rest => some (.group none {}, rest)

def isVerbose (verbose : Bool) (o : PatternOptions) : Bool := (o.setting? 'x').getD verbose

def isRepeatable : Pattern → Bool
  | .nothing => false
  | .options _ => false
  | _ => true

def dropLazyMark : List Char → List Char
  | '?' :: rest => rest
  | cs => cs

def atom (verbose : Bool) : Reader Pattern
  | [] => none
  | '\\' :: rest => escape verbose rest
  | '.' :: rest => some (.anything, rest)
  | '^' :: rest => some (.edge, rest)
  | '$' :: rest => some (.edge, rest)
  | '\x7b' :: _ => none
  | c :: rest => some (.character ⟨c, false⟩, rest)

def branches (inner : Bool → Reader Pattern) (count : Nat) :
    Nat → (verbose : Bool) → (done parts : List Pattern) → Reader Pattern
  | 0, _, _, _, _ => none
  | n + 1, verbose, done, parts, cs =>
    match skip verbose cs with
    | [] => some (.ofBranches (.ofParts parts.reverse :: done).reverse, [])
    | ')' :: rest => some (.ofBranches (.ofParts parts.reverse :: done).reverse, ')' :: rest)
    | '|' :: rest => branches inner count n verbose (.ofParts parts.reverse :: done) [] rest
    | '(' :: rest => do
      match ← opening verbose rest with
      | (.options o, rest) =>
        branches inner count n (isVerbose verbose o) done (.options o :: parts) rest
      | (.group name o, rest) =>
        match ← inner (isVerbose verbose o) rest with
        | (p, ')' :: rest) => branches inner count n verbose done (.group name o p :: parts) rest
        | _ => none
    | '[' :: rest => do
      let (s, rest) ← bracketed verbose count nestLimit rest
      branches inner count n verbose done (.set s :: parts) rest
    | c :: rest =>
      if ['?', '*', '+'].contains c then
        match parts with
        | p :: more =>
          if isRepeatable p then
            branches inner count n verbose done (.repeated p :: more) (dropLazyMark rest)
          else none
        | [] => none
      else do
        let (p, rest) ← atom verbose (c :: rest)
        branches inner count n verbose done (p :: parts) rest

def nested (count : Nat) : (depth : Nat) → (verbose : Bool) → Reader Pattern
  | 0, _, _ => none
  | depth + 1, verbose, cs => branches (nested count depth) count count verbose [] [] cs

def read? (cs : List Char) : Option Pattern :=
  match nested (cs.length + 1) (nestLimit + 1) false cs with
  | some (p, []) => if p.height ≤ nestLimit ∧ p.groupNames.Nodup then some p else none
  | _ => none

end StagedBuild.Pattern

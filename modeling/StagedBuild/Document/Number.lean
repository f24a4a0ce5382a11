import StagedBuild.Document.Characters

/-! Which spellings are taken for numbers, and how large they are: the value of an integer, and whether
a float rounds to infinity in double precision. -/
namespace StagedBuild.Document

def isGrouped (isDigit : Char → Bool) : List Char → Bool
  | [] => false
  | [c] => isDigit c
  | c :: '_' :: rest => isDigit c && isGrouped isDigit rest
  | c :: rest => isDigit c && isGrouped isDigit rest

def isSeparated (isDigit : Char → Bool) : List Char → Bool
  | [] => true
  | c :: '_' :: rest => isDigit c && rest.head?.any isDigit && isSeparated isDigit rest
  | _ :: rest => isSeparated isDigit rest

def isWhole (cs : List Char) : Bool :=
  isGrouped isDecimal cs && (cs == ['0'] || cs.head? != some '0')

def groupedValue (base : Nat) (cs : List Char) : Nat :=
  (cs.filter (· != '_')).foldl (fun n c => base * n + (hexDigit? c).getD 0) 0

def groupedIn (base : Nat) (isDigit : Char → Bool) (cs : List Char) : Option Int :=
  if isGrouped isDigit cs then some (groupedValue base cs) else none

def marked? (base : Nat) (isDigit : Char → Bool) (cs : List Char) : Option (Option Int) :=
  -- A mark with no digit behind it passes here and has no value.
  if cs.isEmpty || isGrouped isDigit cs then some (groupedIn base isDigit cs) else none

def isFloatMark (c : Char) : Bool := c == '.' || c == 'e' || c == 'E'

/-- A text with underscores is taken for an integer if each of them stands between digits of some base
and nothing in it is the mark of a float; it need not be one. -/
def isLoose (cs : List Char) : Bool :=
  cs.head?.any isHex && isSeparated isHex cs && !cs.any isFloatMark

def decimal? (cs : List Char) : Option (Option Int) :=
  if isWhole cs then some (groupedIn 10 isDecimal cs)
  else if (cs.dropWhile isDecimal).head? == some '_' && cs.head? != some '0' && isLoose cs then some none
  else none

def signed? : List Char → Option (Option Int)
  | '_' :: rest => if isLoose rest then some (groupedIn 10 isDecimal rest) else none
  | cs => decimal? cs

def integer? : List Char → Option (Option Int)
  | '0' :: 'x' :: rest => marked? 16 isHex rest
  | '0' :: 'o' :: rest => marked? 8 isOctal rest
  | '0' :: 'b' :: rest => marked? 2 isBinary rest
  | '-' :: rest => (signed? rest).map (·.map (- ·))
  | '+' :: rest => signed? rest
  | cs => decimal? cs

structure FloatParts where
  whole : List Char
  fraction : List Char
  exponentNegative : Bool
  exponent : List Char

def floatParts? (isStart : List Char → Bool) (cs : List Char) : Option FloatParts :=
  let isPart := fun c => isDecimal c || c == '_'
  let whole := cs.takeWhile isPart
  let (dotted, fraction, rest) := match cs.dropWhile isPart with
    | '.' :: behind => (true, behind.takeWhile isPart, behind.dropWhile isPart)
    | behind => (false, [], behind)
  let (marked, negative, exponent) := match rest with
    | 'e' :: '-' :: behind => (true, true, behind)
    | 'E' :: '-' :: behind => (true, true, behind)
    | 'e' :: behind => (true, false, if behind.head? == some '+' then behind.drop 1 else behind)
    | 'E' :: behind => (true, false, if behind.head? == some '+' then behind.drop 1 else behind)
    | behind => (false, false, behind)
  if isStart whole && (!dotted || isGrouped isDecimal fraction)
      && (if marked then isGrouped isDecimal exponent else exponent.isEmpty)
      && (dotted || marked)
  then some ⟨whole, fraction, negative, exponent⟩
  else none

def infinityBound : Nat := Nat.pow 2 1024 - Nat.pow 2 970

/-- The bound on a float as it is written. With `n` significant digits it is at least `10 ^ (n - 1)`
and less than `10 ^ n`, both times its power of ten, which settles all but one size. -/
def FloatParts.overflows (p : FloatParts) : Bool :=
  let digits := fun (cs : List Char) => cs.filter (· != '_')
  let mantissa := (digits p.whole ++ digits p.fraction).dropWhile (· == '0')
  let power : Int := (if p.exponentNegative then -1 else 1) * (decimalValue (digits p.exponent) : Int)
    - ((digits p.fraction).length : Int)
  let size : Int := (mantissa.length : Int) + power
  if mantissa.isEmpty || size ≤ 308 then false
  else if size ≥ 310 then true
  else if power ≥ 0 then decide (infinityBound ≤ decimalValue mantissa * Nat.pow 10 power.toNat)
  else decide (infinityBound * Nat.pow 10 (-power).toNat ≤ decimalValue mantissa)

def unsignedFloat? : List Char → Option Bool
  | ['i', 'n', 'f'] => some false
  | ['n', 'a', 'n'] => some false
  | cs => (floatParts? isWhole cs).map FloatParts.overflows

def signedFloat? : List Char → Option Bool
  | '_' :: rest => (floatParts? (isGrouped isDecimal) rest).map FloatParts.overflows
  | cs => unsignedFloat? cs

def float? : List Char → Option Bool
  | '+' :: rest => signedFloat? rest
  | '-' :: rest => signedFloat? rest
  | cs => unsignedFloat? cs

end StagedBuild.Document

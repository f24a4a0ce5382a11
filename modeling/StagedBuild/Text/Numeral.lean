import StagedBuild.Text.Decimal

/-! Decimal numbers with a point and an exponent, and the names of what is no finite number. -/
namespace StagedBuild

def dropSign : List Char → List Char
  | '+' :: rest => rest
  | '-' :: rest => rest
  | cs => cs

def isExponent : List Char → Bool
  | [] => true
  | c :: rest => (c = 'e' || c = 'E') && !(dropSign rest).isEmpty && (dropSign rest).all isDecimal

def isDecimalNumeral (cs : List Char) : Bool :=
  let whole := cs.takeWhile isDecimal
  match cs.dropWhile isDecimal with
  | '.' :: rest =>
    !(whole.isEmpty && (rest.takeWhile isDecimal).isEmpty) && isExponent (rest.dropWhile isDecimal)
  | rest => !whole.isEmpty && isExponent rest

def isNumeral (cs : List Char) : Bool :=
  let unsigned := (dropSign cs).map Char.toLower
  isDecimalNumeral unsigned
    || ["inf", "infinity", "nan"].any fun name => unsigned == name.toList

end StagedBuild

import StagedBuild.Text.Hexadecimal

/-! The character classes of a configuration document. -/
namespace StagedBuild.Document

abbrev Reader (α : Type) := List Char → Option (α × List Char)

def isBlank (c : Char) : Bool := c == ' ' || c == '\t'

def isPlain (c : Char) : Bool := c == '\t' || (0x20 ≤ c.toNat && c.toNat != 0x7f)

def isOctal (c : Char) : Bool := '0' ≤ c && c ≤ '7'

def isBinary (c : Char) : Bool := c == '0' || c == '1'

def isLetter (c : Char) : Bool := ('a' ≤ c && c ≤ 'z') || ('A' ≤ c && c ≤ 'Z')

def isKeyCharacter (c : Char) : Bool := isLetter c || isDecimal c || c == '_' || c == '-'

def isScalarEnd (c : Char) : Bool :=
  isBlank c || c == '\r' || c == '\n' || c == '#' || c == '=' || c == ',' || c == '[' || c == ']'
    || c == '\x7b' || c == '\x7d'

def isScalarCharacter (c : Char) : Bool := !isScalarEnd c

def skipBlanks (cs : List Char) : List Char := cs.dropWhile isBlank

/-- Drops blanks, line ends and comments; `comment` says whether the text starts inside a comment.
Fails on a carriage return without its line feed and on a control character in a comment. -/
def skipGap : (comment : Bool) → List Char → Option (List Char)
  | _, [] => some []
  | _, '\n' :: rest => skipGap false rest
  | _, '\r' :: '\n' :: rest => skipGap false rest
  | true, c :: rest => if isPlain c then skipGap true rest else none
  | false, ' ' :: rest => skipGap false rest
  | false, '\t' :: rest => skipGap false rest
  | false, '#' :: rest => skipGap true rest
  | false, '\r' :: _ => none
  | false, c :: rest => some (c :: rest)

def lineEnd (cs : List Char) : Option (List Char) :=
  match skipBlanks cs with
  | [] => some []
  | '\n' :: rest => some rest
  | '\r' :: '\n' :: rest => some rest
  | '#' :: rest => skipGap true rest
  | _ => none

end StagedBuild.Document

import StagedBuild.Document.Characters

/-! Writing strings. The plainest of the four forms that can hold a string is taken; escapes are the
last resort. -/
namespace StagedBuild.Document

def isControl (c : Char) : Bool :=
  (c.toNat < 0x20 && c != '\t' && c != '\n') || c.toNat == 0x7f

def hasTriple (quote : Char) : List Char → Bool
  | [] => false
  | c :: rest => [quote, quote, quote].isPrefixOf (c :: rest) || hasTriple quote rest

def upperHex (n : Nat) : Char := if n < 10 then Char.ofNat (n + 48) else Char.ofNat (n + 55)

def escape (c : Char) : List Char :=
  if c == '\x08' then ['\\', 'b']
  else if c == '\t' then ['\\', 't']
  else if c == '\n' then ['\\', 'n']
  else if c == '\x0c' then ['\\', 'f']
  else if c == '\r' then ['\\', 'r']
  else if c == '"' then ['\\', '"']
  else if c == '\\' then ['\\', '\\']
  else if isControl c then ['\\', 'u', '0', '0', upperHex (c.toNat / 16), upperHex (c.toNat % 16)]
  else [c]

/-- The inside of a basic string on several lines: line ends stand as they are, and of the quotes
only each third in a row is escaped. `run` counts the quotes right before. -/
def escapeLines (run : Nat) : List Char → List Char
  | [] => []
  | c :: rest =>
    if c == '"' then
      if run == 2 then '\\' :: '"' :: escapeLines 0 rest else '"' :: escapeLines (run + 1) rest
    else if c == '\n' then '\n' :: escapeLines 0 rest
    else escape c ++ escapeLines 0 rest

inductive Form where
  | basic
  | literal
  | basicLines
  | literalLines
  deriving DecidableEq, Repr

def formOf (content : List Char) : Form :=
  let clean := !content.any isControl
  let lines := content.contains '\n'
  if clean && !content.contains '\\' && !content.contains '"' && !lines then .basic
  else if clean && !content.contains '\'' && !lines then .literal
  else if clean && !content.contains '\\' && !hasTriple '"' content then .basicLines
  else if clean && !hasTriple '\'' content then .literalLines
  else if lines then .basicLines
  else .basic

def opening (content : List Char) : List Char := if content.contains '\n' then ['\n'] else []

def quoteAs (content : List Char) : Form → List Char
  | .basic => '"' :: content.flatMap escape ++ ['"']
  | .literal => '\'' :: content ++ ['\'']
  | .basicLines =>
    ['"', '"', '"'] ++ opening content ++ escapeLines 0 content ++ ['"', '"', '"']
  | .literalLines =>
    ['\'', '\'', '\''] ++ opening content ++ content ++ ['\'', '\'', '\'']

def quote (content : List Char) : List Char := quoteAs content (formOf content)

end StagedBuild.Document

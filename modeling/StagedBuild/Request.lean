import StagedBuild.Text.Pieces

/-! What a command line asks for. Its words are read from left to right: `-o` takes the next word as
the output, words that end like a source or an object file are inputs, and all others are passed
through. Of several outputs or inputs the last counts. -/
namespace StagedBuild

def isSource (word : String) : Bool := hasEnding ".c" word

def isObject (word : String) : Bool := hasEnding ".o" word

def isInput (word : String) : Bool := isSource word || isObject word

structure Request where
  output : Option String := none
  input : Option String := none
  passthrough : List String := []
  deriving DecidableEq, Repr

inductive Notice where
  | dropped (kept previous : String)
  | missingValue
  deriving DecidableEq, Repr

def Notice.message : Notice → String
  | .dropped kept previous => kept ++ ": multiple inputs, ignoring earlier input '" ++ previous ++ "'"
  | .missingValue => "-o: missing required value"

structure Reading where
  request : Request := {}
  notices : List Notice := []
  deriving DecidableEq, Repr

namespace Reading

def setOutput (r : Reading) (value : String) : Reading :=
  { r with request := { r.request with output := some value } }

def missValue (r : Reading) : Reading := { r with notices := r.notices ++ [.missingValue] }

def setInput (r : Reading) (word : String) : Reading :=
  { request := { r.request with input := some word }
    notices := match r.request.input with
      | some previous => r.notices ++ [.dropped word previous]
      | none => r.notices }

def passOn (r : Reading) (word : String) : Reading :=
  { r with request := { r.request with passthrough := r.request.passthrough ++ [word] } }

def addWord (r : Reading) (word : String) : Reading :=
  if isInput word then r.setInput word else r.passOn word

def addWords : Reading → List String → Reading
  | r, [] => r
  | r, word :: rest =>
    if word = "-o" then
      match rest with
      | [] => r.missValue
      | value :: rest => addWords (r.setOutput value) rest
    else addWords (r.addWord word) rest

end Reading

def readWords (words : List String) : Reading := Reading.addWords {} words

inductive Shape where
  | compileFromSource
  | linkObject
  | passThrough
  deriving DecidableEq, Repr

def Shape.label : Shape → String
  | .compileFromSource => "CompileFromSource"
  | .linkObject => "LinkObject"
  | .passThrough => "PassThrough"

namespace Request

def fromSource (r : Request) : Bool := r.input.any isSource

def toObject (r : Request) : Bool := r.output.any isObject

def object (r : Request) : String :=
  let output := r.output.getD ""
  if isObject output then output else output ++ ".o"

def shape (r : Request) : Shape :=
  if r.fromSource then .compileFromSource
  else if r.output.any (· != "") then .linkObject
  else .passThrough

end Request

end StagedBuild

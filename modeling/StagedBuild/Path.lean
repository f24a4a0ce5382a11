import StagedBuild.Text.Pieces

/-! Paths as texts. Nothing is looked up and `..` is never resolved. -/
namespace StagedBuild

structure Components where
  rooted : Bool
  dotted : Bool
  names : List String
  deriving DecidableEq, Repr

namespace Path

def isAbsolute (path : String) : Bool := path.toList.head? == some '/'

def components (path : String) : Components :=
  let parts := pieces '/' path
  { rooted := isAbsolute path
    dotted := parts.head? == some "."
    names := parts.filter fun part => part != "" && part != "." }

def same (a b : String) : Bool := components a == components b

def join (left right : String) : String :=
  match left.toList.getLast? with
  | none => right
  | some '/' => left ++ right
  | some _ => left ++ "/" ++ right

end Path

end StagedBuild

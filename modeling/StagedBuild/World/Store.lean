import StagedBuild.Fault
import StagedBuild.Path
import StagedBuild.World.Tool

/-! A tree of files. Paths are resolved in it name by name, from the working directory unless they
start at the root. -/
namespace StagedBuild

abbrev Location := List String

inductive Node where
  | directory
  | file (content : ByteArray) (executable : Bool)
  | tool (tool : Tool)

def hasNul (s : String) : Bool := s.toList.contains '\x00'

structure Store where
  here : Location
  entries : List (Location × Node)

namespace Store

def get? (s : Store) (l : Location) : Option Node := s.entries.lookup l

def setIn (l : Location) (n : Node) : List (Location × Node) → List (Location × Node)
  | [] => [(l, n)]
  | (k, old) :: rest => if k = l then (l, n) :: rest else (k, old) :: setIn l n rest

def set (s : Store) (l : Location) (n : Node) : Store := { s with entries := setIn l n s.entries }

def erase (s : Store) (l : Location) : Store :=
  { s with entries := s.entries.filter fun entry => entry.1 != l }

def walk (s : Store) : Location → List String → Except Fault Location
  | l, [] => .ok l
  | l, name :: rest =>
    match s.get? l with
    | none => .error .noEntry
    | some .directory =>
      if name = "" ∨ name = "." then s.walk l rest
      else if name = ".." then s.walk l.dropLast rest
      else if 255 < name.utf8ByteSize then .error .nameTooLong
      else s.walk (l ++ [name]) rest
    | some _ => .error .notDirectory

def base (s : Store) (path : String) : Location := if Path.isAbsolute path then [] else s.here

def locate (s : Store) (path : String) : Except Fault Location :=
  if hasNul path then .error .nulInName
  else if path = "" then .error .noEntry
  else if 4096 ≤ path.utf8ByteSize then .error .nameTooLong
  else s.walk (s.base path) (pieces '/' path)

def nodeAt (s : Store) (l : Location) : Except Fault (Location × Node) :=
  match s.get? l with
  | none => .error .noEntry
  | some node => .ok (l, node)

def find (s : Store) (path : String) : Except Fault (Location × Node) :=
  match s.locate path with
  | .error fault => .error fault
  | .ok l => s.nodeAt l

def writtenNode (content : ByteArray) : Option Node → Except Fault Node
  | some .directory => .error .isDirectory
  | some (.file _ executable) => .ok (.file content executable)
  | some (.tool _) => .ok (.file content true)
  | none => .ok (.file content false)

def write (s : Store) (path : String) (content : ByteArray) : Except Fault Store :=
  match s.locate path with
  | .error fault => .error fault
  | .ok l => (writtenNode content (s.get? l)).map (s.set l)

def overwrite (s : Store) (path : String) (content : ByteArray) : Store :=
  match s.write path content with
  | .ok s => s
  | .error _ => s

def canWrite (s : Store) (path : String) : Bool := (s.write path .empty).toBool

def remove (s : Store) (path : String) : Except Fault Store :=
  match s.find path with
  | .error fault => .error fault
  | .ok (_, .directory) => .error .isDirectory
  | .ok (l, _) => .ok (s.erase l)

end Store

end StagedBuild

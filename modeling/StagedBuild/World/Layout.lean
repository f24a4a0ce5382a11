import StagedBuild.World.Store

/-! Setting up a tree of files, and listing it. -/
namespace StagedBuild.Store

def empty : Store := ⟨["work"], [([], .directory), (["work"], .directory)]⟩

def place (s : Store) (path : String) : Location :=
  (Path.components path).names.foldl
    (fun l name => if name = ".." then l.dropLast else l ++ [name]) (s.base path)

def makeDirectories (s : Store) (above : Location) : List String → Store
  | [] => s
  | name :: rest =>
    let l := above ++ [name]
    (if (s.get? l).isNone then s.set l .directory else s).makeDirectories l rest

def makeDirectory (s : Store) (path : String) : Store := s.makeDirectories [] (s.place path)

def put (s : Store) (path : String) (node : Node) : Store :=
  let l := s.place path
  (s.makeDirectories [] l.dropLast).set l node

def putFile (s : Store) (path : String) (content : ByteArray) : Store :=
  s.put path (.file content false)

def putTool (s : Store) (path : String) (tool : Tool) : Store := s.put path (.tool tool)

def clear (s : Store) (path : String) : Store :=
  match s.remove path with
  | .ok s => s
  | .error _ => s

def relative? : Location → Location → Option Location
  | [], l => some l
  | _ :: _, [] => none
  | a :: above, b :: l => if a = b then relative? above l else none

def pathText (l : Location) : String := String.intercalate "/" l

def pathFromHere? (s : Store) (l : Location) : Option String :=
  match relative? s.here l with
  | none => none
  | some [] => none
  | some l => some (pathText l)

def listed? (s : Store) : Location × Node → Option (String × Option ByteArray)
  | (l, .directory) => (s.pathFromHere? l).map fun path => (path ++ "/", none)
  | (l, .file content false) => (s.pathFromHere? l).map fun path => (path, some content)
  | (_, .file _ true) => none
  | (_, .tool _) => none

def listing (s : Store) : List (String × Option ByteArray) := s.entries.filterMap s.listed?

end StagedBuild.Store

/-! How a text ends, and how it falls into pieces. -/
namespace StagedBuild

def hasEnding (ending s : String) : Bool := ending.toList.isSuffixOf s.toList

def splitOn (separator : Char) : List Char → List (List Char)
  | [] => [[]]
  | c :: rest =>
    if c = separator then [] :: splitOn separator rest
    else match splitOn separator rest with
      | [] => [[c]]
      | first :: more => (c :: first) :: more

def pieces (separator : Char) (s : String) : List String :=
  (splitOn separator s.toList).map String.ofList

end StagedBuild

/-! Patterns for a text: what they are made of and how deep they nest. -/
namespace StagedBuild

structure PatternCharacter where
  value : Char
  isByte : Bool := false
  deriving DecidableEq, Repr

structure PatternOptions where
  on : List Char := []
  off : List Char := []
  deriving DecidableEq, Repr

def PatternOptions.setting? (o : PatternOptions) (letter : Char) : Option Bool :=
  if o.on.contains letter then some true
  else if o.off.contains letter then some false
  else none

inductive PatternSet where
  | nothing
  | range (first last : PatternCharacter)
  | named (negated : Bool)
  | shorthand (negated : Bool)
  | bracketed (negated : Bool) (inside : PatternSet)
  | union (parts : List PatternSet)
  | combined (left right : PatternSet)
  deriving Repr

inductive Pattern where
  | nothing
  | character (c : PatternCharacter)
  | anything
  | edge
  | wordEdge
  | shorthand (negated : Bool)
  | set (s : PatternSet)
  | options (o : PatternOptions)
  | repeated (p : Pattern)
  | group (name : Option String) (o : PatternOptions) (p : Pattern)
  | sequence (parts : List Pattern)
  | choice (branches : List Pattern)
  deriving Repr

namespace PatternSet

def ofParts : List PatternSet → PatternSet
  | [] => .nothing
  | [s] => s
  | parts => .union parts

mutual
def height : PatternSet → Nat
  | .nothing => 0
  | .range _ _ => 0
  | .named _ => 0
  | .shorthand _ => 0
  | .bracketed _ inside => inside.height + 1
  | .union parts => heights parts + 1
  | .combined left right => max left.height right.height + 1

def heights : List PatternSet → Nat
  | [] => 0
  | s :: rest => max s.height (heights rest)
end

end PatternSet

namespace Pattern

def ofParts : List Pattern → Pattern
  | [] => .nothing
  | [p] => p
  | parts => .sequence parts

def ofBranches : List Pattern → Pattern
  | [] => .nothing
  | [p] => p
  | branches => .choice branches

mutual
def height : Pattern → Nat
  | .nothing => 0
  | .character _ => 0
  | .anything => 0
  | .edge => 0
  | .wordEdge => 0
  | .shorthand _ => 0
  | .set s => s.height
  | .options _ => 0
  | .repeated p => p.height + 1
  | .group _ _ p => p.height + 1
  | .sequence parts => heights parts + 1
  | .choice branches => heights branches + 1

def heights : List Pattern → Nat
  | [] => 0
  | p :: rest => max p.height (heights rest)
end

mutual
def groupNames : Pattern → List String
  | .nothing => []
  | .character _ => []
  | .anything => []
  | .edge => []
  | .wordEdge => []
  | .shorthand _ => []
  | .set _ => []
  | .options _ => []
  | .repeated p => p.groupNames
  | .group name _ p => name.toList ++ p.groupNames
  | .sequence parts => allGroupNames parts
  | .choice branches => allGroupNames branches

def allGroupNames : List Pattern → List String
  | [] => []
  | p :: rest => p.groupNames ++ allGroupNames rest
end

end Pattern

end StagedBuild

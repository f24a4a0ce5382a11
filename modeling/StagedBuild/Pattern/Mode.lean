import StagedBuild.Pattern.Reader

/-! Which patterns can be matched. By default a pattern is about characters, and nothing is known of them
but which they are: what asks for letters, digits or the other case of a character is refused. A
pattern may turn to bytes instead. Then it is refused if it could match a part of a character. -/
namespace StagedBuild

structure PatternMode where
  ignoresCase : Bool := false
  isUnicode : Bool := true
  deriving DecidableEq, Repr

namespace PatternMode

def under (m : PatternMode) (o : PatternOptions) : PatternMode :=
  ⟨(o.setting? 'i').getD m.ignoresCase, (o.setting? 'u').getD m.isUnicode⟩

def knows (m : PatternMode) (c : PatternCharacter) : Bool :=
  if m.isUnicode then !m.ignoresCase else !c.isByte || c.value.toNat < 0x80

def knowsInSet (m : PatternMode) (c : PatternCharacter) : Bool :=
  if m.isUnicode then !m.ignoresCase else c.value.toNat < 0x80

def knowsShorthand (m : PatternMode) (negated : Bool) : Bool := !m.isUnicode && !negated

end PatternMode

namespace PatternSet

mutual
def isKnown (m : PatternMode) : PatternSet → Bool
  | .nothing => true
  | .range first last => m.knowsInSet first && m.knowsInSet last
  | .named negated => if m.isUnicode then !m.ignoresCase else !negated
  | .shorthand negated => m.knowsShorthand negated
  | .bracketed negated inside => (m.isUnicode || !negated) && inside.isKnown m
  | .union parts => areKnown m parts
  | .combined left right => left.isKnown m && right.isKnown m

def areKnown (m : PatternMode) : List PatternSet → Bool
  | [] => true
  | s :: rest => s.isKnown m && areKnown m rest
end

end PatternSet

namespace Pattern

mutual
/-- The mode behind a pattern that can be matched. It lasts to the end of a group, through all of its
branches. -/
def modeBehind? (m : PatternMode) : Pattern → Option PatternMode
  | .nothing => some m
  | .character c => if m.knows c then some m else none
  | .anything => if m.isUnicode then some m else none
  | .edge => some m
  | .wordEdge => if m.isUnicode then none else some m
  | .shorthand negated => if m.knowsShorthand negated then some m else none
  | .set s => if s.isKnown m then some m else none
  | .options o => some (m.under o)
  | .repeated p => p.modeBehind? m
  | .group _ o p => (p.modeBehind? (m.under o)).map fun _ => m
  | .sequence parts => modeBehindAll? m parts
  | .choice branches => modeBehindAll? m branches

def modeBehindAll? (m : PatternMode) : List Pattern → Option PatternMode
  | [] => some m
  | p :: rest => (p.modeBehind? m).bind fun m => modeBehindAll? m rest
end

def canMatch (p : Pattern) : Bool := (p.modeBehind? {}).isSome

def isPattern (cs : List Char) : Bool := (read? cs).any canMatch

end Pattern

end StagedBuild

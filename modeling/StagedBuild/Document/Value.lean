/-! What a configuration document holds. No setting is a number or a moment. A text that is taken for
an integer need not be one. Of a float only its size matters, and a moment keeps its spelling. -/
namespace StagedBuild.Document

inductive Value where
  | text (content : String)
  | integer (n : Option Int)
  | float (overflows : Bool)
  | boolean (flag : Bool)
  | moment (spelling : String)
  | array (elements : List Value)
  | table (entries : List (String × Value))
  deriving Repr, BEq, Inhabited

abbrev Entries := List (String × Value)

def isHeldInteger (n : Int) : Bool := -(Nat.pow 2 127 : Nat) ≤ n && n < (Nat.pow 2 128 : Nat)

mutual
def Value.isHeld : Value → Bool
  | .integer n => n.any isHeldInteger
  | .float overflows => !overflows
  | .array elements => areHeld elements
  | .table entries => entriesHeld entries
  | .text _ => true
  | .boolean _ => true
  | .moment _ => true

def areHeld : List Value → Bool
  | [] => true
  | v :: rest => v.isHeld && areHeld rest

def entriesHeld : List (String × Value) → Bool
  | [] => true
  | (_, v) :: rest => v.isHeld && entriesHeld rest
end

end StagedBuild.Document

import StagedBuild.Document.Reader
import StagedBuild.Proofs.WrittenDocument

/-! The limit on nesting. What can be read within one limit reads as the same document within every higher
one, so that a text has at most one reading, and the limit decides only whether it is had. It counts the
parts of a key and the arrays inside each other. -/
namespace StagedBuild.Document

def Stays {α : Type} (narrow wide : Option α) : Prop := ∀ a, narrow = some a → wide = some a

theorem Stays.refl {α : Type} (x : Option α) : Stays x x := fun _ ok => ok

theorem Stays.bind {α β : Type} {x y : Option α} {f g : α → Option β} (first : Stays x y)
    (next : ∀ a, Stays (f a) (g a)) : Stays (x >>= f) (y >>= g) := by
  intro b ok
  obtain ⟨a, found, ok⟩ := Option.bind_eq_some_iff.mp ok
  exact Option.bind_eq_some_iff.mpr ⟨a, first a found, next a b ok⟩

theorem Stays.map {α β : Type} {x y : Option α} (first : Stays x y) (f : α → β) :
    Stays (x.map f) (y.map f) := by
  intro b ok
  obtain ⟨a, found, same⟩ := Option.map_eq_some_iff.mp ok
  exact Option.map_eq_some_iff.mpr ⟨a, first a found, same⟩

theorem keyStays {n m : Nat} (wider : n ≤ m) (cs : List Char) : Stays (key n cs) (key m cs) := by
  induction n generalizing m cs with
  | zero => intro path ok; contradiction
  | succ n ih =>
    obtain ⟨m, rfl⟩ := Nat.exists_eq_add_one_of_ne_zero (by omega : m ≠ 0)
    simp only [key]
    refine .bind (.refl _) fun part => ?_
    split
    · exact .bind (ih (by omega) _) fun _ => .refl _
    · exact .refl _

section
variable {item other : Reader Value} (items : ∀ cs, Stays (item cs) (other cs))
include items

theorem elementsStay (n : Nat) (cs : List Char) : Stays (elements item n cs) (elements other n cs) := by
  induction n generalizing cs with
  | zero => exact .refl _
  | succ n ih =>
    simp only [elements]
    refine .bind (.refl _) fun behind => ?_
    split
    · exact .refl _
    · refine .bind (items _) fun found => .bind (.refl _) fun behind => ?_
      split
      · exact .bind (ih _) fun _ => .refl _
      · exact .refl _
      · exact .refl _

theorem pairsStay {limit higher : Nat} (wider : limit ≤ higher) (n : Nat) (cs : List Char) :
    Stays (pairs limit item n cs) (pairs higher other n cs) := by
  induction n generalizing cs with
  | zero => exact .refl _
  | succ n ih =>
    simp only [pairs]
    refine .bind (.refl _) fun behind => ?_
    split
    · exact .refl _
    · refine .bind (keyStays wider _) fun path => .bind (.refl _) fun behind => ?_
      split
      · refine .bind (.refl _) fun start => .bind (items _) fun found => .bind (.refl _) fun behind => ?_
        split
        · exact .bind (ih _) fun _ => .refl _
        · exact .refl _
        · exact .refl _
      · exact .refl _

theorem nestedStays {limit higher : Nat} (wider : limit ≤ higher) (count : Nat) (cs : List Char) :
    Stays (nestedValue limit count item cs) (nestedValue higher count other cs) := by
  unfold nestedValue
  split
  · exact .map (elementsStay items count _) _
  · exact .bind (pairsStay items wider count _) fun _ => .refl _
  · exact .refl _

end

theorem scalarBegins {c : Char} (strange : isScalarCharacter c = false) (rest : List Char) :
    scalar (c :: rest) = none := by
  have nothing : date? [] = none := by decide
  have unmeasured : measure? [] = none := by decide
  have front : spelling (c :: rest) = ([], c :: rest) := by
    simp only [spelling, List.takeWhile_cons, List.dropWhile_cons, strange, Bool.false_eq_true, if_false,
      nothing]
  simp [scalar, front, unmeasured]

theorem simpleStays (limit count : Nat) (item : Reader Value) (cs : List Char) :
    Stays (simpleValue cs) (nestedValue limit count item cs) := by
  -- A value that holds no other begins with neither a bracket nor a brace.
  unfold nestedValue
  split
  · rename_i rest
    have none : simpleValue ('[' :: rest) = none := scalarBegins (c := '[') (by decide) rest
    simp [Stays, none]
  · rename_i rest
    have none : simpleValue ('\x7b' :: rest) = none := scalarBegins (c := '\x7b') (by decide) rest
    simp [Stays, none]
  · exact .refl _

theorem valueStays {limit higher : Nat} (wider : limit ≤ higher) (count : Nat) {depth deeper : Nat}
    (below : depth ≤ deeper) (cs : List Char) :
    Stays (value limit count depth cs) (value higher count deeper cs) := by
  induction depth generalizing deeper cs with
  | zero =>
    cases deeper with
    | zero => exact .refl _
    | succ deeper => exact simpleStays higher count _ cs
  | succ depth ih =>
    obtain ⟨deeper, rfl⟩ := Nat.exists_eq_add_one_of_ne_zero (by omega : deeper ≠ 0)
    exact nestedStays (fun cs => ih (by omega) cs) wider count cs

theorem statementStays {limit higher : Nat} (wider : limit ≤ higher) (count : Nat) (cs : List Char) :
    Stays (statement limit count cs) (statement higher count cs) := by
  unfold statement
  split
  · exact .bind (keyStays wider _) fun _ => .refl _
  · exact .bind (keyStays wider _) fun _ => .refl _
  · refine .bind (keyStays wider _) fun path => ?_
    split
    · exact .bind (valueStays wider count wider _) fun _ => .refl _
    · exact .refl _

theorem statementsStay {limit higher : Nat} (wider : limit ≤ higher) (count n : Nat) (cs : List Char) :
    Stays (statements limit count n cs) (statements higher count n cs) := by
  induction n generalizing cs with
  | zero => exact .refl _
  | succ n ih =>
    simp only [statements]
    refine .bind (.refl _) fun behind => ?_
    split
    · exact .refl _
    · exact .bind (statementStays wider count _) fun _ => .bind (ih _) fun _ => .refl _

theorem readingStays {limit higher : Nat} (wider : limit ≤ higher) (text : String) :
    Stays (readWithin? limit text) (readWithin? higher text) :=
  .bind (statementsStay wider _ _ _) fun _ => .refl _

/- The text is the document if nesting is not held against it. -/
def Holds (text : String) (d : Entries) : Prop := ∃ limit, readWithin? limit text = some d

/- Values nest, and keys and headers have parts, up to the limit at most. -/
def NestsWithin (limit : Nat) (text : String) : Prop := (readWithin? limit text).isSome = true

theorem holdsOne {text : String} {d e : Entries} (first : Holds text d) (second : Holds text e) : d = e := by
  obtain ⟨limit, read⟩ := first
  obtain ⟨other, also⟩ := second
  have left := readingStays (Nat.le_max_left limit other) text d read
  have right := readingStays (Nat.le_max_right limit other) text e also
  exact Option.some.inj (left.symm.trans right)

theorem nestsWithinIff {text : String} {d : Entries} (holds : Holds text d) (limit : Nat) :
    NestsWithin limit text ↔ readWithin? limit text = some d := by
  constructor
  · intro nests
    obtain ⟨e, read⟩ := Option.isSome_iff_exists.mp nests
    rw [read, holdsOne holds ⟨limit, read⟩]
  · intro read
    rw [NestsWithin, read]
    rfl

def arrays : Nat → List Char
  | 0 => ['[', ']']
  | n + 1 => '[' :: (arrays n ++ [']'])

def nested : Nat → Value
  | 0 => .array []
  | n + 1 => .array [nested n]

def dotted (name : List Char) : Nat → List Char
  | 0 => name
  | k + 1 => name ++ '.' :: dotted name k

theorem arraysBegin (n : Nat) (rest : List Char) : ∃ more, arrays n ++ rest = '[' :: more := by
  cases n <;> exact ⟨_, rfl⟩

theorem arraysRead (limit count depth n : Nat) (rest : List Char) :
    value limit (count + 1) depth (arrays n ++ rest) =
      if n < depth then some (nested n, rest) else none := by
  induction depth generalizing n rest with
  | zero =>
    obtain ⟨more, begins⟩ := arraysBegin n rest
    rw [begins]
    exact scalarBegins (c := '[') (by decide) more
  | succ depth ih =>
    have closes := skipGapSolid (c := ']') (by decide) rest
    cases n with
    | zero => simp [arrays, nested, value, nestedValue, elements, closes]
    | succ n =>
      have inner := ih n (']' :: rest)
      have text : arrays (n + 1) ++ rest = '[' :: (arrays n ++ ']' :: rest) := by simp [arrays]
      obtain ⟨more, begins⟩ := arraysBegin n (']' :: rest)
      have opens := skipGapSolid (c := '[') (by decide) more
      rw [begins] at inner text
      by_cases below : n < depth <;>
        simp [text, nested, value, nestedValue, elements, opens, closes, inner, below]

theorem dottedBegins {name : String} (bare : IsBare name) (k : Nat) (rest : List Char) :
    ∃ c more, dotted name.toList k ++ rest = c :: more ∧ isKeyCharacter c = true := by
  obtain ⟨c, more, letters, _⟩ := bareBegins bare
  have held : isKeyCharacter c = true := bare.2 c (by simp [letters])
  cases k with
  | zero => exact ⟨c, more ++ rest, by simp [dotted, letters], held⟩
  | succ k => exact ⟨c, _, by rw [dotted, letters]; rfl, held⟩

theorem dottedRead {name : String} (bare : IsBare name) (limit k : Nat) (rest : List Char) :
    key limit (dotted name.toList k ++ '=' :: rest) =
      if k < limit then some (⟨List.replicate k name, name⟩, '=' :: rest) else none := by
  induction limit generalizing k with
  | zero => rfl
  | succ limit ih =>
    cases k with
    | zero => exact keyRead bare (by decide) rfl (by decide)
    | succ k =>
      obtain ⟨c, more, begins, held⟩ := dottedBegins bare k ('=' :: rest)
      have part : keyPart (dotted name.toList (k + 1) ++ '=' :: rest) =
          some (name, '.' :: (dotted name.toList k ++ '=' :: rest)) := by
        rw [dotted, List.append_assoc]
        exact keyPartRead bare _ (by decide)
      have blanks : skipBlanks (dotted name.toList k ++ '=' :: rest) =
          dotted name.toList k ++ '=' :: rest := by
        rw [begins]
        exact skipBlanksSolid (keySolid held).1 more
      have point : skipBlanks ('.' :: (dotted name.toList k ++ '=' :: rest)) =
          '.' :: (dotted name.toList k ++ '=' :: rest) := rfl
      simp only [key, part, Option.bind_eq_bind, Option.bind_some, point, blanks, ih]
      by_cases inside : k < limit <;> simp [inside, List.replicate_succ]

theorem assignFresh (last : String) (v : Value) (parents : List String) :
    ∃ drafts, assignTo true last v parents [] = some drafts := by
  induction parents with
  | nil => exact ⟨_, rfl⟩
  | cons name parents ih =>
    obtain ⟨inner, made⟩ := ih
    refine ⟨[(name, .table .dotted inner)], ?_⟩
    simp [assignTo, made]

theorem nestedStatement {name : String} (bare : IsBare name) (limit count k n : Nat) :
    statement limit (count + 1) (dotted name.toList k ++ '=' :: arrays n) =
      if k < limit ∧ n < limit then some (.assign ⟨List.replicate k name, name⟩ (nested n), [])
      else none := by
  obtain ⟨c, more, begins, held⟩ := dottedBegins bare k ('=' :: arrays n)
  have bracket : c ≠ '[' := (keySolid held).2.2.2
  have path := dottedRead bare limit k (arrays n)
  have read := arraysRead limit count limit n []
  obtain ⟨behind, first⟩ := arraysBegin n []
  rw [List.append_nil] at read first
  have blanks : skipBlanks (arrays n) = arrays n := by
    rw [first]
    exact skipBlanksSolid (by decide) behind
  rw [begins] at path ⊢
  have ends : lineEnd [] = some [] := rfl
  by_cases parts : k < limit
  · by_cases deep : n < limit <;>
      simp [statement, bracket, path, parts, deep, blanks, read, ends]
  · simp [statement, bracket, path, parts]

theorem nestedRead {name : String} (bare : IsBare name) (limit k n : Nat) :
    readWithin? limit (String.ofList (dotted name.toList k ++ '=' :: arrays n)) =
      if k < limit ∧ n < limit then
        ofStatements? [.assign ⟨List.replicate k name, name⟩ (nested n)]
      else none := by
  obtain ⟨c, more, begins, held⟩ := dottedBegins bare k ('=' :: arrays n)
  have read := nestedStatement bare limit (more.length + 1) k n
  have gap := skipGapSolid (keySolid held).1 more
  have unmarked : dropMark (c :: more) = c :: more := by
    unfold dropMark
    split
    · rename_i rest form
      cases form
      exact absurd held (by decide)
    · rfl
  rw [begins] at read ⊢
  simp only [readWithin?, String.toList_ofList, unmarked, List.length_cons, statements, gap, read,
    Option.bind_eq_bind, Option.bind_some]
  split <;> simp [skipGap]

theorem nestingExact {name : String} (bare : IsBare name) (limit k n : Nat) :
    NestsWithin limit (String.ofList (dotted name.toList k ++ '=' :: arrays n)) ↔
      k < limit ∧ n < limit := by
  obtain ⟨drafts, made⟩ := assignFresh name (nested n) (List.replicate k name)
  have held : ofStatements? [.assign ⟨List.replicate k name, name⟩ (nested n)] =
      some (finishAll drafts) := by
    simp [ofStatements?, Progress.add, within, made]
  rw [NestsWithin, nestedRead bare, held]
  by_cases inside : k < limit ∧ n < limit <;> simp [inside]

end StagedBuild.Document

import StagedBuild.Document.Reader
import StagedBuild.Proofs.StringForms
import StagedBuild.Settings.Encode

/-! A document of sections, written line by line, is read as a table of those sections. Values are
followed by a line end, a comma or a bracket, and no line is longer than what the reader allows for. -/
namespace StagedBuild.Document

def Ends (rest : List Char) : Prop := ∃ c tail, rest = c :: tail ∧ (c = '\n' ∨ c = ',' ∨ c = ']')

theorem Ends.unquoted {rest : List Char} (ends : Ends rest) : Unquoted rest := by
  obtain ⟨c, tail, rfl, rfl | rfl | rfl⟩ := ends <;> exact ⟨by simp, by simp⟩

def Solid (c : Char) : Prop := isBlank c = false ∧ c ≠ '\n' ∧ c ≠ '\r' ∧ c ≠ '#'

instance (c : Char) : Decidable (Solid c) :=
  inferInstanceAs (Decidable (isBlank c = false ∧ c ≠ '\n' ∧ c ≠ '\r' ∧ c ≠ '#'))

theorem skipGapSolid {c : Char} (solid : Solid c) (rest : List Char) :
    skipGap false (c :: rest) = some (c :: rest) := by
  obtain ⟨blank, line, back, comment⟩ := solid
  simp only [isBlank, Bool.or_eq_false_iff, beq_eq_false_iff_ne] at blank
  simp [skipGap, blank, back]

theorem skipBlanksSolid {c : Char} (solid : Solid c) (rest : List Char) :
    skipBlanks (c :: rest) = c :: rest := by
  simp [skipBlanks, solid.1]

structure Written (text : List Char) (v : Value) : Prop where
  begins : ∃ c more, text = c :: more ∧ Solid c
  read : ∀ count rest, text.length < count → Ends rest →
    value depthLimit count depthLimit (text ++ rest) = some (v, rest)

theorem quoteBegins (content : List Char) :
    ∃ c more, quote content = c :: more ∧ (c = '"' ∨ c = '\'') := by
  unfold quote
  cases formOf content with
  | basic => exact ⟨_, _, rfl, .inl rfl⟩
  | literal => exact ⟨_, _, rfl, .inr rfl⟩
  | basicLines => exact ⟨_, _, rfl, .inl rfl⟩
  | literalLines => exact ⟨_, _, rfl, .inr rfl⟩

theorem quoteSolid {c : Char} (quote : c = '"' ∨ c = '\'') : Solid c := by
  rcases quote with rfl | rfl <;> decide

theorem textRead (s : String) {rest : List Char} (ends : Ends rest) (limit count depth : Nat) :
    value limit count depth (writeText s ++ rest) = some (.text s, rest) := by
  obtain ⟨c, more, form, mark⟩ := quoteBegins s.toList
  have read := quoteRead s.toList ends.unquoted
  have simple : simpleValue (writeText s ++ rest) = some (.text s, rest) := by
    rw [form] at read
    rw [writeText, form]
    rcases mark with rfl | rfl
    · simp only [List.cons_append] at read ⊢
      simp [simpleValue, read]
    · simp only [List.cons_append] at read ⊢
      simp [simpleValue, read]
  have nested (item : Reader Value) :
      nestedValue limit count item (writeText s ++ rest) = simpleValue (writeText s ++ rest) := by
    rw [writeText, form]
    rcases mark with rfl | rfl <;> rfl
  cases depth with
  | zero => exact simple
  | succ depth => exact (nested _).trans simple

theorem textWritten (s : String) : Written (writeText s) (.text s) where
  begins := by
    obtain ⟨c, more, form, mark⟩ := quoteBegins s.toList
    exact ⟨c, more, form, quoteSolid mark⟩
  read count rest _ ends := textRead s ends depthLimit count depthLimit

theorem flagRead (b : Bool) {rest : List Char} (ends : Ends rest) :
    scalar (writeFlag b ++ rest) = some (.boolean b, rest) := by
  obtain ⟨c, tail, rfl, last⟩ := ends
  have stop : isScalarCharacter c = false := by rcases last with rfl | rfl | rfl <;> decide
  have all : (writeFlag b).all isScalarCharacter = true := by cases b <;> decide
  have held : ∀ d ∈ writeFlag b, isScalarCharacter d = true := List.all_eq_true.mp all
  have front : (writeFlag b ++ c :: tail).takeWhile isScalarCharacter = writeFlag b := by
    simp [List.takeWhile_append_of_pos held, stop]
  have behind : (writeFlag b ++ c :: tail).dropWhile isScalarCharacter = c :: tail := by
    simp [List.dropWhile_append_of_pos held, stop]
  have noDate : date? (writeFlag b) = none := by cases b <;> decide
  simp only [scalar, spelling, front, behind, noDate]
  cases b <;> rfl

theorem flagWritten (b : Bool) : Written (writeFlag b) (.boolean b) where
  begins := by
    cases b with
    | true => exact ⟨'t', _, rfl, by decide⟩
    | false => exact ⟨'f', _, rfl, by decide⟩
  read count rest _ ends := by
    have simple : value depthLimit count depthLimit (writeFlag b ++ rest) = scalar (writeFlag b ++ rest) := by
      cases b <;> rfl
    rw [simple, flagRead b ends]

theorem elementsBlank (item : Reader Value) (n : Nat) (cs : List Char) :
    elements item n (' ' :: cs) = elements item n cs := by
  cases n <;> simp [elements, skipGap]

theorem elementRead (s : String) (limit count depth n : Nat) {d : Char} (behind : d = ',' ∨ d = ']')
    (rest : List Char) :
    elements (value limit count depth) (n + 1) (writeText s ++ d :: rest) =
      if d = ',' then
        (elements (value limit count depth) n rest).map fun (vs, rest) => (.text s :: vs, rest)
      else some ([.text s], rest) := by
  obtain ⟨c, more, form, mark⟩ := quoteBegins s.toList
  have read := textRead s ⟨d, rest, rfl, .inr behind⟩ limit count depth
  have other : c ≠ ']' := by rcases mark with rfl | rfl <;> decide
  have solid : Solid d := by rcases behind with rfl | rfl <;> decide
  simp only [writeText, form, List.cons_append] at read ⊢
  rw [elements]
  rcases behind with rfl | rfl
  · simp [skipGapSolid (quoteSolid mark), other, read, skipGapSolid solid]
    cases elements (value limit count depth) n rest <;> simp
  · simp [skipGapSolid (quoteSolid mark), other, read, skipGapSolid solid]

theorem elementsRead (ss : List String) (limit count depth n : Nat) (enough : ss.length < n)
    (rest : List Char) :
    elements (value limit count depth) n (writeElements ss ++ ']' :: rest) = some (ss.map .text, rest) := by
  induction ss generalizing n with
  | nil =>
    obtain ⟨n, rfl⟩ := Nat.exists_eq_add_one_of_ne_zero (by omega : n ≠ 0)
    have bracket : Solid ']' := by decide
    simp [writeElements, elements, skipGapSolid bracket]
  | cons s ss ih =>
    obtain ⟨n, rfl⟩ := Nat.exists_eq_add_one_of_ne_zero (by omega : n ≠ 0)
    cases ss with
    | nil => exact elementRead s limit count depth n (.inr rfl) rest
    | cons next ss =>
      have later := ih n (by simpa using enough)
      have text : writeElements (s :: next :: ss) ++ ']' :: rest =
          writeText s ++ ',' :: ' ' :: (writeElements (next :: ss) ++ ']' :: rest) := by
        simp [writeElements]
      rw [text, elementRead s limit count depth n (.inl rfl), if_pos rfl, elementsBlank, later]
      rfl

theorem elementsLength (ss : List String) : ss.length ≤ (writeElements ss).length := by
  induction ss with
  | nil => simp
  | cons s ss ih =>
    obtain ⟨c, more, form, _⟩ := quoteBegins s.toList
    cases ss with
    | nil => simp [writeElements, writeText, form]
    | cons next ss =>
      simp only [writeElements, writeText, form, List.length_append, List.length_cons] at ih ⊢
      omega

theorem textsWritten (ss : List String) : Written (writeTexts ss) (.array (ss.map .text)) where
  begins := ⟨'[', _, rfl, by decide⟩
  read count rest enough _ := by
    have size : ss.length < count := by
      have short := elementsLength ss
      simp only [writeTexts, List.length_append, List.length_cons] at enough
      omega
    have text : writeTexts ss ++ rest = '[' :: (writeElements ss ++ ']' :: rest) := by
      simp [writeTexts]
    rw [text, depthLimit, value, nestedValue, elementsRead ss _ count _ count size]
    rfl

def IsBare (name : String) : Prop := name.toList ≠ [] ∧ ∀ c ∈ name.toList, isKeyCharacter c = true

def isBareName (name : String) : Bool := !name.toList.isEmpty && name.toList.all isKeyCharacter

theorem bareChecked {name : String} (checked : isBareName name = true) : IsBare name := by
  simpa [isBareName, IsBare] using checked

theorem keySolid {c : Char} (held : isKeyCharacter c = true) :
    Solid c ∧ c ≠ '"' ∧ c ≠ '\'' ∧ c ≠ '[' := by
  have other (d : Char) (bad : isKeyCharacter d = false) : c ≠ d := by
    rintro rfl
    simp [bad] at held
  refine ⟨⟨?_, other _ (by decide), other _ (by decide), other _ (by decide)⟩, other _ (by decide),
    other _ (by decide), other _ (by decide)⟩
  simp [isBlank, other ' ' (by decide), other '\t' (by decide)]

theorem bareBegins {name : String} (bare : IsBare name) :
    ∃ c more, name.toList = c :: more ∧ Solid c ∧ c ≠ '"' ∧ c ≠ '\'' ∧ c ≠ '[' := by
  cases letters : name.toList with
  | nil => exact absurd letters bare.1
  | cons c more => exact ⟨c, more, rfl, keySolid (bare.2 c (by simp [letters]))⟩

theorem keyPartRead {name : String} (bare : IsBare name) {c : Char} (rest : List Char)
    (stop : isKeyCharacter c = false) : keyPart (name.toList ++ c :: rest) = some (name, c :: rest) := by
  obtain ⟨first, more, letters, _, double, single, _⟩ := bareBegins bare
  have front : (name.toList ++ c :: rest).takeWhile isKeyCharacter = name.toList := by
    simp [List.takeWhile_append_of_pos bare.2, stop]
  have after : (name.toList ++ c :: rest).dropWhile isKeyCharacter = c :: rest := by
    simp [List.dropWhile_append_of_pos bare.2, stop]
  rw [keyPart.eq_def]
  split
  · simp_all
  · simp_all
  · simp [front, after, bare.1]

theorem keyRead {name : String} (bare : IsBare name) {n : Nat} {c d : Char} {rest behind : List Char}
    (stop : isKeyCharacter c = false) (blanks : skipBlanks (c :: rest) = d :: behind) (dot : d ≠ '.') :
    key (n + 1) (name.toList ++ c :: rest) = some (⟨[], name⟩, d :: behind) := by
  simp [key, keyPartRead bare rest stop, blanks, dot]

theorem lineEndRead (rest : List Char) : lineEnd ('\n' :: rest) = some rest := rfl

theorem headerRead {name : String} (bare : IsBare name) (count : Nat) (rest : List Char) :
    statement depthLimit count (writeHeader name ++ rest) = some (.header ⟨[], name⟩, rest) := by
  obtain ⟨first, more, letters, solid, _, _, bracket⟩ := bareBegins bare
  have text : writeHeader name ++ rest = '[' :: (name.toList ++ ']' :: '\n' :: rest) := by
    simp [writeHeader]
  have blanks : skipBlanks (name.toList ++ ']' :: '\n' :: rest) = name.toList ++ ']' :: '\n' :: rest := by
    rw [letters, List.cons_append, skipBlanksSolid solid]
  have read : key depthLimit (name.toList ++ ']' :: '\n' :: rest) = some (⟨[], name⟩, ']' :: '\n' :: rest) :=
    keyRead bare (by decide) rfl (by decide)
  have single : ∀ behind, name.toList ++ ']' :: '\n' :: rest ≠ '[' :: behind := by
    intro behind same
    rw [letters, List.cons_append] at same
    exact bracket (List.cons.inj same).1
  rw [text]
  simp [statement, blanks, read, lineEndRead]

theorem fieldRead {name : String} (bare : IsBare name) {text : List Char} {v : Value}
    (written : Written text v) {count : Nat} (enough : text.length < count) (rest : List Char) :
    statement depthLimit count (writeField name text ++ rest) = some (.assign ⟨[], name⟩ v, rest) := by
  obtain ⟨first, more, letters, _, _, _, bracket⟩ := bareBegins bare
  obtain ⟨c, others, form, solid⟩ := written.begins
  have line : writeField name text ++ rest =
      name.toList ++ ' ' :: '=' :: ' ' :: (text ++ '\n' :: rest) := by
    simp [writeField]
  have blanks : skipBlanks (' ' :: (text ++ '\n' :: rest)) = text ++ '\n' :: rest := by
    rw [form, List.cons_append]
    exact skipBlanksSolid solid _
  have read : key depthLimit (name.toList ++ ' ' :: '=' :: ' ' :: (text ++ '\n' :: rest)) =
      some (⟨[], name⟩, '=' :: ' ' :: (text ++ '\n' :: rest)) :=
    keyRead bare (by decide) rfl (by decide)
  have value := written.read count ('\n' :: rest) enough ⟨'\n', rest, rfl, .inl rfl⟩
  rw [line]
  rw [letters, List.cons_append] at read ⊢
  simp [statement, bracket, read, blanks, value, lineEndRead]

structure Line where
  text : List Char
  statement : Statement

structure Line.Reads (l : Line) : Prop where
  nonempty : l.text ≠ []
  read : ∀ count rest, l.text.length < count → ∃ c more,
    skipGap false (l.text ++ rest) = some (c :: more) ∧
    Document.statement depthLimit count (c :: more) = some (l.statement, rest)

theorem headerReads {name : String} (bare : IsBare name) :
    Line.Reads ⟨writeHeader name, .header ⟨[], name⟩⟩ where
  nonempty := by simp [writeHeader]
  read count rest _ :=
    ⟨_, _, skipGapSolid (c := '[') (by decide) _, headerRead bare count rest⟩

theorem Line.Reads.below {l : Line} (reads : l.Reads) : Line.Reads ⟨'\n' :: l.text, l.statement⟩ where
  nonempty := by simp
  read count rest enough := reads.read count rest (by simp at enough; omega)

theorem fieldReads {name : String} (bare : IsBare name) {text : List Char} {v : Value}
    (written : Written text v) : Line.Reads ⟨writeField name text, .assign ⟨[], name⟩ v⟩ where
  nonempty := by simp [writeField]
  read count rest enough := by
    obtain ⟨first, more, letters, solid, _⟩ := bareBegins bare
    have short : text.length < count := by
      simp only [writeField, List.length_append] at enough
      omega
    have read := fieldRead bare written short rest
    have line : writeField name text ++ rest =
        first :: (more ++ [' ', '=', ' '] ++ text ++ ['\n'] ++ rest) := by
      simp [writeField, letters]
    rw [line] at read ⊢
    exact ⟨first, _, skipGapSolid solid _, read⟩

theorem linesRead {lines : List Line} (reads : ∀ l ∈ lines, l.Reads) {count n : Nat}
    (short : ∀ l ∈ lines, l.text.length < count) (enough : lines.length < n) :
    statements depthLimit count n (lines.flatMap Line.text) = some (lines.map Line.statement) := by
  induction lines generalizing n with
  | nil =>
    obtain ⟨n, rfl⟩ := Nat.exists_eq_add_one_of_ne_zero (by omega : n ≠ 0)
    rfl
  | cons l lines ih =>
    obtain ⟨n, rfl⟩ := Nat.exists_eq_add_one_of_ne_zero (by omega : n ≠ 0)
    have later := ih (fun d member => reads d (by simp [member]))
      (fun d member => short d (by simp [member])) (n := n) (by simpa using enough)
    obtain ⟨c, more, gap, read⟩ :=
      (reads l (by simp)).read count (lines.flatMap Line.text) (short l (by simp))
    simp [statements, gap, read, later]

theorem lineLength {lines : List Line} {l : Line} (member : l ∈ lines) :
    l.text.length ≤ (lines.flatMap Line.text).length := by
  obtain ⟨before, after, rfl⟩ := List.append_of_mem member
  simp only [List.flatMap_append, List.flatMap_cons, List.length_append]
  omega

theorem linesLength {lines : List Line} (reads : ∀ l ∈ lines, l.Reads) :
    lines.length ≤ (lines.flatMap Line.text).length := by
  induction lines with
  | nil => simp
  | cons l lines ih =>
    have later := ih fun d member => reads d (by simp [member])
    have one : 0 < l.text.length := List.length_pos_iff.mpr (reads l (by simp)).nonempty
    simp only [List.flatMap_cons, List.length_append, List.length_cons]
    omega

theorem documentRead {lines : List Line} (reads : ∀ l ∈ lines, l.Reads) {text : String}
    (written : text.toList = lines.flatMap Line.text) (mark : text.toList.head? ≠ some '\ufeff') :
    read? text = ofStatements? (lines.map Line.statement) := by
  have unmarked : dropMark text.toList = text.toList := by
    unfold dropMark
    split
    · rename_i more form
      simp [form] at mark
    · rfl
  -- The bounds come from the length of the text, which has room for every line.
  have read : statements depthLimit (text.toList.length + 1) (text.toList.length + 1) text.toList =
      some (lines.map Line.statement) := by
    rw [written]
    refine linesRead reads (fun l member => ?_) ?_
    · exact Nat.lt_succ_of_le (lineLength member)
    · exact Nat.lt_succ_of_le (linesLength reads)
  simp [read?, readWithin?, unmarked, read]

end StagedBuild.Document

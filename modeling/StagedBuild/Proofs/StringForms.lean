import StagedBuild.Document.Quoted
import StagedBuild.Document.Quoting

/-! Strings in a document. Whatever a string holds, the form that is chosen for it is read back as that
string, up to the end of its closing quotes. A quote right behind those would count as part of them. -/
namespace StagedBuild.Document

def Unquoted (rest : List Char) : Prop := rest.head? ≠ some '"' ∧ rest.head? ≠ some '\''

def pushAll (front : List Char) (read : Option (List Char × List Char)) :
    Option (List Char × List Char) :=
  read.map fun (content, rest) => (front ++ content, rest)

@[simp] theorem pushAllSome (front content rest : List Char) :
    pushAll front (some (content, rest)) = some (front ++ content, rest) := rfl

@[simp] theorem pushSome (c : Char) (content rest : List Char) :
    push c (some (content, rest)) = some (c :: content, rest) := rfl

theorem plainUnlessControl {c : Char} (clean : isControl c = false) (inLine : c ≠ '\n') :
    isPlain c = true := by
  have code : c.toNat ≠ 10 := fun same => inLine (Char.toNat_inj.mp same)
  by_cases tab : c = '\t'
  · simp [isPlain, tab]
  · simp only [isControl, Bool.or_eq_false_iff, Bool.and_eq_false_iff, decide_eq_false_iff_not,
      bne_eq_false_iff_eq, beq_eq_false_iff_ne, tab, inLine, or_false] at clean
    simp [isPlain]
    omega

theorem controlCode {c : Char} (control : isControl c = true) :
    scalar? ['0', '0', upperHex (c.toNat / 16), upperHex (c.toNat % 16)] = some c := by
  have low : c.toNat < 128 := by
    simp only [isControl, Bool.or_eq_true, Bool.and_eq_true, decide_eq_true_eq, beq_iff_eq] at control
    omega
  have all : ∀ n < 128, scalar? ['0', '0', upperHex (n / 16), upperHex (n % 16)] = some (Char.ofNat n) := by
    decide
  rw [all c.toNat low, Char.ofNat_toNat]

structure Unescapes (read : Reader (List Char)) : Prop where
  plain : ∀ c rest, isPlain c = true → c ≠ '"' → c ≠ '\\' → read (c :: rest) = push c (read rest)
  short : ∀ e c rest, escaped? e = some c → read ('\\' :: e :: rest) = push c (read rest)
  code : ∀ a b c rest, scalar? ['0', '0', a, b] = some c →
    read ('\\' :: 'u' :: '0' :: '0' :: a :: b :: rest) = push c (read rest)

theorem escapedLetter {e c : Char} (known : escaped? e = some c) :
    e ≠ 'x' ∧ e ≠ 'u' ∧ e ≠ 'U' ∧ ∀ rest, joinsLines (e :: rest) = false := by
  unfold escaped? at known
  split at known <;> simp_all [joinsLines, skipBlanks, isBlank]

theorem basicUnescapes : Unescapes basic where
  plain c rest plain noQuote noEscape := by
    rw [basic.eq_def]
    split <;> simp_all
  short e c rest known := by
    obtain ⟨noX, noU, noLongU, _⟩ := escapedLetter known
    simp [basic, noX, noU, noLongU, known, push?]
  code a b c rest known := by
    simp [basic, known, push?]

theorem linesUnescape : Unescapes (basicLines false) where
  plain c rest plain noQuote noEscape := by
    have noReturn : c ≠ '\r' := by rintro rfl; contradiction
    have noLine : c ≠ '\n' := by rintro rfl; contradiction
    rw [basicLines.eq_def]
    split <;> simp_all
  short e c rest known := by
    obtain ⟨noX, noU, noLongU, joins⟩ := escapedLetter known
    simp [basicLines, noX, noU, noLongU, joins, known, push?]
  code a b c rest known := by
    simp [basicLines, known, push?]

theorem escapeCases (c : Char) :
    (∃ e, escaped? e = some c ∧ escape c = ['\\', e]) ∨
    (∃ a b, scalar? ['0', '0', a, b] = some c ∧ escape c = ['\\', 'u', '0', '0', a, b]) ∨
    (isPlain c = true ∧ c ≠ '"' ∧ c ≠ '\\' ∧ escape c = [c]) := by
  by_cases lettered : c ∈ ['\x08', '\t', '\n', '\x0c', '\r', '"', '\\']
  · simp only [List.mem_cons, List.not_mem_nil, or_false] at lettered
    rcases lettered with rfl | rfl | rfl | rfl | rfl | rfl | rfl <;> exact .inl ⟨_, rfl, rfl⟩
  · simp only [List.mem_cons, List.not_mem_nil, or_false, not_or] at lettered
    obtain ⟨backspace, tab, line, page, back, quote, slash⟩ := lettered
    cases control : isControl c with
    | true =>
      refine .inr (.inl ⟨_, _, controlCode control, ?_⟩)
      simp [escape, backspace, tab, line, page, back, quote, slash, control]
    | false =>
      refine .inr (.inr ⟨plainUnlessControl control line, quote, slash, ?_⟩)
      simp [escape, backspace, tab, line, page, back, quote, slash, control]

theorem escapeRead {read : Reader (List Char)} (undone : Unescapes read) (c : Char)
    (rest : List Char) : read (escape c ++ rest) = push c (read rest) := by
  rcases escapeCases c with ⟨e, known, form⟩ | ⟨a, b, known, form⟩ | ⟨plain, quote, slash, form⟩
  · rw [form]
    exact undone.short e c rest known
  · rw [form]
    exact undone.code a b c rest known
  · rw [form]
    exact undone.plain c rest plain quote slash

theorem escapeHead (c : Char) : ∃ first more, escape c = first :: more ∧ first ≠ '"' ∧
    (c ≠ '\n' → first ≠ '\n') ∧ first ≠ '\r' := by
  rcases escapeCases c with ⟨e, known, form⟩ | ⟨a, b, known, form⟩ | ⟨plain, quote, slash, form⟩
  · exact ⟨_, _, form, by decide, fun _ => by decide, by decide⟩
  · exact ⟨_, _, form, by decide, fun _ => by decide, by decide⟩
  · exact ⟨_, _, form, quote, id, by rintro rfl; contradiction⟩

theorem basicRead (content rest : List Char) :
    basic (content.flatMap escape ++ '"' :: rest) = some (content, rest) := by
  induction content with
  | nil => simp [basic]
  | cons c content ih =>
    rw [List.flatMap_cons, List.append_assoc, escapeRead basicUnescapes, ih, pushSome]

theorem literalRead {content : List Char} (rest : List Char)
    (held : ∀ c ∈ content, isPlain c = true ∧ c ≠ '\'') :
    literal (content ++ '\'' :: rest) = some (content, rest) := by
  induction content with
  | nil => simp [literal]
  | cons c content ih =>
    obtain ⟨plain, quote⟩ := held c (by simp)
    have later := ih fun d member => held d (by simp [member])
    simp [literal, plain, later]

/- A string on several lines: three quotes close it, and up to two in front of them are part of it.
Fewer than three are part of it anywhere. -/
structure ClosedByThree (quote : Char) (read : Reader (List Char)) : Prop where
  closed : ∀ run rest, run ≤ 2 → rest.head? ≠ some quote →
    read (List.replicate run quote ++ [quote, quote, quote] ++ rest) =
      some (List.replicate run quote, rest)
  passed : ∀ run rest, run ≤ 2 → rest.head? ≠ some quote →
    read (List.replicate run quote ++ rest) = pushAll (List.replicate run quote) (read rest)

theorem headApart {quote : Char} {rest : List Char} (apart : rest.head? ≠ some quote) :
    ∀ more, rest ≠ quote :: more := by
  rintro more rfl
  exact apart rfl

theorem runCases {run : Nat} (small : run ≤ 2) : run = 0 ∨ run = 1 ∨ run = 2 := by omega

theorem linesClosed : ClosedByThree '"' (basicLines false) where
  closed run rest small apart := by
    have next := headApart apart
    rcases runCases small with rfl | rfl | rfl
    · simp [basicLines, next]
    · simp [basicLines]
    · simp [basicLines]
  passed run rest small apart := by
    have next := headApart apart
    have plain : isPlain '"' = true := rfl
    rcases runCases small with rfl | rfl | rfl
    · simp [pushAll]
    · simp [basicLines, next, plain, push, pushAll]
    · simp [basicLines, next, plain, push, pushAll, Function.comp_def]

theorem literalLinesClosed : ClosedByThree '\'' literalLines where
  closed run rest small apart := by
    have next := headApart apart
    rcases runCases small with rfl | rfl | rfl
    · simp [literalLines, next]
    · simp [literalLines]
    · simp [literalLines]
  passed run rest small apart := by
    have next := headApart apart
    have plain : isPlain '\'' = true := rfl
    rcases runCases small with rfl | rfl | rfl
    · simp [pushAll]
    · simp [literalLines, next, plain, push, pushAll]
    · simp [literalLines, next, plain, push, pushAll, Function.comp_def]

theorem escapeLinesOther {c : Char} (other : c ≠ '"') : ∃ written,
    (∀ run content, escapeLines run (c :: content) = written ++ escapeLines 0 content) ∧
    (∀ rest, (written ++ rest).head? ≠ some '"') ∧
    ∀ rest, basicLines false (written ++ rest) = push c (basicLines false rest) := by
  by_cases line : c = '\n'
  · subst line
    exact ⟨['\n'], fun _ _ => rfl, by simp, by simp [basicLines]⟩
  · obtain ⟨first, more, form, quote, _⟩ := escapeHead c
    refine ⟨escape c, ?_, ?_, escapeRead linesUnescape c⟩
    · intro run content
      simp [escapeLines, other, line]
    · simpa [form] using quote

theorem basicLinesRead (content rest : List Char) (apart : rest.head? ≠ some '"') (run : Nat)
    (small : run ≤ 2) :
    basicLines false (List.replicate run '"' ++ (escapeLines run content ++ (['"', '"', '"'] ++ rest))) =
      some (List.replicate run '"' ++ content, rest) := by
  -- The quotes right before the content are held back: as long as more of them may follow, it is not
  -- known whether they close the string.
  induction content generalizing run with
  | nil => simpa [escapeLines] using linesClosed.closed run rest small apart
  | cons c content ih =>
    by_cases quote : c = '"'
    · subst quote
      by_cases full : run = 2
      · subst full
        have third : escapeLines 2 ('"' :: content) = ['\\', '"'] ++ escapeLines 0 content := rfl
        have later := ih 0 (by omega)
        rw [third, List.append_assoc, linesClosed.passed 2 _ (by omega) (by simp)]
        simp only [List.cons_append, List.nil_append]
        rw [linesUnescape.short '"' '"' _ rfl]
        simp only [List.replicate_zero, List.nil_append, List.cons_append] at later
        rw [later, pushSome, pushAllSome]
      · have next : escapeLines run ('"' :: content) = '"' :: escapeLines (run + 1) content := by
          simp [escapeLines, full]
        have later := ih (run + 1) (by omega)
        simpa [next, List.replicate_succ'] using later
    · obtain ⟨written, form, head, read⟩ := escapeLinesOther quote
      have later := ih 0 (by omega)
      simp only [List.replicate_zero, List.nil_append] at later
      rw [form, List.append_assoc, linesClosed.passed run _ small (head _), read, later, pushSome,
        pushAllSome]

theorem tripleSuffix {quote : Char} (front : List Char) {content : List Char}
    (single : hasTriple quote (front ++ content) = false) : hasTriple quote content = false := by
  induction front with
  | nil => exact single
  | cons c front ih =>
    simp only [List.cons_append, hasTriple, Bool.or_eq_false_iff] at single
    exact ih single.2

theorem literalLinesStep {c : Char} (held : isPlain c = true ∨ c = '\n') (other : c ≠ '\'')
    (rest : List Char) : literalLines (c :: rest) = push c (literalLines rest) := by
  rcases held with plain | rfl
  · have noReturn : c ≠ '\r' := by rintro rfl; contradiction
    have noLine : c ≠ '\n' := by rintro rfl; contradiction
    simp [literalLines, other, noReturn, plain]
  · simp [literalLines]

theorem literalLinesRead {content : List Char} (rest : List Char) (apart : rest.head? ≠ some '\'')
    (run : Nat) (small : run ≤ 2) (held : ∀ c ∈ content, isPlain c = true ∨ c = '\n')
    (single : hasTriple '\'' (List.replicate run '\'' ++ content) = false) :
    literalLines (List.replicate run '\'' ++ (content ++ (['\'', '\'', '\''] ++ rest))) =
      some (List.replicate run '\'' ++ content, rest) := by
  induction content generalizing run with
  | nil => simpa using literalLinesClosed.closed run rest small apart
  | cons c content ih =>
    have heldLater : ∀ d ∈ content, isPlain d = true ∨ d = '\n' := fun d member => held d (by simp [member])
    by_cases quote : c = '\''
    · subst quote
      have room : run ≠ 2 := by
        rintro rfl
        simp [hasTriple] at single
      have grown : List.replicate run '\'' ++ '\'' :: content = List.replicate (run + 1) '\'' ++ content := by
        simp [List.replicate_succ']
      have later := ih (run + 1) (by omega) heldLater (grown ▸ single)
      simpa [List.replicate_succ'] using later
    · have after : hasTriple '\'' (List.replicate 0 '\'' ++ content) = false :=
        tripleSuffix [c] (tripleSuffix (List.replicate run '\'') single)
      have later := ih 0 (by omega) heldLater after
      simp only [List.replicate_zero, List.nil_append] at later
      rw [List.cons_append, literalLinesClosed.passed run _ small (by simpa using quote),
        literalLinesStep (held c (by simp)) quote, later, pushSome, pushAllSome]

def InLine (text : List Char) : Prop := text.head? ≠ some '\n' ∧ text.head? ≠ some '\r'

theorem lineEndKept {text : List Char} (inLine : InLine text) : dropLineEnd text = text := by
  cases text with
  | nil => rfl
  | cons c rest =>
    have line : c ≠ '\n' := by simpa using inLine.1
    have back : c ≠ '\r' := by simpa using inLine.2
    unfold dropLineEnd
    split <;> simp_all

theorem openingDropped {content text : List Char} (inLine : '\n' ∉ content → InLine text) :
    dropLineEnd (opening content ++ text) = text := by
  unfold opening
  by_cases lines : '\n' ∈ content
  · simp [lines, dropLineEnd]
  · simpa [lines] using lineEndKept (inLine lines)

theorem escapeLinesInLine {content : List Char} (lines : '\n' ∉ content) (rest : List Char) :
    InLine (escapeLines 0 content ++ '"' :: rest) := by
  cases content with
  | nil => exact ⟨by simp [escapeLines], by simp [escapeLines]⟩
  | cons c content =>
    have line : c ≠ '\n' := by rintro rfl; simp at lines
    by_cases quote : c = '"'
    · subst quote
      exact ⟨by simp [escapeLines], by simp [escapeLines]⟩
    · obtain ⟨first, more, form, _, noLine, noBack⟩ := escapeHead c
      simp only [escapeLines, quote, line, form, beq_iff_eq, if_false]
      exact ⟨by simpa using noLine line, by simpa using noBack⟩

theorem plainInLine {content : List Char} (held : ∀ c ∈ content, isPlain c = true ∨ c = '\n')
    (lines : '\n' ∉ content) (rest : List Char) : InLine (content ++ '\'' :: rest) := by
  cases content with
  | nil => exact ⟨by simp, by simp⟩
  | cons c content =>
    have line : c ≠ '\n' := by rintro rfl; simp at lines
    have plain := (held c (by simp)).resolve_right line
    have back : c ≠ '\r' := by rintro rfl; contradiction
    exact ⟨by simpa using line, by simpa using back⟩

theorem cleanContent {content : List Char} (clean : (!content.any isControl) = true) :
    ∀ c ∈ content, isPlain c = true ∨ c = '\n' := by
  intro c member
  have free : isControl c = false := by simp at clean; simpa using clean c member
  by_cases line : c = '\n'
  · exact .inr line
  · exact .inl (plainUnlessControl free line)

theorem formOfLiteral {content : List Char} (form : formOf content = .literal) :
    ∀ c ∈ content, isPlain c = true ∧ c ≠ '\'' := by
  simp only [formOf] at form
  split at form
  · contradiction
  · split at form
    · rename_i chosen
      simp only [Bool.and_eq_true] at chosen
      obtain ⟨⟨clean, quotes⟩, lines⟩ := chosen
      intro c member
      have line : c ≠ '\n' := by rintro rfl; simp [member] at lines
      have quote : c ≠ '\'' := by rintro rfl; simp [member] at quotes
      exact ⟨(cleanContent clean c member).resolve_right line, quote⟩
    · repeat' split at form
      all_goals contradiction

theorem formOfLiteralLines {content : List Char} (form : formOf content = .literalLines) :
    (∀ c ∈ content, isPlain c = true ∨ c = '\n') ∧ hasTriple '\'' content = false := by
  by_cases chosen : (!content.any isControl && !hasTriple '\'' content) = true
  · simp only [Bool.and_eq_true] at chosen
    exact ⟨cleanContent chosen.1, by simpa using chosen.2⟩
  · simp only [formOf, if_neg chosen] at form
    repeat' split at form
    all_goals contradiction

theorem quotedBasic {text : List Char} (one : ∀ rest, text ≠ '"' :: '"' :: rest) :
    quoted ('"' :: text) = basic text := by
  simp [quoted]

theorem quotedLiteral {text : List Char} (one : ∀ rest, text ≠ '\'' :: '\'' :: rest) :
    quoted ('\'' :: text) = literal text := by
  simp [quoted]

theorem basicFormRead (content : List Char) {rest : List Char} (apart : rest.head? ≠ some '"') :
    quoted (quoteAs content .basic ++ rest) = some (content, rest) := by
  have one : ∀ more, content.flatMap escape ++ '"' :: rest ≠ '"' :: '"' :: more := by
    intro more same
    cases content with
    | nil => exact headApart apart more (List.cons.inj same).2
    | cons c content =>
      obtain ⟨first, others, form, quote, _⟩ := escapeHead c
      simp [form, quote] at same
  have text : quoteAs content .basic ++ rest = '"' :: (content.flatMap escape ++ '"' :: rest) := by
    simp [quoteAs]
  rw [text, quotedBasic one, basicRead]

theorem literalFormRead {content rest : List Char} (apart : rest.head? ≠ some '\'')
    (held : ∀ c ∈ content, isPlain c = true ∧ c ≠ '\'') :
    quoted (quoteAs content .literal ++ rest) = some (content, rest) := by
  have one : ∀ more, content ++ '\'' :: rest ≠ '\'' :: '\'' :: more := by
    intro more same
    cases content with
    | nil => exact headApart apart more (List.cons.inj same).2
    | cons c content => exact (held c (by simp)).2 (List.cons.inj same).1
  have text : quoteAs content .literal ++ rest = '\'' :: (content ++ '\'' :: rest) := by simp [quoteAs]
  rw [text, quotedLiteral one, literalRead rest held]

theorem basicLinesFormRead (content : List Char) {rest : List Char} (apart : rest.head? ≠ some '"') :
    quoted (quoteAs content .basicLines ++ rest) = some (content, rest) := by
  have text : quoteAs content .basicLines ++ rest = '"' :: '"' :: '"' ::
      (opening content ++ (escapeLines 0 content ++ (['"', '"', '"'] ++ rest))) := by
    simp [quoteAs]
  have below : dropLineEnd (opening content ++ (escapeLines 0 content ++ (['"', '"', '"'] ++ rest))) =
      escapeLines 0 content ++ (['"', '"', '"'] ++ rest) :=
    openingDropped fun lines => escapeLinesInLine lines _
  rw [text, quoted, below]
  exact basicLinesRead content rest apart 0 (by omega)

theorem literalLinesFormRead {content rest : List Char} (apart : rest.head? ≠ some '\'')
    (held : ∀ c ∈ content, isPlain c = true ∨ c = '\n') (single : hasTriple '\'' content = false) :
    quoted (quoteAs content .literalLines ++ rest) = some (content, rest) := by
  have text : quoteAs content .literalLines ++ rest = '\'' :: '\'' :: '\'' ::
      (opening content ++ (content ++ (['\'', '\'', '\''] ++ rest))) := by
    simp [quoteAs]
  have below : dropLineEnd (opening content ++ (content ++ (['\'', '\'', '\''] ++ rest))) =
      content ++ (['\'', '\'', '\''] ++ rest) :=
    openingDropped fun lines => plainInLine held lines _
  rw [text, quoted, below]
  exact literalLinesRead rest apart 0 (by omega) held single

theorem quoteRead (content : List Char) {rest : List Char} (unquoted : Unquoted rest) :
    quoted (quote content ++ rest) = some (content, rest) := by
  unfold quote
  cases form : formOf content with
  | basic => exact basicFormRead content unquoted.1
  | literal => exact literalFormRead unquoted.2 (formOfLiteral form)
  | basicLines => exact basicLinesFormRead content unquoted.1
  | literalLines =>
    obtain ⟨held, single⟩ := formOfLiteralLines form
    exact literalLinesFormRead unquoted.2 held single

end StagedBuild.Document

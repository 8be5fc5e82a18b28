import Mathlib.Data.List.Forall2
import SchemaScript.Proofs.Layout
import SchemaScript.Sql

/-!
Lexing a script, character by character. A statement ends at a semicolon that is neither in a
literal nor in a comment; inside a literal only the quote mark means anything. Other quotations and
comments of SQL are not read, the lexer is lost at their first mark.
-/

namespace SchemaScript.Sql

inductive Token
  | word (chars : List Char)
  | literal (text : String)
deriving DecidableEq, Repr

def Token.literal? : Token → Option String
  | .word _ => none
  | .literal text => some text

def literalsOf (tokens : List Token) : List String := tokens.filterMap (·.literal?)

structure LineEnd where
  test : Char → Bool
  newline : test '\n' = true

inductive Mode
  | plain (word : List Char)
  | held (word : List Char) (mark : Char)
  | comment
  | literal (text : List Char)
  | quote (text : List Char)
  | lost
deriving DecidableEq, Repr

/-- The tokens are those of the statement that has not ended yet. -/
structure Lexer where
  mode : Mode
  tokens : List Token
  statements : List (List Token)
deriving DecidableEq, Repr

namespace Lexer

def wordTokens (word : List Char) : List Token := if word.isEmpty then [] else [.word word]

def plainStep (word : List Char) (tokens : List Token) (statements : List (List Token))
    (c : Char) : Lexer :=
  if c = quoteMark then ⟨.literal [], tokens ++ wordTokens word, statements⟩
  else if c = ';' then ⟨.plain [], [], statements ++ [tokens ++ wordTokens word]⟩
  else if c = '-' ∨ c = '/' then ⟨.held word c, tokens, statements⟩
  else if c = '"' ∨ c = '$' then ⟨.lost, tokens, statements⟩
  else if c.isWhitespace then ⟨.plain [], tokens ++ wordTokens word, statements⟩
  else ⟨.plain (word ++ [c]), tokens, statements⟩

def step (lineEnd : LineEnd) (lexer : Lexer) (c : Char) : Lexer :=
  match lexer.mode with
  | .plain word => plainStep word lexer.tokens lexer.statements c
  | .held word mark =>
    if mark = '-' ∧ c = '-' then
      { lexer with mode := .comment, tokens := lexer.tokens ++ wordTokens word }
    else if mark = '/' ∧ c = '*' then { lexer with mode := .lost }
    else plainStep (word ++ [mark]) lexer.tokens lexer.statements c
  | .comment => if lineEnd.test c then { lexer with mode := .plain [] } else lexer
  | .literal text =>
    if c = quoteMark then { lexer with mode := .quote text }
    else { lexer with mode := .literal (text ++ [c]) }
  | .quote text =>
    if c = quoteMark then { lexer with mode := .literal (text ++ [c]) }
    else plainStep [] (lexer.tokens ++ [.literal (String.ofList text)]) lexer.statements c
  | .lost => lexer

def scan (lineEnd : LineEnd) (lexer : Lexer) (cs : List Char) : Lexer :=
  cs.foldl (step lineEnd) lexer

def between (statements : List (List Token)) : Lexer := ⟨.plain [], [], statements⟩

end Lexer

def lex (lineEnd : LineEnd) (text : String) : Option (List (List Token)) :=
  let lexer := Lexer.scan lineEnd (.between []) text.toList
  if lexer.tokens = [] ∧ (lexer.mode = .plain [] ∨ lexer.mode = .comment) then
    some lexer.statements
  else none

def isQuietMark (c : Char) : Bool :=
  c != quoteMark && c != ';' && c != '"' && c != '$'

def opensComment (c d : Char) : Bool := (c == '-' && d == '-') || (c == '/' && d == '*')

/-- Nothing in the text can begin a literal or a comment, or end a statement, and neither can its
last character together with whatever follows. -/
def isQuiet : List Char → Bool
  | [] => true
  | [c] => isQuietMark c && c != '-' && c != '/'
  | c :: d :: rest => isQuietMark c && !opensComment c d && isQuiet (d :: rest)

theorem isQuiet_append {first second : List Char} (hf : isQuiet first = true)
    (hs : isQuiet second = true) : isQuiet (first ++ second) = true := by
  induction first with
  | nil => exact hs
  | cons c rest ih =>
    cases rest with
    | nil =>
      cases second with
      | nil => exact hf
      | cons d rest =>
        simp only [isQuiet, Bool.and_eq_true, bne_iff_ne] at hf
        have parted : opensComment c d = false := by simp [opensComment, hf.1.2, hf.2]
        simp [isQuiet, hf.1.1, parted, hs]
    | cons d rest =>
      simp only [isQuiet, Bool.and_eq_true] at hf
      have later := ih hf.2
      simp only [List.cons_append] at later ⊢
      simp [isQuiet, hf.1, later]

theorem isQuiet_flatMap {α : Type} {items : List α} {written : α → List Char}
    (quiet : ∀ item ∈ items, isQuiet (written item) = true) :
    isQuiet (items.flatMap written) = true := by
  induction items with
  | nil => rfl
  | cons item items ih =>
    have first := quiet item List.mem_cons_self
    have later := ih fun other listed => quiet other (List.mem_cons_of_mem item listed)
    exact isQuiet_append first later

@[simp] theorem literalsOf_nil : literalsOf [] = [] := rfl

@[simp] theorem literalsOf_append (first second : List Token) :
    literalsOf (first ++ second) = literalsOf first ++ literalsOf second :=
  List.filterMap_append

@[simp] theorem literalsOf_wordTokens (word : List Char) :
    literalsOf (Lexer.wordTokens word) = [] := by
  unfold Lexer.wordTokens
  split <;> rfl

@[simp] theorem literalsOf_literal (text : String) : literalsOf [.literal text] = [text] := rfl

open Lexer

variable {lineEnd : LineEnd}

theorem scan_append (lexer : Lexer) (first second : List Char) :
    scan lineEnd lexer (first ++ second) = scan lineEnd (scan lineEnd lexer first) second :=
  List.foldl_append

theorem scan_cons (lexer : Lexer) (c : Char) (rest : List Char) :
    scan lineEnd lexer (c :: rest) = scan lineEnd (step lineEnd lexer c) rest := rfl

/-- The lexer goes through a text without ending a statement, and has read some literals more. -/
def Continues (lineEnd : LineEnd) (cs : List Char) (literals : List String) : Prop :=
  ∀ word tokens, ∃ word' tokens', literalsOf tokens' = literalsOf tokens ++ literals ∧
    ∀ statements, scan lineEnd ⟨.plain word, tokens, statements⟩ cs =
      ⟨.plain word', tokens', statements⟩

theorem Continues.append {first second : List Char} {ls ms : List String}
    (hf : Continues lineEnd first ls) (hs : Continues lineEnd second ms) :
    Continues lineEnd (first ++ second) (ls ++ ms) := by
  intro word tokens
  obtain ⟨word₁, tokens₁, literals₁, scanned₁⟩ := hf word tokens
  obtain ⟨word₂, tokens₂, literals₂, scanned₂⟩ := hs word₁ tokens₁
  refine ⟨word₂, tokens₂, ?_, fun statements => ?_⟩
  · rw [literals₂, literals₁, List.append_assoc]
  · rw [scan_append, scanned₁, scanned₂]

theorem step_plain_of_quiet (lineEnd : LineEnd) {c : Char} (quiet : isQuietMark c = true)
    (noDash : c ≠ '-') (noSlash : c ≠ '/') (word : List Char) (tokens : List Token) :
    ∃ word' tokens', literalsOf tokens' = literalsOf tokens ∧
      ∀ statements, step lineEnd ⟨.plain word, tokens, statements⟩ c =
        ⟨.plain word', tokens', statements⟩ := by
  simp only [isQuietMark, Bool.and_eq_true, bne_iff_ne] at quiet
  obtain ⟨⟨⟨noQuote, noEnd⟩, noName⟩, noDollar⟩ := quiet
  cases space : c.isWhitespace with
  | true =>
    refine ⟨[], tokens ++ wordTokens word, by simp, fun statements => ?_⟩
    simp [step, plainStep, noQuote, noEnd, noDash, noSlash, noName, noDollar, space]
  | false =>
    refine ⟨word ++ [c], tokens, rfl, fun statements => ?_⟩
    simp [step, plainStep, noQuote, noEnd, noDash, noSlash, noName, noDollar, space]

theorem step_held {mark c : Char} (parted : opensComment mark c = false) (word : List Char)
    (tokens : List Token) (statements : List (List Token)) :
    step lineEnd ⟨.held word mark, tokens, statements⟩ c =
      step lineEnd ⟨.plain (word ++ [mark]), tokens, statements⟩ c := by
  simp only [opensComment, Bool.or_eq_false_iff, Bool.and_eq_false_iff, beq_eq_false_iff_ne]
    at parted
  have noLine : ¬ (mark = '-' ∧ c = '-') := fun both => parted.1.elim (· both.1) (· both.2)
  have noBlock : ¬ (mark = '/' ∧ c = '*') := fun both => parted.2.elim (· both.1) (· both.2)
  simp only [step, if_neg noLine, if_neg noBlock]

theorem Continues.of_isQuiet {cs : List Char} (quiet : isQuiet cs = true) :
    Continues lineEnd cs [] := by
  induction cs with
  | nil => exact fun word tokens => ⟨word, tokens, by simp, fun _ => rfl⟩
  | cons c rest ih =>
    intro word tokens
    by_cases holds : c = '-' ∨ c = '/'
    · cases rest with
      | nil =>
        simp only [isQuiet, Bool.and_eq_true, bne_iff_ne] at quiet
        exact absurd holds (by simp [quiet.1.2, quiet.2])
      | cons d rest =>
        simp only [isQuiet, isQuietMark, Bool.and_eq_true, Bool.not_eq_true', bne_iff_ne] at quiet
        obtain ⟨⟨⟨⟨⟨noQuote, noEnd⟩, noName⟩, noDollar⟩, parted⟩, quietRest⟩ := quiet
        obtain ⟨word', tokens', literals, scanned⟩ := ih quietRest (word ++ [c]) tokens
        refine ⟨word', tokens', literals, fun statements => ?_⟩
        have held : step lineEnd ⟨.plain word, tokens, statements⟩ c =
            ⟨.held word c, tokens, statements⟩ := by
          simp [step, plainStep, noQuote, noEnd, holds]
        rw [scan_cons, held, scan_cons, step_held parted, ← scan_cons]
        exact scanned statements
    · obtain ⟨noDash, noSlash⟩ := not_or.1 holds
      have here : isQuietMark c = true ∧ isQuiet rest = true := by
        cases rest with
        | nil =>
          simp only [isQuiet, Bool.and_eq_true] at quiet
          exact ⟨quiet.1.1, rfl⟩
        | cons d rest =>
          simp only [isQuiet, Bool.and_eq_true] at quiet
          exact ⟨quiet.1.1, quiet.2⟩
      obtain ⟨word₁, tokens₁, literals₁, stepped⟩ :=
        step_plain_of_quiet lineEnd here.1 noDash noSlash word tokens
      obtain ⟨word₂, tokens₂, literals₂, scanned⟩ := ih here.2 word₁ tokens₁
      refine ⟨word₂, tokens₂, by rw [literals₂, literals₁], fun statements => ?_⟩
      rw [scan_cons, stepped, scanned]

/-- Inside a literal the lexer takes up the text that was quoted, whatever it is. -/
theorem scan_doubleMarks (cs text : List Char) (tokens : List Token)
    (statements : List (List Token)) :
    scan lineEnd ⟨.literal text, tokens, statements⟩ (doubleMarks cs) =
      ⟨.literal (text ++ cs), tokens, statements⟩ := by
  induction cs generalizing text with
  | nil => simp [doubleMarks, scan]
  | cons c rest ih =>
    by_cases mark : c = quoteMark
    · have twice : step lineEnd (step lineEnd ⟨.literal text, tokens, statements⟩ quoteMark)
          quoteMark = ⟨.literal (text ++ [quoteMark]), tokens, statements⟩ := by
        simp [step]
      rw [doubleMarks, if_pos mark, scan_cons, scan_cons, twice, ih, mark, List.append_assoc]
      rfl
    · have once : step lineEnd ⟨.literal text, tokens, statements⟩ c =
          ⟨.literal (text ++ [c]), tokens, statements⟩ := by
        simp [step, mark]
      rw [doubleMarks, if_neg mark, scan_cons, once, ih, List.append_assoc]
      rfl

theorem scan_literalChars (content : String) (word : List Char) (tokens : List Token)
    (statements : List (List Token)) :
    scan lineEnd ⟨.plain word, tokens, statements⟩ (literalChars content.toList) =
      ⟨.quote content.toList, tokens ++ wordTokens word, statements⟩ := by
  have opened : step lineEnd ⟨.plain word, tokens, statements⟩ quoteMark =
      ⟨.literal [], tokens ++ wordTokens word, statements⟩ := by
    simp [step, plainStep]
  rw [literalChars, List.cons_append, scan_cons, opened, scan_append, scan_doubleMarks]
  simp [scan, step]

theorem step_quote {c : Char} (other : c ≠ quoteMark) (content : String) (tokens : List Token)
    (statements : List (List Token)) :
    step lineEnd ⟨.quote content.toList, tokens, statements⟩ c =
      step lineEnd ⟨.plain [], tokens ++ [.literal content], statements⟩ c := by
  simp [step, other]

theorem Continues.literal (content : String) {c : Char} (quiet : isQuiet [c] = true) :
    Continues lineEnd (literalChars content.toList ++ [c]) [content] := by
  intro word tokens
  simp only [isQuiet, Bool.and_eq_true, bne_iff_ne] at quiet
  obtain ⟨word', tokens', literals, stepped⟩ := step_plain_of_quiet lineEnd
    quiet.1.1 quiet.1.2 quiet.2 [] (tokens ++ wordTokens word ++ [.literal content])
  have other : c ≠ quoteMark := by
    simp only [isQuietMark, Bool.and_eq_true, bne_iff_ne] at quiet
    exact quiet.1.1.1.1.1
  refine ⟨word', tokens', by simpa using literals, fun statements => ?_⟩
  rw [scan_append, scan_literalChars, scan_cons, step_quote other, stepped]
  rfl

structure Finishes (lineEnd : LineEnd) (cs : List Char) (literals : List String) : Prop where
  ended : cs.getLast? = some ';'
  read : ∃ tokens, literalsOf tokens = literals ∧
    ∀ statements, scan lineEnd (between statements) cs = between (statements ++ [tokens])

theorem Continues.finishes {cs : List Char} {literals : List String}
    (continues : Continues lineEnd cs literals) : Finishes lineEnd (cs ++ [';']) literals := by
  obtain ⟨word, tokens, read, scanned⟩ := continues [] []
  refine ⟨by simp, tokens ++ wordTokens word, by simpa using read, fun statements => ?_⟩
  rw [between, scan_append, scanned]
  simp [scan, step, plainStep, between, quoteMark]

theorem Continues.finishes_literal {cs : List Char} {literals : List String}
    (continues : Continues lineEnd cs literals) (content : String) :
    Finishes lineEnd (cs ++ (literalChars content.toList ++ [';'])) (literals ++ [content]) := by
  obtain ⟨word, tokens, read, scanned⟩ := continues [] []
  refine ⟨by simp [← List.append_assoc],
    tokens ++ wordTokens word ++ [.literal content], ?_, fun statements => ?_⟩
  · simpa using read
  · have other : ';' ≠ quoteMark := by decide
    rw [between, scan_append, scanned, scan_append, scan_literalChars, scan_cons,
      step_quote other]
    simp [scan, step, plainStep, between, quoteMark, wordTokens]

def Lexes (lineEnd : LineEnd) (cs : List Char) (read : List (List Token)) : Prop :=
  ∀ statements, scan lineEnd (between statements) cs = between (statements ++ read)

theorem lex_eq_some {text : String} {read : List (List Token)}
    (lexes : Lexes lineEnd text.toList read) : lex lineEnd text = some read := by
  have scanned := lexes []
  rw [List.nil_append] at scanned
  simp only [lex, scanned]
  simp [between]

theorem Lexes.append {first second : List Char} {fs ss : List (List Token)}
    (hf : Lexes lineEnd first fs) (hs : Lexes lineEnd second ss) :
    Lexes lineEnd (first ++ second) (fs ++ ss) := by
  intro statements
  rw [scan_append, hf, hs, List.append_assoc]

theorem Lexes.newline : Lexes lineEnd ['\n'] [] := by
  intro statements
  simp [scan, step, plainStep, between, quoteMark, wordTokens]

theorem Finishes.exists_lexes {cs : List Char} {literals : List String}
    (finishes : Finishes lineEnd cs literals) :
    ∃ read, read.flatMap literalsOf = literals ∧ Lexes lineEnd cs read := by
  obtain ⟨tokens, contents, scanned⟩ := finishes.read
  exact ⟨[tokens], by simpa using contents, scanned⟩

inductive Block (lineEnd : LineEnd) : List Char → List String → Prop
  | last {cs : List Char} {literals : List String} (finishes : Finishes lineEnd cs literals) :
      Block lineEnd (cs ++ ['\n']) literals
  | cons {cs rest : List Char} {literals more : List String}
      (finishes : Finishes lineEnd cs literals) (block : Block lineEnd rest more) :
      Block lineEnd (cs ++ '\n' :: rest) (literals ++ more)

theorem Block.exists_lexes {text : List Char} {literals : List String}
    (block : Block lineEnd text literals) :
    ∃ body read, text = body ++ ['\n'] ∧ body.getLast? = some ';' ∧
      read.flatMap literalsOf = literals ∧ Lexes lineEnd body read := by
  induction block with
  | @last cs literals finishes =>
    obtain ⟨read, contents, lexes⟩ := finishes.exists_lexes
    exact ⟨cs, read, rfl, finishes.ended, contents, lexes⟩
  | @cons cs rest literals more finishes _ ih =>
    obtain ⟨read, contents, lexes⟩ := finishes.exists_lexes
    obtain ⟨body, others, rfl, ended, otherContents, otherLexes⟩ := ih
    refine ⟨cs ++ ('\n' :: body), read ++ others, by simp, ?_, ?_, ?_⟩
    · rw [List.getLast?_append, List.getLast?_cons, ended]
      rfl
    · rw [List.flatMap_append, contents, otherContents]
    · exact lexes.append (Lexes.newline.append otherLexes)

theorem toList_dropFinalNewlines {text : String} {body : List Char} {last : Char}
    (ended : body.getLast? = some last) (visible : last ≠ '\n')
    (written : text.toList = body ∨ text.toList = body ++ ['\n']) :
    (Text.dropFinalNewlines text).toList = body := by
  obtain ⟨front, rfl⟩ := List.getLast?_eq_some_iff.1 ended
  rcases written with written | written
  · simp [Text.dropFinalNewlines, written, visible]
  · simp [Text.dropFinalNewlines, written, visible]

/-- A text is read the same alone and in a script, where it is without its final newlines. -/
structure Reads (lineEnd : LineEnd) (text : String) (read : List (List Token)) : Prop where
  alone : Lexes lineEnd text.toList read
  inScript : Lexes lineEnd (Text.dropFinalNewlines text).toList read

theorem Block.exists_reads {text : String} {literals : List String}
    (block : Block lineEnd text.toList literals) :
    ∃ read, read.flatMap literalsOf = literals ∧ Reads lineEnd text read := by
  obtain ⟨body, read, written, ended, contents, lexes⟩ := block.exists_lexes
  refine ⟨read, contents, ?_, ?_⟩
  · rw [written, ← List.append_nil read]
    exact lexes.append Lexes.newline
  · rw [toList_dropFinalNewlines ended (by decide) (.inr written)]
    exact lexes

theorem Finishes.exists_reads {text : String} {literals : List String}
    (finishes : Finishes lineEnd text.toList literals) :
    ∃ read, read.flatMap literalsOf = literals ∧ Reads lineEnd text read := by
  obtain ⟨read, contents, lexes⟩ := finishes.exists_lexes
  refine ⟨read, contents, lexes, ?_⟩
  rw [toList_dropFinalNewlines finishes.ended (by decide) (.inl rfl)]
  exact lexes

structure IsComment (lineEnd : LineEnd) (header : String) : Prop where
  opened : "--".toList <+: header.toList
  oneLine : ∀ c ∈ header.toList, lineEnd.test c = false

theorem scan_comment {cs : List Char} (oneLine : ∀ c ∈ cs, lineEnd.test c = false)
    (tokens : List Token) (statements : List (List Token)) :
    scan lineEnd ⟨.comment, tokens, statements⟩ cs = ⟨.comment, tokens, statements⟩ := by
  induction cs with
  | nil => rfl
  | cons c rest ih =>
    have stays : step lineEnd ⟨.comment, tokens, statements⟩ c =
        ⟨.comment, tokens, statements⟩ := by
      simp [step, oneLine c List.mem_cons_self]
    rw [scan_cons, stays, ih fun d later => oneLine d (List.mem_cons_of_mem c later)]

theorem IsComment.lexes_append {header : String} (comment : IsComment lineEnd header)
    {rest : List Char} {read : List (List Token)} (lexes : Lexes lineEnd ('\n' :: rest) read) :
    Lexes lineEnd (header.toList ++ '\n' :: rest) read := by
  intro statements
  obtain ⟨content, written⟩ := comment.opened
  have dashes : "--".toList = ['-', '-'] := rfl
  have oneLine : ∀ c ∈ content, lineEnd.test c = false := by
    intro c found
    exact comment.oneLine c (written ▸ List.mem_append_right _ found)
  have opened : scan lineEnd (between statements) ['-', '-'] = ⟨.comment, [], statements⟩ := by
    simp [scan, step, plainStep, between, quoteMark, wordTokens]
  have closed : step lineEnd ⟨.comment, [], statements⟩ '\n' = between statements := by
    simp [step, between, lineEnd.newline]
  have blank : step lineEnd (between statements) '\n' = between statements := by
    simp [step, plainStep, between, quoteMark, wordTokens]
  rw [← written, dashes, scan_append, scan_append, opened, scan_comment oneLine, scan_cons, closed]
  have onwards := lexes statements
  rwa [scan_cons, blank] at onwards

theorem Lexes.separated {blocks : List (List Char)} {reads : List (List (List Token))}
    (each : List.Forall₂ (Lexes lineEnd) blocks reads) :
    Lexes lineEnd ((blocks.flatMap fun block => ['\n', '\n'] ++ block) ++ ['\n']) reads.flatten := by
  induction each with
  | nil => exact Lexes.newline
  | @cons block read blocks reads lexes _ ih =>
    have gap : Lexes lineEnd ['\n', '\n'] [] := Lexes.newline.append Lexes.newline
    have whole := gap.append (lexes.append ih)
    simpa using whole

theorem Lexes.joined {blocks : List (List Char)} {reads : List (List (List Token))}
    (each : List.Forall₂ (Lexes lineEnd) blocks reads) :
    Lexes lineEnd (['\n', '\n'].intercalate blocks ++ ['\n']) reads.flatten := by
  cases each with
  | nil => exact Lexes.newline
  | cons lexes rest =>
    have whole := lexes.append (Lexes.separated rest)
    simpa [intercalate_cons_eq_append] using whole

theorem IsComment.joined {header : String} (comment : IsComment lineEnd header)
    {blocks : List (List Char)} {reads : List (List (List Token))}
    (each : List.Forall₂ (Lexes lineEnd) blocks reads) :
    Lexes lineEnd (['\n', '\n'].intercalate (header.toList :: blocks) ++ ['\n'])
      reads.flatten := by
  have whole := Lexes.separated each
  obtain ⟨rest, starts⟩ : ∃ rest, (blocks.flatMap fun block => ['\n', '\n'] ++ block) ++ ['\n'] =
      '\n' :: rest := by
    cases blocks with
    | nil => exact ⟨[], rfl⟩
    | cons block blocks => exact ⟨_, rfl⟩
  rw [starts] at whole
  have all := comment.lexes_append whole
  rwa [← starts, ← List.append_assoc, ← intercalate_cons_eq_append] at all

theorem Lexes.script {header : Option String}
    (comment : ∀ line ∈ header, line = "" ∨ IsComment lineEnd line) {texts : List String}
    {reads : List (List (List Token))}
    (each : List.Forall₂ (fun text read =>
      Lexes lineEnd (Text.dropFinalNewlines text).toList read) texts reads) :
    Lexes lineEnd (renderScript header texts).toList reads.flatten := by
  have gap : "\n\n".toList = ['\n', '\n'] := rfl
  have newline : "\n".toList = ['\n'] := rfl
  have blocksLex : List.Forall₂ (Lexes lineEnd)
      (texts.map fun text => (Text.dropFinalNewlines text).toList) reads := by
    rwa [List.forall₂_map_left_iff]
  cases head : header.filter (!·.isEmpty) with
  | none =>
    have whole := Lexes.joined blocksLex
    simpa [renderScript, head, String.toList_intercalate, gap, newline, Function.comp_def]
      using whole
  | some line =>
    obtain ⟨given, nonempty⟩ := Option.filter_eq_some_iff.1 head
    have isComment : IsComment lineEnd line := by
      refine (comment line given).resolve_left fun empty => ?_
      simp [empty] at nonempty
    have whole := isComment.joined blocksLex
    simpa [renderScript, head, String.toList_intercalate, gap, newline, Function.comp_def]
      using whole

end SchemaScript.Sql

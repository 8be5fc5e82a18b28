import Mathlib.Data.List.Basic
import SchemaScript.Proofs.Forms
import SchemaScript.Proofs.Scanning

/-!
The tokens of a text. A tag takes an exclamation mark in the text, and a scalar without quotes that
has the form of a number stands in the text as it is.
-/

namespace SchemaScript.Yaml

/-- The content of a scalar without quotes. What parts its lines and words is in no number. -/
structure PlainIn (text content : List Char) : Prop where
  ended : content.getLast? ≠ some '\n'
  whole : content <:+: text ∨ ∃ c ∈ content, isSixtiesChar c = false

namespace PlainScalar

variable {text : List Char} {position : Position} {inFlow : Bool}

theorem isSixtiesChar_breakContent {c : Char} (break_ : isBreak c = true) :
    isSixtiesChar (breakContent c) = false := by
  simp only [isBreak, Bool.or_eq_true, beq_iff_eq] at break_
  rcases break_ with ((rfl | rfl) | rfl) | rfl <;> decide

theorem isSixtiesChar_of_mem_blankLines {fuel : Nat} {breaks : List Char}
    (read : (blankLines fuel position).1 = some breaks) :
    ∀ c ∈ breaks, isSixtiesChar c = false := by
  induction fuel generalizing position breaks with
  | zero =>
    cases read
    nofun
  | succ fuel ih =>
    rw [blankLines] at read
    split at read
    · exact ih read
    split at read
    · next found =>
      split at read
      · cases read
      · obtain ⟨more, later, rfl⟩ := Option.map_eq_some_iff.1 read
        rintro c (_ | ⟨_, inside⟩)
        · exact isSixtiesChar_breakContent found
        · exact ih later c inside
    · cases read
      nofun

theorem isSixtiesChar_of_mem_foldBreak {first : Char} {more : List Char}
    (break_ : isBreak first = true) (others : ∀ c ∈ more, isSixtiesChar c = false) :
    ∀ c ∈ foldBreak first more, isSixtiesChar c = false := by
  unfold foldBreak
  split
  · exact List.forall_mem_cons.2 ⟨isSixtiesChar_breakContent break_, others⟩
  split
  · exact List.forall_mem_singleton.2 rfl
  · exact others

theorem isSixtiesChar_of_mem_gap (position : Position) :
    ∀ c ∈ (gap position).content, isSixtiesChar c = false := by
  rw [gap]
  dsimp only
  split
  · next found =>
    split
    · exact List.forall_mem_nil _
    · split
      · exact List.forall_mem_nil _
      · next breaks stop read =>
        refine isSixtiesChar_of_mem_foldBreak found ?_
        exact isSixtiesChar_of_mem_blankLines (congrArg Prod.fst read)
  · intro c inside
    have blank : c ∈ position.rest.takeWhile (· == ' ') := inside
    have space := List.mem_takeWhile_imp blank
    rw [beq_iff_eq] at space
    rw [space]
    rfl

theorem getLast?_run (chars : List Char) : (run inFlow chars).getLast? ≠ some '\n' := by
  intro last
  have found := List.mem_of_getLast? last
  cases endsWord_of_mem_run found

/-- The lines of a scalar after what was read before: none, the rest of one line alone, or more with
a gap between. -/
structure LinesIn (inFlow : Bool) (rest before content : List Char) : Prop where
  ended : content.getLast? ≠ some '\n'
  after : content = [] ∨ before <+: content
  whole : content = [] ∨ content = before ++ run inFlow rest ∨
    ∃ c ∈ content, isSixtiesChar c = false

theorem linesIn_nil {rest before : List Char} : LinesIn inFlow rest before [] :=
  ⟨nofun, .inl rfl, .inl rfl⟩

section Line

variable {rest later before parting content : List Char} (some : run inFlow rest ≠ [])

include some

theorem linesIn_line : LinesIn inFlow rest before (before ++ run inFlow rest) := by
  refine ⟨?_, .inr (List.prefix_append _ _), .inr (.inl rfl)⟩
  rw [List.getLast?_append_of_ne_nil _ some]
  exact getLast?_run _

theorem LinesIn.append (others : LinesIn inFlow later parting content) (filled : parting ≠ [])
    (blank : ∀ c ∈ parting, isSixtiesChar c = false) :
    LinesIn inFlow rest before (before ++ run inFlow rest ++ content) := by
  rcases others.after with none | front
  · rw [none, List.append_nil]
    exact linesIn_line some
  · obtain ⟨c, inside⟩ := List.exists_mem_of_ne_nil _ filled
    have found := front.subset inside
    refine ⟨?_, .inr ?_, .inr (.inr ⟨c, List.mem_append_right _ found, blank c inside⟩)⟩
    · rw [List.getLast?_append_of_ne_nil _ (List.ne_nil_of_mem found)]
      exact others.ended
    · rw [List.append_assoc]
      exact List.prefix_append _ _

end Line

theorem lines_linesIn (inFlow : Bool) (indent fuel : Nat) (before : List Char) (afterBreak : Bool)
    (position : Position) :
    LinesIn inFlow position.rest before
      (lines inFlow indent fuel before afterBreak position).content := by
  induction fuel generalizing before afterBreak position with
  | zero => exact linesIn_nil
  | succ fuel ih =>
    rw [lines]
    dsimp only
    split
    · exact linesIn_nil
    split
    · exact linesIn_nil
    next some =>
    rw [List.isEmpty_iff] at some
    have blank := isSixtiesChar_of_mem_gap (position.skip (run inFlow position.rest).length)
    generalize gap (position.skip (run inFlow position.rest).length) = parting at blank ⊢
    split
    · exact linesIn_line some
    · next goesOn =>
      have filled : parting.content ≠ [] := by
        rintro empty
        simp [empty] at goesOn
      exact (ih _ _ _).append some filled blank

theorem scan_plainIn {indent : Nat} (within : position.Within text) :
    PlainIn text (scan inFlow indent position).content := by
  obtain ⟨ended, _, none | same | parted⟩ :=
    lines_linesIn inFlow indent (position.rest.length + 1) [] false position
  · exact ⟨ended, .inl (by rw [scan, none]; exact List.nil_infix)⟩
  · refine ⟨ended, .inl ?_⟩
    rw [scan, same, List.nil_append]
    exact within.infix_of_prefix (run_begins _ _)
  · exact ⟨ended, .inr parted⟩

end PlainScalar

def Token.In (text : List Char) : Token → Prop
  | .tag _ _ => '!' ∈ text
  | .scalar (.text content) true => PlainIn text content.toList
  | .broken fault => Expected text fault
  | _ => True

namespace Lexer

variable {text : List Char} {s : Lexer}

/-- A lexer that has read a part of a text. -/
structure In (text : List Char) (s : Lexer) : Prop where
  within : s.position.Within text
  tokens : ∀ token ∈ s.reversedTokens, token.In text

abbrev SafeStep (text : List Char) (step : Step) : Prop := Safe text (In text) step

namespace In

theorem moveTo (read : s.In text) {position : Position} (within : position.Within text) :
    (s.moveTo position).In text := ⟨within, read.tokens⟩

theorem allowKey (read : s.In text) (allowed : Bool) : (s.allowKey allowed).In text :=
  ⟨read.within, read.tokens⟩

theorem push (read : s.In text) (token : Token) (fits : token.In text) : (s.push token).In text :=
  ⟨read.within, List.forall_mem_cons.2 ⟨fits, read.tokens⟩⟩

theorem insert (read : s.In text) (place : Nat) (token : Token) (fits : token.In text) :
    (s.insert place token).In text := by
  refine ⟨read.within, fun other listed => ?_⟩
  rcases List.mem_append.1 listed with taken | rest
  · exact read.tokens other (List.mem_of_mem_take taken)
  · rcases List.mem_cons.1 rest with rfl | dropped
    · exact fits
    · exact read.tokens other (List.mem_of_mem_drop dropped)

theorem closeBlocks {column : Int} {outer : List Int} (read : s.In text) :
    (closeBlocks column outer s).In text := by
  induction outer generalizing s with
  | nil => exact ⟨read.within, read.tokens⟩
  | cons indent rest ih =>
    rw [Lexer.closeBlocks]
    split
    · exact ih (push (s := { s with indent := indent }) ⟨read.within, read.tokens⟩ .blockEnd trivial)
    · exact ⟨read.within, read.tokens⟩

theorem closeTo (read : s.In text) (column : Int) : (s.closeTo column).In text := by
  rw [Lexer.closeTo]
  split
  · exact read
  · exact read.closeBlocks

theorem openBlock (read : s.In text) {column : Nat} {opened : Lexer}
    (made : s.openBlock column = some opened) : opened.In text := by
  rw [Lexer.openBlock] at made
  split at made
  · cases made
    exact ⟨read.within, read.tokens⟩
  · cases made

theorem skipBlank (read : s.In text) (fuel : Nat) : (skipBlank fuel s).In text := by
  induction fuel generalizing s with
  | zero => exact read
  | succ fuel ih =>
    have blank := read.within.skipSpaces.skipComment
    rw [Lexer.skipBlank]
    split
    · exact ih ((read.moveTo blank.next).allowKey _)
    · exact read.moveTo blank

theorem forgetPastKeys (read : s.In text) : SafeStep text s.forgetPastKeys := by
  rw [Lexer.forgetPastKeys]
  split
  · exact .malformed
  · exact ⟨read.within, read.tokens⟩

theorem forgetKey (read : s.In text) : SafeStep text s.forgetKey := by
  rw [Lexer.forgetKey]
  split
  · exact read
  · split
    · exact .malformed
    · exact ⟨read.within, read.tokens⟩

theorem noteKey (read : s.In text) : SafeStep text s.noteKey := by
  rw [Lexer.noteKey]
  split
  · exact read.forgetKey.bind fun _ read => ⟨read.within, read.tokens⟩
  · exact read

theorem beginBlock (read : s.In text) (token : Token) (fits : token.In text) :
    SafeStep text (s.beginBlock token) := by
  rw [Lexer.beginBlock]
  split
  · exact read
  split
  · exact .malformed
  · split
    · next opened made => exact (read.openBlock made).push _ fits
    · exact read

theorem makeKey (read : s.In text) (key : KeyCandidate) : (s.makeKey key).In text := by
  have kept : ({ s with candidates := s.candidates.filter (·.1 != s.flowLevel) } : Lexer).In text :=
    ⟨read.within, read.tokens⟩
  have marked := kept.insert key.place .key trivial
  rw [Lexer.makeKey]
  refine allowKey ?_ _
  split
  · exact marked
  · split
    · next opened made => exact (marked.openBlock made).insert _ _ trivial
    · exact marked

end In

theorem takeStreamEnd_safe (read : s.In text) : SafeStep text s.takeStreamEnd :=
  (read.closeTo _).forgetKey.bind fun _ read =>
    let pushed := read.push .streamEnd trivial
    ⟨pushed.within, pushed.tokens⟩

theorem takeDirective_safe (read : s.In text) : SafeStep text s.takeDirective :=
  (read.closeTo _).forgetKey.bind fun _ read =>
    (Property.directive_safe read.within).bind fun _ ends =>
      ((read.moveTo ends).allowKey _).push _ trivial

theorem takeSeparator_safe (read : s.In text) {token : Token} (fits : token.In text) :
    SafeStep text (s.takeSeparator token) :=
  (read.closeTo _).forgetKey.bind fun _ read =>
    ((read.moveTo (read.within.skip 3)).allowKey _).push _ fits

theorem takeFlowStart_safe (read : s.In text) {token : Token} (fits : token.In text) :
    SafeStep text (s.takeFlowStart token) :=
  read.noteKey.bind fun _ read =>
    let pushed := (read.moveTo read.within.next).push _ fits
    ⟨pushed.within, pushed.tokens⟩

theorem takeFlowEnd_safe (read : s.In text) {token : Token} (fits : token.In text) :
    SafeStep text (s.takeFlowEnd token) :=
  read.forgetKey.bind fun _ read =>
    let pushed := (read.moveTo read.within.next).push _ fits
    ⟨pushed.within, pushed.tokens⟩

theorem takeFlowEntry_safe (read : s.In text) : SafeStep text s.takeFlowEntry :=
  (read.allowKey _).forgetKey.bind fun _ read => (read.moveTo read.within.next).push _ trivial

theorem takeBlockEntry_safe (read : s.In text) : SafeStep text s.takeBlockEntry :=
  (read.beginBlock .blockSequenceStart trivial).bind fun _ read =>
    (read.allowKey _).forgetKey.bind fun _ read => (read.moveTo read.within.next).push _ trivial

theorem takeKey_safe (read : s.In text) : SafeStep text s.takeKey :=
  (read.beginBlock .blockMappingStart trivial).bind fun _ read =>
    (read.allowKey _).forgetKey.bind fun _ read => (read.moveTo read.within.next).push _ trivial

theorem takeValue_safe (read : s.In text) : SafeStep text s.takeValue := by
  rw [takeValue]
  refine Safe.bind (?_ : SafeStep text _) fun _ read => (read.moveTo read.within.next).push _ trivial
  split
  · exact read.makeKey _
  · exact (read.beginBlock .blockMappingStart trivial).bind fun _ read =>
      (read.allowKey _).forgetKey

theorem takeAnchor_safe (read : s.In text) {token : String → Token}
    (fits : ∀ name, (token name).In text) : SafeStep text (s.takeAnchor token) :=
  read.noteKey.bind fun _ read => (Property.anchor_safe read.within).bind fun _ ends =>
    ((read.moveTo ends).allowKey _).push _ (fits _)

theorem takeBlockScalar_safe (read : s.In text) : SafeStep text s.takeBlockScalar :=
  (read.allowKey _).forgetKey.bind fun _ read =>
    (BlockScalar.scan_safe _ read.within).bind fun _ ends => (read.moveTo ends).push _ trivial

theorem takeQuoted_safe (read : s.In text) : SafeStep text s.takeQuoted :=
  read.noteKey.bind fun _ read => (QuotedScalar.scan_safe read.within).bind fun read' ends =>
    ((read.moveTo ends).allowKey _).push _ (by cases ScalarText.ofCodes read'.1 <;> trivial)

theorem takePlain_safe (read : s.In text) : SafeStep text s.takePlain :=
  read.noteKey.bind fun s read => by
    refine Safe.pure (((read.moveTo (PlainScalar.scan_within _ read.within)).allowKey _).push _ ?_)
    rw [ScalarText.ofChars, Token.In, String.toList_ofList]
    exact PlainScalar.scan_plainIn read.within

theorem takeTag_safe (read : s.In text) (mark : '!' ∈ text) : SafeStep text s.takeTag :=
  read.noteKey.bind fun _ read => (Property.tag_safe read.within).bind fun _ tagged => by
    obtain ⟨ends, handle, suffix, same⟩ := tagged
    refine Safe.pure (((read.moveTo ends).allowKey _).push _ ?_)
    rw [same]
    exact mark

theorem takeToken_safe (read : s.In text) : SafeStep text s.takeToken := by
  rw [takeToken]
  refine (read.skipBlank _).forgetPastKeys.bind fun s read => ?_
  have read := read.closeTo s.position.column
  generalize s.closeTo s.position.column = s at read
  refine .ite (fun _ => takeStreamEnd_safe read) fun _ => ?_
  refine .ite (fun _ => takeDirective_safe read) fun _ => ?_
  refine .ite (fun _ => takeSeparator_safe read trivial) fun _ => ?_
  refine .ite (fun _ => takeSeparator_safe read trivial) fun _ => ?_
  refine .ite (fun _ => takeFlowStart_safe read trivial) fun _ => ?_
  refine .ite (fun _ => takeFlowStart_safe read trivial) fun _ => ?_
  refine .ite (fun _ => takeFlowEnd_safe read trivial) fun _ => ?_
  refine .ite (fun _ => takeFlowEnd_safe read trivial) fun _ => ?_
  refine .ite (fun _ => takeFlowEntry_safe read) fun _ => ?_
  refine .ite (fun _ => takeBlockEntry_safe read) fun _ => ?_
  refine .ite (fun _ => takeKey_safe read) fun _ => ?_
  refine .ite (fun _ => takeValue_safe read) fun _ => ?_
  refine .ite (fun _ => takeAnchor_safe read fun _ => trivial) fun _ => ?_
  refine .ite (fun _ => takeAnchor_safe read fun _ => trivial) fun _ => ?_
  refine .ite (fun mark => ?_) fun _ => ?_
  · exact takeTag_safe read (read.within.mem (by decide) (beq_iff_eq.1 mark))
  refine .ite (fun _ => takeBlockScalar_safe read) fun _ => ?_
  refine .ite (fun _ => takeQuoted_safe read) fun _ => ?_
  exact .ite (fun _ => takePlain_safe read) fun _ => .malformed

attribute [local irreducible] takeToken in
theorem run_succ (fuel : Nat) (s : Lexer) :
    run (fuel + 1) s =
      match s.takeToken with
      | .error fault => s.reversedTokens.reverse.take s.settled ++ [.broken fault]
      | .ok next => if next.isDone then next.reversedTokens.reverse else run fuel next := rfl

theorem run_in (fuel : Nat) (read : s.In text) : ∀ token ∈ run fuel s, token.In text := by
  induction fuel generalizing s with
  | zero =>
    intro token listed
    rcases List.mem_cons.1 (List.mem_reverse.1 listed) with rfl | before
    · exact .inl rfl
    · exact read.tokens token before
  | succ fuel ih =>
    have safe := takeToken_safe read
    rw [run_succ]
    generalize s.takeToken = taken at safe ⊢
    cases taken with
    | error fault =>
      -- Only what no key can be put in front of any more is given before the fault.
      dsimp only
      intro token listed
      rcases List.mem_append.1 listed with before | last
      · exact read.tokens token (List.mem_reverse.1 (List.mem_of_mem_take before))
      · rw [List.mem_singleton.1 last]
        exact safe
    | ok next =>
      dsimp only
      by_cases done : next.isDone = true
      · simp only [done, ↓reduceIte, List.mem_reverse]
        exact safe.tokens
      · simp only [done, Bool.false_eq_true, ↓reduceIte]
        exact ih safe

end Lexer

theorem tokens_in (text : List Char) : ∀ token ∈ tokens text, token.In text := by
  have start : (Lexer.start text).In text := ⟨.start text, nofun⟩
  rw [tokens]
  refine Lexer.run_in _ ?_
  split
  · exact start.moveTo start.within.next
  · exact start

end SchemaScript.Yaml

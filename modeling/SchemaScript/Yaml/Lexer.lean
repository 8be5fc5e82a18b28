import SchemaScript.Yaml.BlockScalar
import SchemaScript.Yaml.FlowScalar
import SchemaScript.Yaml.Property

/-!
From text to tokens. Indentation opens and closes blocks. A node on one line may turn out to be a
key when a colon follows it, so the places of such nodes are remembered; the key mark is then put
in before the node.
-/

namespace SchemaScript.Yaml

structure KeyCandidate where
  place : Nat
  isRequired : Bool
  index : Nat
  line : Nat
  column : Nat
deriving Repr

structure Lexer where
  position : Position
  flowLevel : Nat
  indent : Int
  outerIndents : List Int
  keyAllowed : Bool
  candidates : List (Nat × KeyCandidate)
  reversedTokens : List Token
  isDone : Bool

namespace Lexer

def start (text : List Char) : Lexer where
  position := .start text
  flowLevel := 0
  indent := -1
  outerIndents := []
  keyAllowed := true
  candidates := []
  reversedTokens := []
  isDone := false

abbrev Step := Except Fault Lexer

def inFlow (s : Lexer) : Bool := s.flowLevel != 0

def push (s : Lexer) (token : Token) : Lexer :=
  { s with reversedTokens := token :: s.reversedTokens }

def insert (s : Lexer) (place : Nat) (token : Token) : Lexer :=
  let later := s.reversedTokens.length - place
  { s with reversedTokens :=
      s.reversedTokens.take later ++ token :: s.reversedTokens.drop later }

def moveTo (s : Lexer) (position : Position) : Lexer := { s with position := position }

def allowKey (s : Lexer) (allowed : Bool) : Lexer := { s with keyAllowed := allowed }

/-- A key ends on its line and within 1024 characters. -/
def isPast (position : Position) (key : KeyCandidate) : Bool :=
  key.line != position.line || 1024 < position.index - key.index

def forgetPastKeys (s : Lexer) : Step :=
  if s.candidates.any fun entry => isPast s.position entry.2 && entry.2.isRequired then
    .error .malformed
  else
    .ok { s with candidates := s.candidates.filter fun entry => !isPast s.position entry.2 }

def forgetKey (s : Lexer) : Step :=
  match s.candidates.lookup s.flowLevel with
  | none => .ok s
  | some key =>
    if key.isRequired then .error .malformed
    else .ok { s with candidates := s.candidates.filter (·.1 != s.flowLevel) }

def noteKey (s : Lexer) : Step :=
  if s.keyAllowed then do
    let s ← s.forgetKey
    let key : KeyCandidate :=
      { place := s.reversedTokens.length
        isRequired := !s.inFlow && s.indent == s.position.column
        index := s.position.index
        line := s.position.line
        column := s.position.column }
    return { s with candidates := s.candidates ++ [(s.flowLevel, key)] }
  else .ok s

def closeBlocks (column : Int) : List Int → Lexer → Lexer
  | [], s => { s with outerIndents := [] }
  | outer :: rest, s =>
    if column < s.indent then closeBlocks column rest ({ s with indent := outer }.push .blockEnd)
    else { s with outerIndents := outer :: rest }

def closeTo (s : Lexer) (column : Int) : Lexer :=
  if s.inFlow then s else closeBlocks column s.outerIndents s

def openBlock (s : Lexer) (column : Nat) : Option Lexer :=
  if s.indent < column then
    some { s with indent := column, outerIndents := s.indent :: s.outerIndents }
  else none

/-- Moves past blanks, comments and breaks. Outside flow collections a key may begin on a new
line. -/
def skipBlank : (fuel : Nat) → Lexer → Lexer
  | 0, s => s
  | fuel + 1, s =>
    let position := s.position.skipSpaces.skipComment
    if isBreak position.current then
      skipBlank fuel ((s.moveTo position.next).allowKey (s.keyAllowed || !s.inFlow))
    else s.moveTo position

def takeStreamEnd (s : Lexer) : Step := do
  let s ← (s.closeTo (-1)).forgetKey
  return { s.push .streamEnd with isDone := true, candidates := [], keyAllowed := false }

def takeDirective (s : Lexer) : Step := do
  let s ← (s.closeTo (-1)).forgetKey
  let (directive, after) ← Property.directive s.position
  return ((s.moveTo after).allowKey false).push (.directive directive)

def takeSeparator (s : Lexer) (token : Token) : Step := do
  let s ← (s.closeTo (-1)).forgetKey
  return ((s.moveTo (s.position.skip 3)).allowKey false).push token

def takeFlowStart (s : Lexer) (token : Token) : Step := do
  let s ← s.noteKey
  return { (s.moveTo s.position.next).push token with
    flowLevel := s.flowLevel + 1, keyAllowed := true }

def takeFlowEnd (s : Lexer) (token : Token) : Step := do
  let s ← s.forgetKey
  return { (s.moveTo s.position.next).push token with
    flowLevel := s.flowLevel - 1, keyAllowed := false }

def takeFlowEntry (s : Lexer) : Step := do
  let s ← (s.allowKey true).forgetKey
  return (s.moveTo s.position.next).push .flowEntry

def beginBlock (s : Lexer) (token : Token) : Step :=
  if s.inFlow then .ok s
  else if !s.keyAllowed then .error .malformed
  else
    match s.openBlock s.position.column with
    | some opened => .ok (opened.push token)
    | none => .ok s

def takeBlockEntry (s : Lexer) : Step := do
  let s ← s.beginBlock .blockSequenceStart
  let s ← (s.allowKey true).forgetKey
  return (s.moveTo s.position.next).push .blockEntry

def takeKey (s : Lexer) : Step := do
  let s ← s.beginBlock .blockMappingStart
  let s ← (s.allowKey (!s.inFlow)).forgetKey
  return (s.moveTo s.position.next).push .key

def makeKey (s : Lexer) (key : KeyCandidate) : Lexer :=
  let s := { s with candidates := s.candidates.filter (·.1 != s.flowLevel) }
  let s := s.insert key.place .key
  let s :=
    if s.inFlow then s
    else
      match s.openBlock key.column with
      | some opened => opened.insert key.place .blockMappingStart
      | none => s
  s.allowKey false

def takeValue (s : Lexer) : Step := do
  let s ← (
    match s.candidates.lookup s.flowLevel with
    | some key => return s.makeKey key
    | none => do
      let s ← s.beginBlock .blockMappingStart
      (s.allowKey (!s.inFlow)).forgetKey
    : Step)
  return (s.moveTo s.position.next).push .value

def takeAnchor (s : Lexer) (token : String → Token) : Step := do
  let s ← s.noteKey
  let (name, after) ← Property.anchor s.position
  return ((s.moveTo after).allowKey false).push (token name)

def takeTag (s : Lexer) : Step := do
  let s ← s.noteKey
  let (token, after) ← Property.tag s.position
  return ((s.moveTo after).allowKey false).push token

def takeBlockScalar (s : Lexer) : Step := do
  let s ← (s.allowKey true).forgetKey
  let (content, after) ← BlockScalar.scan s.indent s.position
  return (s.moveTo after).push (.scalar (.ofChars content) false)

def takeQuoted (s : Lexer) : Step := do
  let s ← s.noteKey
  let (codes, after) ← QuotedScalar.scan s.position
  return ((s.moveTo after).allowKey false).push (.scalar (.ofCodes codes) false)

def takePlain (s : Lexer) : Step := do
  let s ← s.noteKey
  let scan := PlainScalar.scan s.inFlow (s.indent + 1).toNat s.position
  return ((s.moveTo scan.position).allowKey scan.afterBreak).push
    (.scalar (.ofChars scan.content) true)

/-- Whether a plain scalar may begin here. Some marks may begin one before what is no blank. -/
def plainBegins (s : Lexer) : Bool :=
  let c := s.position.current
  let isMark := "-?:,[]#&*!|>%@\x60".toList.contains c || c == '\x7b' || c == '\x7d' ||
    c == QuotedScalar.singleMark || c == QuotedScalar.doubleMark
  !(endsWord c || isMark) ||
    (!endsWord (s.position.look 1) && (c == '-' || (!s.inFlow && (c == '?' || c == ':'))))

def atSeparatorOf (s : Lexer) (mark : Char) : Bool :=
  s.position.current == mark && s.position.column == 0 && s.position.atSeparator

def takeToken (s : Lexer) : Step := do
  let s := s.skipBlank (s.position.rest.length + 1)
  let s ← s.forgetPastKeys
  let s := s.closeTo s.position.column
  let c := s.position.current
  let wordEnds := endsWord (s.position.look 1)
  if c == endMark then s.takeStreamEnd
  else if c == '%' && s.position.column == 0 then s.takeDirective
  else if s.atSeparatorOf '-' then s.takeSeparator .documentStart
  else if s.atSeparatorOf '.' then s.takeSeparator .documentEnd
  else if c == '[' then s.takeFlowStart .flowSequenceStart
  else if c == '\x7b' then s.takeFlowStart .flowMappingStart
  else if c == ']' then s.takeFlowEnd .flowSequenceEnd
  else if c == '\x7d' then s.takeFlowEnd .flowMappingEnd
  else if c == ',' then s.takeFlowEntry
  else if c == '-' && wordEnds then s.takeBlockEntry
  else if c == '?' && (s.inFlow || wordEnds) then s.takeKey
  else if c == ':' && (s.inFlow || wordEnds) then s.takeValue
  else if c == '*' then s.takeAnchor .alias
  else if c == '&' then s.takeAnchor .anchor
  else if c == '!' then s.takeTag
  else if (c == '|' || c == '>') && !s.inFlow then s.takeBlockScalar
  else if c == QuotedScalar.singleMark || c == QuotedScalar.doubleMark then s.takeQuoted
  else if s.plainBegins then s.takePlain
  else throw .malformed

/-- How many tokens can be taken without reading on. Of a node that may still turn out to be a key
it is not known what token comes first. -/
def settled (s : Lexer) : Nat :=
  let undecided := s.candidates.filter fun entry => !isPast s.position entry.2
  (undecided.map (·.2.place)).foldl min s.reversedTokens.length

def run : (fuel : Nat) → Lexer → List Token
  | 0, s => (Token.broken .malformed :: s.reversedTokens).reverse
  | fuel + 1, s =>
    match s.takeToken with
    | .error fault => s.reversedTokens.reverse.take s.settled ++ [.broken fault]
    | .ok next => if next.isDone then next.reversedTokens.reverse else run fuel next

end Lexer

def tokens (text : List Char) : List Token :=
  let lexer := Lexer.start text
  let lexer :=
    if lexer.position.current == byteOrderMark then lexer.moveTo lexer.position.next
    else lexer
  lexer.run (text.length + 2)

end SchemaScript.Yaml

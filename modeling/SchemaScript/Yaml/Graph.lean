import SchemaScript.Yaml.Lexer
import SchemaScript.Yaml.Tag

/-!
From tokens to nodes. Nodes refer to each other by number, since an alias may name any node before
it, even one that is not complete yet.
-/

namespace SchemaScript.Yaml

inductive Content
  | scalar (text : ScalarText)
  | sequence (items : List Nat)
  | mapping (entries : List (Nat × Nat))
deriving DecidableEq, Repr

structure Node where
  tag : String
  content : Content
deriving DecidableEq, Repr

abbrev Graph := Array Node

structure Reading where
  tokens : List Token
  graph : Graph
  anchors : List (String × Nat)
  handles : List (String × String)

abbrev Read := StateT Reading (Except Fault)

namespace Read

def fail {α : Type} : Read α := throw .malformed

def peek : Read Token := do
  match (← get).tokens with
  | .broken fault :: _ => throw fault
  | token :: _ => return token
  | [] => fail

def drop : Read Unit := modify fun reading => { reading with tokens := reading.tokens.drop 1 }

def sees (tokens : List Token) : Read Bool := return tokens.contains (← peek)

def accept (token : Token) : Read Bool := do
  if (← peek) == token then
    drop
    return true
  return false

def expect (token : Token) : Read Unit := do
  if !(← accept token) then fail

def addNode (node : Node) : Read Nat := do
  let graph := (← get).graph
  modify fun reading => { reading with graph := reading.graph.push node }
  return graph.size

def setContent (number : Nat) (content : Content) : Read Unit :=
  modify fun reading =>
    { reading with graph := reading.graph.modify number ({ · with content := content }) }

def addAnchor (anchor : Option String) (number : Nat) : Read Unit :=
  match anchor with
  | some name =>
    modify fun reading => { reading with anchors := (name, number) :: reading.anchors }
  | none => pure ()

def emptyScalar : Read Nat := addNode ⟨commonTag "null", .scalar (.text "")⟩

structure Properties where
  anchor : Option String
  tag : Option String

def fullTag (handle : Option String) (suffix : String) : Read String := do
  match handle with
  | none => return suffix
  | some name =>
    match (← get).handles.lookup name with
    | some lead => return lead ++ suffix
    | none => fail

def takeAnchor? : Read (Option String) := do
  match ← peek with
  | .anchor name =>
    drop
    return some name
  | _ => return none

def takeTag? : Read (Option (Option String × String)) := do
  match ← peek with
  | .tag handle suffix =>
    drop
    return some (handle, suffix)
  | _ => return none

def properties : Read Properties := do
  let first ← takeAnchor?
  let tag ← takeTag?
  let anchor ← if first.isNone && tag.isSome then takeAnchor? else pure first
  let tag ← tag.mapM fun (handle, suffix) => fullTag handle suffix
  if let some name := anchor then
    if ((← get).anchors.lookup name).isSome then fail
  return ⟨anchor, tag⟩

/-- The tag of a scalar. A lone exclamation mark asks for the type by form even inside quotes. -/
def scalarTag (tag : Option String) (text : ScalarText) (plain : Bool) : String :=
  let byForm :=
    match text with
    | .text value => tagOfForm value
    | .broken _ => commonTag "str"
  match tag with
  | none => if plain then byForm else commonTag "str"
  | some "!" => byForm
  | some tag => tag

def collectionTag (tag : Option String) (default : String) : String :=
  match tag with
  | none => commonTag default
  | some "!" => commonTag default
  | some tag => tag

/-- Adds a collection whose content is read next, so that it can be referred to inside. -/
def collection (properties : Properties) (kind : String) (content : Content)
    (read : Read Content) : Read Nat := do
  let number ← addNode ⟨collectionTag properties.tag kind, content⟩
  addAnchor properties.anchor number
  setContent number (← read)
  return number

inductive Place
  | flow
  | block
  | indentless
deriving DecidableEq

mutual

def node (place : Place) : (fuel : Nat) → Read Nat
  | 0 => fail
  | fuel + 1 => do
    if let .alias name ← peek then
      drop
      match (← get).anchors.lookup name with
      | some number => return number
      | none => fail
    else
      let properties ← properties
      let inBlock := place != .flow
      match ← peek with
      | .blockEntry =>
        if place == .indentless then
          collection properties "seq" (.sequence []) (.sequence <$> indentlessItems fuel)
        else bare properties
      | .scalar text plain =>
        drop
        let number ← addNode ⟨scalarTag properties.tag text plain, .scalar text⟩
        addAnchor properties.anchor number
        return number
      | .flowSequenceStart =>
        drop
        collection properties "seq" (.sequence []) (.sequence <$> flowItems true fuel)
      | .flowMappingStart =>
        drop
        collection properties "map" (.mapping []) (.mapping <$> flowEntries true fuel)
      | .blockSequenceStart =>
        if inBlock then
          drop
          collection properties "seq" (.sequence []) (.sequence <$> blockItems fuel)
        else bare properties
      | .blockMappingStart =>
        if inBlock then
          drop
          collection properties "map" (.mapping []) (.mapping <$> blockEntries fuel)
        else bare properties
      | _ => bare properties
termination_by structural fuel => fuel

def bare (properties : Properties) : Read Nat := do
  if properties.anchor.isNone && properties.tag.isNone then fail
  let tag :=
    match properties.tag with
    | none => commonTag "null"
    | some "!" => commonTag "null"
    | some tag => tag
  let number ← addNode ⟨tag, .scalar (.text "")⟩
  addAnchor properties.anchor number
  return number

def nodeUnless (stops : List Token) (place : Place) : (fuel : Nat) → Read Nat
  | 0 => fail
  | fuel + 1 => do
    if ← sees stops then emptyScalar else node place fuel
termination_by structural fuel => fuel

def blockItems : (fuel : Nat) → Read (List Nat)
  | 0 => fail
  | fuel + 1 => do
    if ← accept .blockEntry then
      let item ← nodeUnless [.blockEntry, .blockEnd] .block fuel
      return item :: (← blockItems fuel)
    expect .blockEnd
    return []
termination_by structural fuel => fuel

/-- Items of a sequence that is indented no more than the mapping around it. -/
def indentlessItems : (fuel : Nat) → Read (List Nat)
  | 0 => fail
  | fuel + 1 => do
    if ← accept .blockEntry then
      let item ← nodeUnless [.blockEntry, .key, .value, .blockEnd] .block fuel
      return item :: (← indentlessItems fuel)
    return []
termination_by structural fuel => fuel

def valueUnless (stops : List Token) (place : Place) : (fuel : Nat) → Read Nat
  | 0 => fail
  | fuel + 1 => do
    if ← accept .value then nodeUnless stops place fuel else emptyScalar
termination_by structural fuel => fuel

def blockEntries : (fuel : Nat) → Read (List (Nat × Nat))
  | 0 => fail
  | fuel + 1 => do
    if ← accept .key then
      let key ← nodeUnless [.key, .value, .blockEnd] .indentless fuel
      let value ← valueUnless [.key, .value, .blockEnd] .indentless fuel
      return (key, value) :: (← blockEntries fuel)
    expect .blockEnd
    return []
termination_by structural fuel => fuel

/-- Items of a flow sequence. An item that begins with a key mark is a mapping of one entry. -/
def flowItems (isFirst : Bool) : (fuel : Nat) → Read (List Nat)
  | 0 => fail
  | fuel + 1 => do
    if ← accept .flowSequenceEnd then return []
    if !isFirst then expect .flowEntry
    if ← accept .flowSequenceEnd then return []
    let item ←
      if ← accept .key then
        collection ⟨none, none⟩ "map" (.mapping []) (do
          let key ← nodeUnless [.value, .flowEntry, .flowSequenceEnd] .flow fuel
          let value ← valueUnless [.flowEntry, .flowSequenceEnd] .flow fuel
          return .mapping [(key, value)])
      else node .flow fuel
    return item :: (← flowItems false fuel)
termination_by structural fuel => fuel

def flowEntries (isFirst : Bool) : (fuel : Nat) → Read (List (Nat × Nat))
  | 0 => fail
  | fuel + 1 => do
    if ← accept .flowMappingEnd then return []
    if !isFirst then expect .flowEntry
    if ← accept .flowMappingEnd then return []
    let entry ←
      if ← accept .key then do
        let key ← nodeUnless [.value, .flowEntry, .flowMappingEnd] .flow fuel
        let value ← valueUnless [.flowEntry, .flowMappingEnd] .flow fuel
        pure (key, value)
      else do
        let key ← node .flow fuel
        pure (key, ← emptyScalar)
    return entry :: (← flowEntries false fuel)
termination_by structural fuel => fuel

end

def defaultHandles : List (String × String) := [("!", "!"), ("!!", commonTag "")]

/-- Directives before a document. There may be one version, which must be 1, and each handle may be
set once. -/
def directives (versionSeen : Bool) : (fuel : Nat) → Read Unit
  | 0 => fail
  | fuel + 1 => do
    match ← peek with
    | .directive (.version major _) =>
      if versionSeen || major != 1 then fail
      drop
      directives true fuel
    | .directive (.tag handle lead) =>
      if ((← get).handles.lookup handle).isSome then fail
      drop
      modify fun reading => { reading with handles := (handle, lead) :: reading.handles }
      directives versionSeen fuel
    | .directive .other =>
      drop
      directives versionSeen fuel
    | _ => pure ()

def isDirective : Token → Bool
  | .directive _ => true
  | _ => false

def document (fuel : Nat) : Read (Option Nat) := do
  let first ← peek
  if first == .streamEnd then return none
  let root ← (
    if isDirective first || first == .documentStart then do
      directives false fuel
      modify fun reading => { reading with handles := reading.handles ++ defaultHandles }
      expect .documentStart
      let next ← peek
      if isDirective next || [.documentStart, .documentEnd, .streamEnd].contains next then
        emptyScalar
      else node .block fuel
    else do
      modify fun reading => { reading with handles := defaultHandles }
      node .block fuel)
  ends fuel
  return some root
where
  ends : (fuel : Nat) → Read Unit
    | 0 => fail
    | fuel + 1 => do
      if ← accept .documentEnd then ends fuel else expect .streamEnd

end Read

def graphOf (text : List Char) : Except Fault (Graph × Option Nat) := do
  let tokens := tokens text
  let (root, reading) ← (Read.document (3 * tokens.length + 3)).run ⟨tokens, #[], [], []⟩
  return (reading.graph, root)

end SchemaScript.Yaml

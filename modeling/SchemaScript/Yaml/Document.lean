import SchemaScript.Yaml.Graph
import SchemaScript.Yaml.Position
import SchemaScript.Yaml.ScalarValue

/-!
From nodes to the value of a document. Nodes are taken in the order of their distance from the
root, and the first one that has no value is the fault of the document. An alias stands for the
node that it names, wherever it occurs.
-/

namespace SchemaScript.Yaml

inductive Shape
  | single (value : Value)
  | items (nodes : List Nat)
  | pairs (entries : List (Nat × Nat))
  | members (nodes : List Nat)
  | mapping (entries : List (Nat × Nat))

namespace Graph

variable (graph : Graph)

def tagAt (number : Nat) : String :=
  match graph[number]? with
  | some node => node.tag
  | none => ""

def isCollection (tag : String) : Bool :=
  ["seq", "map", "set", "omap", "pairs"].any fun name => tag == commonTag name

def textAt : (fuel : Nat) → Nat → Except Fault ScalarText
  | 0, _ => .error .malformed
  | fuel + 1, number =>
    match graph[number]? with
    | some ⟨_, .scalar text⟩ => .ok text
    | some ⟨_, .mapping entries⟩ =>
      match entries.find? fun entry => graph.tagAt entry.1 == commonTag "value" with
      | some (_, value) => textAt fuel value
      | none => .error .malformed
    | _ => .error .malformed

def textFor (tag : String) (number : Nat) : Except Fault ScalarText := do
  let text ← graph.textAt (graph.size + 1) number
  match graph[number]? with
  | some ⟨_, .mapping _⟩ => if tag = commonTag "timestamp" then throw .timestampMapping
  | _ => pure ()
  return text

def isMerge (entry : Nat × Nat) : Bool := graph.tagAt entry.1 == commonTag "merge"

def ownEntries : Content → List (Nat × Nat)
  | .mapping entries => entries.filter fun entry => !graph.isMerge entry
  | _ => []

/-- The mappings that an entry merges. Of several, the first one prevails and so comes last. -/
def merged (value : Nat) : List Nat :=
  match graph[value]? with
  | some ⟨_, .sequence items⟩ => items.reverse
  | _ => [value]

/-- The entries of a mapping after those that it merges. A mapping that is being merged already
merges no more. -/
def entriesAt : (fuel : Nat) → (around : List Nat) → Nat → Except Fault (List (Nat × Nat))
  | 0, _, _ => .error .malformed
  | fuel + 1, around, number =>
    match graph[number]? with
    | some ⟨_, .mapping entries⟩ => do
      let own := graph.ownEntries (.mapping entries)
      if around.contains number then return own
      let sources := (entries.filter graph.isMerge).flatMap fun entry => graph.merged entry.2
      let others ← sources.mapM (entriesAt fuel (number :: around))
      return others.flatten ++ own
    | _ => .error .malformed

/-- Nodes to take in turn, each with whether it is a key, and the fault that comes after them, if
any. -/
structure Turn where
  nodes : List (Nat × Bool)
  fault? : Option Fault

/-- Keys and values up to the first key that cannot be one. -/
def turnOfEntries : List (Nat × Nat) → Turn
  | [] => ⟨[], none⟩
  | (key, value) :: rest =>
    if isCollection (graph.tagAt key) then ⟨[(key, true)], some .malformed⟩
    else
      let turn := turnOfEntries rest
      ⟨(key, true) :: (value, false) :: turn.nodes, turn.fault?⟩

def pairsOf : List Nat → List (Nat × Nat) × Option Fault
  | [] => ([], none)
  | item :: rest =>
    match graph[item]? with
    | some ⟨_, .mapping [entry]⟩ =>
      let (entries, fault?) := pairsOf rest
      (entry :: entries, fault?)
    | _ => ([], some .malformed)

def collectionAt (number : Nat) : Except Fault (Shape × Turn) :=
  let tag := graph.tagAt number
  if tag = commonTag "map" then do
    let entries ← graph.entriesAt (graph.size + 1) [] number
    return (.mapping entries, graph.turnOfEntries entries)
  else if tag = commonTag "set" then do
    let entries ← graph.entriesAt (graph.size + 1) [] number
    return (.members (entries.map (·.1)), graph.turnOfEntries entries)
  else
    match graph[number]? with
    | some ⟨_, .sequence nodes⟩ =>
      if tag = commonTag "seq" then .ok (.items nodes, ⟨nodes.map (·, false), none⟩)
      else
        let (entries, fault?) := graph.pairsOf nodes
        .ok (.pairs entries, ⟨entries.flatMap fun (k, v) => [(k, false), (v, false)], fault?⟩)
    | _ => .error .malformed

end Graph

structure Taking where
  shapes : Array (Option Shape)
  waiting : List Nat

namespace Taking

variable (graph : Graph)

def take (taking : Taking) (number : Nat) (asKey : Bool) : Except Fault Taking := do
  if (taking.shapes[number]?.join).isSome then return taking
  let tag := graph.tagAt number
  if Graph.isCollection tag then
    return ⟨taking.shapes.modify number fun _ => some (.items []), taking.waiting ++ [number]⟩
  let tag := if asKey && tag == commonTag "value" then commonTag "str" else tag
  let value ← scalarValue tag (← graph.textFor tag number)
  return ⟨taking.shapes.modify number fun _ => some (.single value), taking.waiting⟩

def run : (fuel : Nat) → Taking → Except Fault (Array (Option Shape))
  | 0, taking => .ok taking.shapes
  | fuel + 1, taking =>
    match taking.waiting with
    | [] => .ok taking.shapes
    | number :: waiting => do
      let (shape, turn) ← graph.collectionAt number
      let taking : Taking := ⟨taking.shapes.modify number fun _ => some shape, waiting⟩
      let taking ←
        turn.nodes.foldlM (fun taking (node, asKey) => taking.take graph node asKey) taking
      match turn.fault? with
      | some fault => throw fault
      | none => run fuel taking

end Taking

def Shape.value (below : Array Value) : Shape → Value
  | .single value => value
  | .items nodes => .list (nodes.map valueAt)
  | .pairs entries => .list (entries.map fun (k, v) => .pair (valueAt k) (valueAt v))
  | .members nodes =>
    .set ((nodes.foldl (fun set k => Value.putEntry set (valueAt k) ()) []).map (·.1))
  | .mapping entries =>
    .mapping (entries.foldl (fun map (k, v) => Value.putEntry map (valueAt k) (valueAt v)) [])
where
  valueAt (number : Nat) : Value := (below[number]?).getD .null

def valuesToDepth (shapes : Array Shape) : (depth : Nat) → Array Value
  | 0 => shapes.map fun _ => .null
  | depth + 1 => shapes.map (Shape.value (valuesToDepth shapes depth))

/-- How deep a document is looked into. Definitions end long before that, but a node may contain
itself. -/
def greatestDepth : Nat := 64

def read (text : List Char) : Except Fault Value := do
  if !text.all isAllowed then throw .malformed
  let (graph, root?) ← graphOf text
  let some root := root? | return .null
  let taking ← Taking.take graph ⟨graph.map fun _ => none, []⟩ root false
  let shapes ← taking.run graph (graph.size + 1)
  let values :=
    valuesToDepth (shapes.map (·.getD (.single .null))) (min graph.size greatestDepth + 1)
  return (values[root]?).getD .null

end SchemaScript.Yaml

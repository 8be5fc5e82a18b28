import SchemaScript.Proofs.Tokens
import SchemaScript.Yaml.Document

/-!
The nodes of a text without tags. A collection has the tag of its kind, and a scalar that of its
form or of plain text; a collection that is still being read keeps its tag to the end.
-/

namespace SchemaScript.Yaml

def Node.In (text : List Char) (node : Node) : Prop :=
  match node.content with
  | .scalar value =>
    node.tag = commonTag "null" ∨ node.tag = commonTag "str" ∨
      ∃ content, value = .text content ∧ PlainIn text content.toList ∧ node.tag = tagOfForm content
  | _ => Graph.isCollection node.tag = true

def Graph.In (text : List Char) (graph : Graph) : Prop :=
  ∀ (n : Nat) (node : Node), graph[n]? = some node → node.In text

namespace Reading

variable {text : List Char} {reading after last : Reading}

structure In (text : List Char) (reading : Reading) : Prop where
  tokens : ∀ token ∈ reading.tokens, token.In text
  graph : reading.graph.In text

def tag? (reading : Reading) (n : Nat) : Option String := reading.graph[n]?.map (·.tag)

structure Leads (text : List Char) (reading after : Reading) : Prop where
  fits : after.In text
  kept : ∀ n tag, reading.tag? n = some tag → after.tag? n = some tag

theorem In.leads (fits : reading.In text) : reading.Leads text reading := ⟨fits, fun _ _ => id⟩

theorem Leads.trans (first : reading.Leads text after) (second : after.Leads text last) :
    reading.Leads text last :=
  ⟨second.fits, fun n tag tagged => second.kept n tag (first.kept n tag tagged)⟩

end Reading

namespace Read

variable {text : List Char} {α β : Type} {good : α → Prop} {better : β → Prop}

/-- Reading some nodes of a text without tags gives something good and goes on to another reading,
or the fault is expected. -/
def Sound (text : List Char) (good : α → Prop) (read : Read α) : Prop :=
  ∀ reading : Reading, reading.In text →
    Safe text (fun result => good result.1 ∧ reading.Leads text result.2) (read.run reading)

namespace Sound

theorem pure {a : α} (holds : good a) : Sound text good (Pure.pure a) :=
  fun _ fits => ⟨holds, fits.leads⟩

theorem fail : Sound text good fail := fun _ _ => .inl rfl

theorem fail_bind {next : α → Read β} : Sound text better (Read.fail >>= next) :=
  fun _ _ => .inl rfl

theorem bind {read : Read α} {next : α → Read β} (sound : Sound text good read)
    (goes : ∀ a, good a → Sound text better (next a)) : Sound text better (read >>= next) := by
  intro reading fits
  rw [StateT.run_bind]
  refine (sound reading fits).bind fun result made => ?_
  exact (goes result.1 made.1 result.2 made.2.fits).mono fun _ later =>
    ⟨later.1, made.2.trans later.2⟩

theorem map {read : Read α} {f : α → β} (sound : Sound text good read)
    (goes : ∀ a, good a → better (f a)) : Sound text better (f <$> read) := by
  rw [map_eq_pure_bind]
  exact sound.bind fun a holds => pure (goes a holds)

theorem ite {c : Prop} [Decidable c] {first second : Read α} (yes : c → Sound text good first)
    (no : ¬ c → Sound text good second) : Sound text good (if c then first else second) := by
  split
  · next holds => exact yes holds
  · next fails => exact no fails

end Sound

/-- The same of readings in which a node has a tag. -/
def SoundWith (text : List Char) (number : Nat) (tag : String) (good : α → Prop)
    (read : Read α) : Prop :=
  ∀ reading : Reading, reading.In text → reading.tag? number = some tag →
    Safe text (fun result => good result.1 ∧ reading.Leads text result.2) (read.run reading)

theorem Sound.with {read : Read α} (sound : Sound text good read) (number : Nat) (tag : String) :
    SoundWith text number tag good read := fun reading fits _ => sound reading fits

theorem SoundWith.bind {number : Nat} {tag : String} {read : Read α} {next : α → Read β}
    (sound : SoundWith text number tag good read)
    (goes : ∀ a, good a → SoundWith text number tag better (next a)) :
    SoundWith text number tag better (read >>= next) := by
  intro reading fits tagged
  rw [StateT.run_bind]
  refine (sound reading fits tagged).bind fun result made => ?_
  have still := made.2.kept number tag tagged
  exact (goes result.1 made.1 result.2 made.2.fits still).mono fun _ later =>
    ⟨later.1, made.2.trans later.2⟩

theorem get_sound : Sound text (Reading.In text) get := fun _ fits => ⟨fits, fits.leads⟩

theorem modify_sound {f : Reading → Reading} (tokens : ∀ r, (f r).tokens = r.tokens)
    (graph : ∀ r, (f r).graph = r.graph) : Sound text Anything (modify f : Read PUnit) := by
  intro reading fits
  refine ⟨trivial, ⟨?_, ?_⟩, fun n tag tagged => ?_⟩
  · rw [tokens]
    exact fits.tokens
  · rw [graph]
    exact fits.graph
  · rw [Reading.tag?, graph]
    exact tagged

theorem peek_sound : Sound text (Token.In text) peek := by
  refine get_sound.bind fun reading fits => ?_
  split
  · next fault rest listed =>
    intro _ _
    exact fits.tokens (.broken fault) (by rw [listed]; exact List.mem_cons_self)
  · next token rest _ listed =>
    exact .pure (fits.tokens token (by rw [listed]; exact List.mem_cons_self))
  · exact .fail

theorem drop_sound : Sound text Anything drop := fun _ fits =>
  ⟨trivial, ⟨fun token listed => fits.tokens token (List.mem_of_mem_drop listed), fits.graph⟩,
    fun _ _ => id⟩

theorem sees_sound (tokens : List Token) : Sound text Anything (sees tokens) :=
  peek_sound.bind fun _ _ => .pure trivial

theorem accept_sound (token : Token) : Sound text Anything (accept token) :=
  peek_sound.bind fun _ _ =>
    .ite (fun _ => drop_sound.bind fun _ _ => .pure trivial) fun _ => .pure trivial

theorem expect_sound (token : Token) : Sound text Anything (expect token) :=
  (accept_sound token).bind fun _ _ => .ite (fun _ => .fail) fun _ => .pure trivial

theorem leads_push {reading : Reading} (fits : reading.In text) {node : Node}
    (added : node.In text) :
    reading.Leads text { reading with graph := reading.graph.push node } := by
  refine ⟨⟨fits.tokens, fun n other found => ?_⟩, fun n tag tagged => ?_⟩
  · rw [Array.getElem?_push] at found
    split at found
    · cases found
      exact added
    · exact fits.graph n other found
  · obtain ⟨other, found, rfl⟩ := Option.map_eq_some_iff.1 tagged
    have inside : n ≠ reading.graph.size := by
      rintro rfl
      simp at found
    rw [Reading.tag?, Array.getElem?_push, if_neg inside, found]
    rfl

theorem addNode_sound {node : Node} (added : node.In text) : Sound text Anything (addNode node) :=
  fun _ fits => ⟨trivial, leads_push fits added⟩

theorem addAnchor_sound (anchor : Option String) (number : Nat) :
    Sound text Anything (addAnchor anchor number) := by
  cases anchor with
  | none => exact .pure trivial
  | some name => exact modify_sound (fun _ => rfl) fun _ => rfl

theorem emptyScalar_sound : Sound text Anything emptyScalar := addNode_sound (.inl rfl)

theorem takeAnchor?_sound : Sound text Anything takeAnchor? := by
  refine peek_sound.bind fun token _ => ?_
  split
  · exact drop_sound.bind fun _ _ => .pure trivial
  · exact .pure trivial

section Tagless

variable (tagless : '!' ∉ text)

include tagless

theorem takeTag?_sound : Sound text (· = none) takeTag? := by
  refine peek_sound.bind fun token fits => ?_
  split
  · exact absurd fits tagless
  · exact .pure rfl

theorem properties_sound : Sound text (fun found => found.tag = none) properties := by
  refine takeAnchor?_sound.bind fun first _ => (takeTag?_sound tagless).bind ?_
  rintro _ rfl
  have named (name : String) : Sound text (fun found => found.tag = none) (do
      if ((← get).anchors.lookup name).isSome then fail
      return (⟨some name, none⟩ : Properties)) :=
    get_sound.bind fun _ _ => .ite (fun _ => .fail_bind) fun _ => .pure rfl
  refine .ite (fun _ => takeAnchor?_sound.bind fun anchor _ => ?_) fun _ => ?_
  · cases anchor with
    | none => exact Sound.pure rfl
    | some name => exact named name
  · cases first with
    | none => exact Sound.pure rfl
    | some name => exact named name

end Tagless

theorem bare_sound {found : Properties} (untagged : found.tag = none) :
    Sound text Anything (bare found) := by
  have empty : Sound text Anything (do
      let number ← addNode ⟨commonTag "null", .scalar (.text "")⟩
      addAnchor found.anchor number
      return number) :=
    emptyScalar_sound.bind fun number _ => (addAnchor_sound _ number).bind fun _ _ => .pure trivial
  rw [bare, untagged]
  exact .ite (fun _ => .fail_bind) fun _ => empty

theorem scalar_in {value : ScalarText} {plain : Bool} (fits : (Token.scalar value plain).In text) :
    (Node.mk (scalarTag none value plain) (.scalar value)).In text := by
  cases plain with
  | false => exact .inr (.inl rfl)
  | true =>
    cases value with
    | text content => exact .inr (.inr ⟨content, rfl, fits, rfl⟩)
    | broken codes => exact .inr (.inl rfl)

def Holds : Content → Prop
  | .scalar _ => False
  | _ => True

theorem collection_in {tag : String} {content : Content} (holds : Holds content)
    (kind : Graph.isCollection tag = true) : (Node.mk tag content).In text := by
  cases content with
  | scalar value => exact holds.elim
  | sequence items => exact kind
  | mapping entries => exact kind

theorem setContent_sound (number : Nat) {tag : String} (kind : Graph.isCollection tag = true)
    {content : Content} (holds : Holds content) :
    SoundWith text number tag Anything (setContent number content) := by
  intro reading fits tagged
  refine ⟨trivial, ⟨fits.tokens, fun n node found => ?_⟩, fun n other named => ?_⟩
  · rw [Array.getElem?_modify] at found
    split at found
    · next same =>
      obtain ⟨old, held, rfl⟩ := Option.map_eq_some_iff.1 found
      rw [← same, Reading.tag?] at *
      obtain ⟨_, held', rfl⟩ := Option.map_eq_some_iff.1 tagged
      cases held.symm.trans held'
      exact collection_in holds kind
    · exact fits.graph n node found
  · obtain ⟨old, held, rfl⟩ := Option.map_eq_some_iff.1 named
    rw [Reading.tag?, Array.getElem?_modify]
    split
    · rw [held]
      rfl
    · rw [held]
      rfl

/-- What is read after a new node, such as the content of a collection, finds the tag of that node
as it was given. -/
theorem addNode_bind_sound {node : Node} (added : node.In text) {next : Nat → Read β}
    (goes : ∀ number, SoundWith text number node.tag better (next number)) :
    Sound text better (addNode node >>= next) := by
  intro reading fits
  have first := leads_push fits added
  have tagged : Reading.tag? { reading with graph := reading.graph.push node }
      reading.graph.size = some node.tag := by
    rw [Reading.tag?, Array.getElem?_push_size]
    rfl
  have rest := goes reading.graph.size _ first.fits tagged
  exact rest.mono fun _ later => ⟨later.1, first.trans later.2⟩

theorem collection_sound {found : Properties} (untagged : found.tag = none) {kind : String}
    (named : Graph.isCollection (commonTag kind) = true) {content : Content}
    (holds : Holds content) {read : Read Content} (sound : Sound text Holds read) :
    Sound text Anything (collection found kind content read) := by
  have tag : collectionTag found.tag kind = commonTag kind := by
    rw [untagged]
    rfl
  have added : (Node.mk (commonTag kind) content).In text := collection_in holds named
  rw [collection, tag]
  refine addNode_bind_sound added fun number => ?_
  refine ((addAnchor_sound found.anchor number).with number _).bind fun _ _ => ?_
  refine (sound.with number _).bind fun filled whole => ?_
  refine (setContent_sound number named whole).bind fun _ _ => ?_
  exact (Sound.pure trivial).with number _

theorem sequence_sound {found : Properties} (untagged : found.tag = none)
    {read : Read (List Nat)} (items : Sound text Anything read) :
    Sound text Anything (collection found "seq" (.sequence []) (.sequence <$> read)) :=
  have holds : Holds (.sequence []) := trivial
  collection_sound untagged (by decide) holds (items.map fun _ _ => trivial)

theorem mapping_sound {found : Properties} (untagged : found.tag = none) {read : Read Content}
    (entries : Sound text Holds read) :
    Sound text Anything (collection found "map" (.mapping []) read) :=
  have holds : Holds (.mapping []) := trivial
  collection_sound untagged (by decide) holds entries

theorem Sound.entry (isFirst : Bool) {next : Unit → Read α} (goes : Sound text good (next ())) :
    Sound text good (if !isFirst then expect .flowEntry >>= next else next ()) :=
  .ite (fun _ => (expect_sound _).bind fun _ _ => goes) fun _ => goes

structure SoundAt (text : List Char) (fuel : Nat) : Prop where
  node : ∀ place, Sound text Anything (node place fuel)
  nodeUnless : ∀ stops place, Sound text Anything (nodeUnless stops place fuel)
  valueUnless : ∀ stops place, Sound text Anything (valueUnless stops place fuel)
  blockItems : Sound text Anything (blockItems fuel)
  indentlessItems : Sound text Anything (indentlessItems fuel)
  blockEntries : Sound text Anything (blockEntries fuel)
  flowItems : ∀ isFirst, Sound text Anything (flowItems isFirst fuel)
  flowEntries : ∀ isFirst, Sound text Anything (flowEntries isFirst fuel)

namespace SoundAt

variable {fuel : Nat} (sound : SoundAt text fuel)

include sound

theorem node_succ (tagless : '!' ∉ text) (place : Place) :
    Sound text Anything (Read.node place (fuel + 1)) := by
  rw [Read.node]
  refine peek_sound.bind fun first _ => ?_
  split
  · refine drop_sound.bind fun _ _ => get_sound.bind fun reading _ => ?_
    split
    · exact .pure trivial
    · exact .fail
  refine (properties_sound tagless).bind fun found untagged => ?_
  have bare : Sound text Anything (Read.bare found) := bare_sound untagged
  have entries {read : Read (List (Nat × Nat))} (sound : Sound text Anything read) :
      Sound text Holds (Content.mapping <$> read) := sound.map fun _ _ => trivial
  refine peek_sound.bind fun token fits => ?_
  split
  · exact .ite (fun _ => sequence_sound untagged sound.indentlessItems) fun _ => bare
  · refine drop_sound.bind fun _ _ => ?_
    rw [untagged]
    exact (addNode_sound (scalar_in fits)).bind fun number _ =>
      (addAnchor_sound _ number).bind fun _ _ => .pure trivial
  · exact drop_sound.bind fun _ _ => sequence_sound untagged (sound.flowItems true)
  · exact drop_sound.bind fun _ _ => mapping_sound untagged (entries (sound.flowEntries true))
  · refine .ite (fun _ => drop_sound.bind fun _ _ => ?_) fun _ => bare
    exact sequence_sound untagged sound.blockItems
  · refine .ite (fun _ => drop_sound.bind fun _ _ => ?_) fun _ => bare
    exact mapping_sound untagged (entries sound.blockEntries)
  · exact bare

theorem nodeUnless_succ (stops : List Token) (place : Place) :
    Sound text Anything (Read.nodeUnless stops place (fuel + 1)) := by
  rw [Read.nodeUnless]
  exact (sees_sound stops).bind fun _ _ =>
    .ite (fun _ => emptyScalar_sound) fun _ => sound.node place

theorem valueUnless_succ (stops : List Token) (place : Place) :
    Sound text Anything (Read.valueUnless stops place (fuel + 1)) := by
  rw [Read.valueUnless]
  exact (accept_sound .value).bind fun _ _ =>
    .ite (fun _ => sound.nodeUnless stops place) fun _ => emptyScalar_sound

theorem blockItems_succ : Sound text Anything (Read.blockItems (fuel + 1)) := by
  rw [Read.blockItems]
  refine (accept_sound .blockEntry).bind fun _ _ => .ite (fun _ => ?_) fun _ => ?_
  · exact (sound.nodeUnless _ _).bind fun _ _ => sound.blockItems.bind fun _ _ => .pure trivial
  · exact (expect_sound _).bind fun _ _ => .pure trivial

theorem indentlessItems_succ : Sound text Anything (Read.indentlessItems (fuel + 1)) := by
  rw [Read.indentlessItems]
  refine (accept_sound .blockEntry).bind fun _ _ => .ite (fun _ => ?_) fun _ => .pure trivial
  exact (sound.nodeUnless _ _).bind fun _ _ => sound.indentlessItems.bind fun _ _ => .pure trivial

theorem blockEntries_succ : Sound text Anything (Read.blockEntries (fuel + 1)) := by
  rw [Read.blockEntries]
  refine (accept_sound .key).bind fun _ _ => .ite (fun _ => ?_) fun _ => ?_
  · exact (sound.nodeUnless _ _).bind fun _ _ => (sound.valueUnless _ _).bind fun _ _ =>
      sound.blockEntries.bind fun _ _ => .pure trivial
  · exact (expect_sound _).bind fun _ _ => .pure trivial

theorem flowPair : Sound text Anything (collection ⟨none, none⟩ "map" (.mapping []) (do
    let key ← Read.nodeUnless [.value, .flowEntry, .flowSequenceEnd] .flow fuel
    let value ← Read.valueUnless [.flowEntry, .flowSequenceEnd] .flow fuel
    return .mapping [(key, value)])) :=
  mapping_sound rfl <| (sound.nodeUnless _ _).bind fun _ _ =>
    (sound.valueUnless _ _).bind fun _ _ => .pure trivial

theorem flowItems_succ (isFirst : Bool) :
    Sound text Anything (Read.flowItems isFirst (fuel + 1)) := by
  have others (item : Nat) : Sound text Anything (do
      return item :: (← Read.flowItems false fuel)) :=
    (sound.flowItems false).bind fun _ _ => .pure trivial
  rw [Read.flowItems]
  refine (accept_sound _).bind fun _ _ => .ite (fun _ => .pure trivial) fun _ => ?_
  refine Sound.entry isFirst ?_
  refine (accept_sound _).bind fun _ _ => .ite (fun _ => .pure trivial) fun _ => ?_
  refine (accept_sound _).bind fun _ _ => .ite (fun _ => ?_) fun _ => ?_
  · exact sound.flowPair.bind fun item _ => others item
  · exact (sound.node _).bind fun item _ => others item

theorem flowEntries_succ (isFirst : Bool) :
    Sound text Anything (Read.flowEntries isFirst (fuel + 1)) := by
  have others (entry : Nat × Nat) : Sound text Anything (do
      return entry :: (← Read.flowEntries false fuel)) :=
    (sound.flowEntries false).bind fun _ _ => .pure trivial
  rw [Read.flowEntries]
  refine (accept_sound _).bind fun _ _ => .ite (fun _ => .pure trivial) fun _ => ?_
  refine Sound.entry isFirst ?_
  refine (accept_sound _).bind fun _ _ => .ite (fun _ => .pure trivial) fun _ => ?_
  refine (accept_sound _).bind fun _ _ => .ite (fun _ => ?_) fun _ => ?_
  · exact (sound.nodeUnless _ _).bind fun key _ => (sound.valueUnless _ _).bind fun value _ =>
      others (key, value)
  · exact (sound.node _).bind fun key _ => emptyScalar_sound.bind fun value _ =>
      others (key, value)

end SoundAt

/-- Nodes of a text without tags. All readings call each other with less fuel. -/
theorem soundAt (tagless : '!' ∉ text) (fuel : Nat) : SoundAt text fuel := by
  induction fuel with
  | zero =>
    exact ⟨fun _ => .fail, fun _ _ => .fail, fun _ _ => .fail, .fail, .fail, .fail, fun _ => .fail,
      fun _ => .fail⟩
  | succ fuel ih =>
    exact ⟨ih.node_succ tagless, ih.nodeUnless_succ, ih.valueUnless_succ, ih.blockItems_succ,
      ih.indentlessItems_succ, ih.blockEntries_succ, ih.flowItems_succ, ih.flowEntries_succ⟩

theorem directives_sound (versionSeen : Bool) (fuel : Nat) :
    Sound text Anything (directives versionSeen fuel) := by
  induction fuel generalizing versionSeen with
  | zero => exact .fail
  | succ fuel ih =>
    rw [directives]
    refine peek_sound.bind fun token _ => ?_
    split
    · exact .ite (fun _ => .fail_bind) fun _ => drop_sound.bind fun _ _ => ih true
    · refine get_sound.bind fun reading _ => .ite (fun _ => .fail_bind) fun _ => ?_
      refine drop_sound.bind fun _ _ => (modify_sound ?_ ?_).bind fun _ _ => ih versionSeen
      · exact fun _ => rfl
      · exact fun _ => rfl
    · exact drop_sound.bind fun _ _ => ih versionSeen
    · exact .pure trivial

theorem ends_sound (fuel : Nat) : Sound text Anything (document.ends fuel) := by
  induction fuel with
  | zero => exact .fail
  | succ fuel ih =>
    rw [document.ends]
    exact (accept_sound _).bind fun _ _ => .ite (fun _ => ih) fun _ => expect_sound _

theorem document_sound (tagless : '!' ∉ text) (fuel : Nat) :
    Sound text Anything (document fuel) := by
  have root : Sound text Anything (node .block fuel) := (soundAt tagless fuel).node .block
  have ending (number : Nat) : Sound text Anything (do
      document.ends fuel
      return some number) := (ends_sound fuel).bind fun _ _ => .pure trivial
  rw [document]
  refine peek_sound.bind fun first _ => .ite (fun _ => .pure trivial) fun _ => ?_
  refine Sound.bind (?_ : Sound text Anything _) fun number _ => ending number
  refine .ite (fun _ => ?_) fun _ => ?_
  · refine (directives_sound false fuel).bind fun _ _ => ?_
    refine Sound.bind (modify_sound ?_ ?_) fun _ _ => ?_
    · exact fun _ => rfl
    · exact fun _ => rfl
    refine (expect_sound _).bind fun _ _ => peek_sound.bind fun next _ => ?_
    exact .ite (fun _ => emptyScalar_sound) fun _ => root
  · refine Sound.bind (modify_sound ?_ ?_) fun _ _ => root
    · exact fun _ => rfl
    · exact fun _ => rfl

end Read

theorem graphOf_safe {text : List Char} (tagless : '!' ∉ text) :
    Safe text (fun found => found.1.In text) (graphOf text) := by
  have none : Graph.In text #[] := fun n node found => by simp at found
  have listed := tokens_in text
  rw [graphOf]
  generalize tokens text = tokens at listed ⊢
  have fits : (Reading.mk tokens #[] [] []).In text := ⟨listed, none⟩
  exact (Read.document_sound tagless _ _ fits).bind fun result made => made.2.fits.graph

end SchemaScript.Yaml

import ReflectGen.Config.Yaml.Token
import ReflectGen.Document.Yaml.Resolve

/-!
# The nodes of a YAML document

Tokens form a tree of nodes: scalars, sequences and mappings in block style or within brackets.  A
node may have an anchor, and an alias stands for the last node with an anchor of that name.  An
alias inside the node that it names is kept apart, because it stands for nothing that ends.

* `Node`: the nodes.  Of the tags only those of scalars are kept.
* `Composer.node?`: reads a node.
* `Node.ofFile?`: the root of the first document of a file; what follows the document is not
  looked at.
-/

namespace ReflectGen

namespace Config.Yaml

/-- A node. -/
inductive Node where
  /-- A scalar with the short form of its tag. -/
  | scalar (tag text : Text)
  | sequence (items : List Node)
  | mapping (entries : List (Node × Node))
  | alias (name : Text) (target : Node)
  /-- An alias inside the node that it names. -/
  | selfAlias (name : Text)
  deriving Repr

instance : Inhabited Node := ⟨.scalar [] []⟩

/-! ## Tags -/

/-- What the standard tags start with. -/
def standardLead : Text := lit "tag:yaml.org,2002:"

/-- A tag with two exclamation marks in place of what the standard tags start with. -/
def shortened (tag : Text) : Text :=
  match Text.after? standardLead tag with
  | some rest => lit "!!" ++ rest
  | none => tag

namespace ScalarTag

def text : Text := lit "!!str"
def null : Text := lit "!!null"
def bool : Text := lit "!!bool"
def int : Text := lit "!!int"
def float : Text := lit "!!float"
def timestamp : Text := lit "!!timestamp"
def binary : Text := lit "!!binary"
def merge : Text := lit "!!merge"

/-- The tag of what a plain scalar means. -/
def ofPlain : Plain → Text
  | .null => null
  | .bool _ => bool
  | .int _ => int
  | .real _ => float
  | .special _ => float
  | .timestamp _ => timestamp
  | .text => text

/-- The tag of a scalar: the one that is written, or else the one that its text and style tell. -/
def of (written : Text) (isPlain : Bool) (t : Text) : Text :=
  if !written.isEmpty && written != lit "!" then shortened written
  else if !isPlain then text
  else if t == lit "<<" then merge
  else ofPlain (Plain.resolve t)

end ScalarTag

/-- The node for a place where nothing is written. -/
def Node.empty : Node := .scalar ScalarTag.null []

/-! ## Reading nodes -/

/-- What an anchor names. -/
inductive Anchored where
  /-- A node that is being read; the number tells it from others. -/
  | unfinished (number : Nat)
  | node (n : Node)
  deriving Repr

/-- The state in which nodes are read. -/
structure Composer where
  scanner : Scanner
  /-- What the handles of tags stand for. -/
  handles : List (Text × Text) := []
  anchors : List (Text × Anchored) := []
  /-- The number of anchors so far. -/
  count : Nat := 0
  deriving Repr

/-- The handles that stand for something in every document. -/
def standardHandles : List (Text × Text) := [(lit "!", lit "!"), (lit "!!", standardLead)]

/-- What stands in front of a node. -/
structure Properties where
  anchor : Option Text := none
  /-- The tag in full; empty if there is none. -/
  tag : Text := []
  deriving DecidableEq, Repr

/-- Is there neither an anchor nor a tag? -/
def Properties.isEmpty (p : Properties) : Bool := p.anchor.isNone && p.tag.isEmpty

namespace Composer

/-- The next token. -/
def peek? (p : Composer) : Option (Token × Composer) :=
  p.scanner.peek?.map fun (t, s) => (t, { p with scanner := s })

/-- Without the next token. -/
def drop (p : Composer) : Composer := { p with scanner := p.scanner.drop }

/-- A tag in full; nothing if its handle is unknown. -/
def expanded? (p : Composer) (t : Tag) : Option Text :=
  if t.handle.isEmpty then some t.suffix
  else
    match p.handles.lookup t.handle with
    | some lead => some (lead ++ t.suffix)
    | none => none

/-- Reads an anchor and a tag in any order, and looks at the token behind them. -/
def properties? (p : Composer) : Option (Properties × Token × Composer) := do
  let (t, p) ← p.peek?
  match t with
  | .anchor name =>
    let (t, p) ← p.drop.peek?
    match t with
    | .tag g =>
      let tag ← p.expanded? g
      let (t, p) ← p.drop.peek?
      some ({ anchor := some name, tag }, t, p)
    | t => some ({ anchor := some name }, t, p)
  | .tag g =>
    let tag ← p.expanded? g
    let (t, p) ← p.drop.peek?
    match t with
    | .anchor name =>
      let (t, p) ← p.drop.peek?
      some ({ anchor := some name, tag }, t, p)
    | t => some ({ tag }, t, p)
  | t => some ({}, t, p)

/-- Notes that a node with these properties starts; the number is that of its anchor. -/
def begun (p : Composer) (props : Properties) : Nat × Composer :=
  match props.anchor with
  | none => (p.count, p)
  | some name =>
    (p.count, { p with anchors := (name, .unfinished p.count) :: p.anchors, count := p.count + 1 })

/-- Notes that the node with this anchor is finished, unless another one inside it has taken the
name. -/
def finished (p : Composer) (props : Properties) (number : Nat) (n : Node) : Composer :=
  match props.anchor with
  | none => p
  | some name =>
    match p.anchors.lookup name with
    | some (.unfinished m) =>
      if m == number then { p with anchors := (name, .node n) :: p.anchors } else p
    | _ => p

/-- The node that an alias stands for. -/
def alias? (p : Composer) (name : Text) : Option Node :=
  match p.anchors.lookup name with
  | some (.node n) => some (.alias name n)
  | some (.unfinished _) => some (.selfAlias name)
  | none => none

/-- Is the place for a key or value of a block empty in front of this token? -/
def isGapInMapping : Token → Bool
  | .key => true
  | .value => true
  | .blockEnd => true
  | _ => false

/-- Is the place for an item empty in front of this token, when the items are not indented? -/
def isGapInItems : Token → Bool
  | .entry => true
  | t => isGapInMapping t

/-- Is the place for a value within brackets empty in front of this token? -/
def isGapBefore (closing : Token) (t : Token) : Bool := t == .flowEntry || t == closing

mutual

/-- Reads a node.  Blocks may start only where `block` says so, and items that are not indented only
where `indentless` does. -/
def node? : (fuel : Nat) → (block indentless : Bool) → Composer → Option (Node × Composer)
  | 0, _, _, _ => none
  | n + 1, block, indentless, p =>
    match p.peek? with
    | none => none
    | some (.alias name, p) => (p.alias? name).map (·, p.drop)
    | some (_, p) =>
      match p.properties? with
      | none => none
      | some (props, t, p) =>
        let (number, p) := p.begun props
        let read : Option (Node × Composer) :=
          match t with
          | .scalar isPlain text =>
            some (.scalar (ScalarTag.of props.tag isPlain text) text, p.drop)
          | .flowSequence => flowItems? n true p.drop []
          | .flowMapping => flowEntries? n true p.drop []
          | t =>
            if indentless && t == .entry then items? n p []
            else if block && t == .blockSequence then blockItems? n p.drop []
            else if block && t == .blockMapping then blockEntries? n p.drop []
            else if props.isEmpty then none
            else some (.scalar (ScalarTag.of props.tag true []) [], p)
        read.map fun (node, p) => (node, p.finished props number node)

/-- Reads the items of a block up to its end. -/
def blockItems? : (fuel : Nat) → Composer → (done : List Node) → Option (Node × Composer)
  | 0, _, _ => none
  | n + 1, p, done =>
    match p.peek? with
    | some (.blockEnd, p) => some (.sequence done.reverse, p.drop)
    | some (.entry, p) =>
      match p.drop.peek? with
      | none => none
      | some (t, p) =>
        if t == .entry || t == .blockEnd then blockItems? n p (Node.empty :: done)
        else
          match node? n true false p with
          | none => none
          | some (item, p) => blockItems? n p (item :: done)
    | _ => none

/-- Reads items that are not indented more than the key in front of them. -/
def items? : (fuel : Nat) → Composer → (done : List Node) → Option (Node × Composer)
  | 0, _, _ => none
  | n + 1, p, done =>
    match p.peek? with
    | none => none
    | some (.entry, p) =>
      match p.drop.peek? with
      | none => none
      | some (t, p) =>
        if isGapInItems t then items? n p (Node.empty :: done)
        else
          match node? n true false p with
          | none => none
          | some (item, p) => items? n p (item :: done)
    | some (_, p) => some (.sequence done.reverse, p)

/-- Reads a key or a value of a block; the place may be empty. -/
def blockPart? : (fuel : Nat) → Composer → Option (Node × Composer)
  | 0, _ => none
  | n + 1, p =>
    match p.peek? with
    | none => none
    | some (t, p) => if isGapInMapping t then some (Node.empty, p) else node? n true true p

/-- Reads the entries of a block up to its end. -/
def blockEntries? : (fuel : Nat) → Composer → (done : List (Node × Node)) →
    Option (Node × Composer)
  | 0, _, _ => none
  | n + 1, p, done =>
    match p.peek? with
    | some (.blockEnd, p) => some (.mapping done.reverse, p.drop)
    | some (.key, p) =>
      match blockPart? n p.drop with
      | none => none
      | some (key, p) =>
        match p.peek? with
        | none => none
        | some (.value, p) =>
          match blockPart? n p.drop with
          | none => none
          | some (value, p) => blockEntries? n p ((key, value) :: done)
        | some (_, p) => blockEntries? n p ((key, Node.empty) :: done)
    | _ => none

/-- Reads a value within brackets behind its colon, if there is one. -/
def flowValue? : (fuel : Nat) → (closing : Token) → Composer → Option (Node × Composer)
  | 0, _, _ => none
  | n + 1, closing, p =>
    match p.peek? with
    | none => none
    | some (.value, p) =>
      match p.drop.peek? with
      | none => none
      | some (t, p) => if isGapBefore closing t then some (Node.empty, p) else node? n false false p
    | some (_, p) => some (Node.empty, p)

/-- Reads the items of a list within brackets up to its end. -/
def flowItems? : (fuel : Nat) → (first : Bool) → Composer → (done : List Node) →
    Option (Node × Composer)
  | 0, _, _, _ => none
  | n + 1, first, p, done =>
    match p.peek? with
    | none => none
    | some (.flowSequenceEnd, p) => some (.sequence done.reverse, p.drop)
    | some (t, p) =>
      if !first && t != .flowEntry then none
      else
        match (if first then p else p.drop).peek? with
        | none => none
        | some (.flowSequenceEnd, p) => some (.sequence done.reverse, p.drop)
        | some (.key, p) =>
          match flowPair? n p.drop with
          | none => none
          | some (item, p) => flowItems? n false p (item :: done)
        | some (_, p) =>
          match node? n false false p with
          | none => none
          | some (item, p) => flowItems? n false p (item :: done)

/-- Reads a key and a value that form an item of a list.  What stands in place of a missing key is
dropped. -/
def flowPair? : (fuel : Nat) → Composer → Option (Node × Composer)
  | 0, _ => none
  | n + 1, p =>
    match p.peek? with
    | none => none
    | some (t, p) =>
      let key :=
        if t == .value || isGapBefore .flowSequenceEnd t then some (Node.empty, p.drop)
        else node? n false false p
      match key with
      | none => none
      | some (key, p) =>
        match flowValue? n .flowSequenceEnd p with
        | none => none
        | some (value, p) => some (.mapping [(key, value)], p)

/-- Reads the entries of a mapping within brackets up to its end. -/
def flowEntries? : (fuel : Nat) → (first : Bool) → Composer → (done : List (Node × Node)) →
    Option (Node × Composer)
  | 0, _, _, _ => none
  | n + 1, first, p, done =>
    match p.peek? with
    | none => none
    | some (.flowMappingEnd, p) => some (.mapping done.reverse, p.drop)
    | some (t, p) =>
      if !first && t != .flowEntry then none
      else
        match (if first then p else p.drop).peek? with
        | none => none
        | some (.flowMappingEnd, p) => some (.mapping done.reverse, p.drop)
        | some (.key, p) =>
          match flowKey? n p.drop with
          | none => none
          | some (key, p) =>
            match flowValue? n .flowMappingEnd p with
            | none => none
            | some (value, p) => flowEntries? n false p ((key, value) :: done)
        | some (_, p) =>
          match node? n false false p with
          | none => none
          | some (key, p) => flowEntries? n false p ((key, Node.empty) :: done)

/-- Reads a key of a mapping within brackets; the place may be empty. -/
def flowKey? : (fuel : Nat) → Composer → Option (Node × Composer)
  | 0, _ => none
  | n + 1, p =>
    match p.peek? with
    | none => none
    | some (t, p) =>
      if t == .value || isGapBefore .flowMappingEnd t then some (Node.empty, p)
      else node? n false false p

end

/-! ## Documents -/

/-- The version of the language that a directive may name. -/
def isKnownVersion (major minor : Nat) : Bool := major == 1 && minor == 1

/-- Reads directives; `versioned` tells whether a version has been named.  Neither the version nor a
handle may be declared twice. -/
def directives? : (fuel : Nat) → (versioned : Bool) → Composer → Option Composer
  | 0, _, _ => none
  | n + 1, versioned, p =>
    match p.peek? with
    | none => none
    | some (.directive (.version major minor), p) =>
      if versioned || !isKnownVersion major minor then none else directives? n true p.drop
    | some (.directive (.abbreviation handle expansion), p) =>
      if (p.handles.lookup handle).isSome then none
      else directives? n versioned { p.drop with handles := (handle, expansion) :: p.handles }
    | some (_, p) => some p

/-- Does this token end a document that has no content? -/
def endsDocument : Token → Bool
  | .directive _ => true
  | .documentStart => true
  | .documentEnd => true
  | .streamEnd => true
  | _ => false

/-- With the handles that every document has. -/
def withStandardHandles (p : Composer) : Composer :=
  { p with handles := p.handles ++ standardHandles }

/-- Reads the content of a document behind its starting mark. -/
def content? (fuel : Nat) (p : Composer) : Option (Node × Composer) :=
  match p.peek? with
  | none => none
  | some (t, p) => if endsDocument t then some (Node.empty, p) else node? fuel true false p

/-- Reads the first document; `Node.empty` if there is none. -/
def document? (fuel : Nat) (p : Composer) : Option Node := do
  let (_, p) ← p.peek?
  let (t, p) ← p.drop.peek?
  match t with
  | .streamEnd => some Node.empty
  | .documentEnd => none
  | t =>
    let (root, p) ←
      if endsDocument t then do
        let p ← directives? fuel false p
        let (t, p) ← p.withStandardHandles.peek?
        if t == .documentStart then content? fuel p.drop else none
      else node? fuel true false p.withStandardHandles
    let _ ← p.peek?
    some root

end Composer

/-- The root of the first document of a file, if that is well formed. -/
def Node.ofFile? (t : Text) : Option Node :=
  match characters? t with
  | none => none
  | some cs => Composer.document? (8 * cs.length + 16) { scanner := Scanner.start cs }

end Config.Yaml

end ReflectGen

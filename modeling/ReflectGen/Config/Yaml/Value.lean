import ReflectGen.Config.Value
import ReflectGen.Config.Yaml.Node
import ReflectGen.Text.Base64

/-!
# The values of YAML nodes

A node has a value if its scalars are what their tags say, no key of a mapping is written twice and
no alias stands inside the node that it names.

The key `<<` merges other mappings into its own: their entries count where the mapping has no entry
with that key.  The entries of the mapping itself are read first, so that `Fields.taken` can tell
which keys are left.

Aliases make a short file stand for a large value.  `Effort` counts the nodes that are read, and a
file in which nearly all of them are read through aliases is refused.

Only the first document of a file is read.

* `Node.value`: the value of a node.
* `Node.rootValue`: the value of a root, which must be a mapping or nothing.
* `read`: the value of a file.
-/

namespace ReflectGen

namespace Config.Yaml

/-! ## Scalars -/

/-- The tags that say what the text of a scalar means.  With other tags a text means itself. -/
def meaningTags : List Text :=
  [ScalarTag.null, ScalarTag.bool, ScalarTag.int, ScalarTag.float, ScalarTag.timestamp]

/-- An integer; if it needs all sixty-four bits, it has no sign. -/
def intScalar (n : Int) : ConfigScalar := .int (if Number.fits n then .plain else .unsigned) n

/-- The value of a plain text that means `p`. -/
def plainScalar (t : Text) : Plain → ConfigScalar
  | .null => .null
  | .bool b => .bool b
  | .int n => intScalar n
  | .real d => .real d.shortest
  | .special s => .real s
  | .timestamp m => .moment m
  | .text => .text t

/-- An integer as a fraction. -/
def intAsReal (n : Int) : ConfigScalar :=
  .real { negative := n < 0, digits := n.natAbs, exponent := 0 : Decimal }.shortest

/-- The value of a scalar, if its text is what its tag says.  An integer is a fraction too. -/
def scalar? (tag t : Text) : Option ConfigScalar :=
  if tag == ScalarTag.binary then (Base64.decode? t).map .text
  else if !meaningTags.contains tag then some (.text t)
  else
    let p := Plain.resolve t
    if ScalarTag.ofPlain p == tag then some (plainScalar t p)
    else
      match p with
      | .int n => if tag == ScalarTag.float && Number.fits n then some (intAsReal n) else none
      | _ => none

/-! ## The effort of reading -/

/-- How many nodes have been read, and how many of them inside aliases. -/
structure Effort where
  nodes : Nat := 0
  inAliases : Nat := 0
  deriving DecidableEq, Repr

/-- Is too much of the effort due to aliases?  Up to 400000 nodes it may be 99 of 100 nodes, from
4000000 on one of ten, and between the two the share goes down evenly. -/
def Effort.isExcessive (e : Effort) : Bool :=
  100 < e.inAliases && 1000 < e.nodes &&
    if e.nodes ≤ 400000 then 99 * e.nodes < 100 * e.inAliases
    else if 4000000 ≤ e.nodes then e.nodes < 10 * e.inAliases
    else
      e.nodes * (99 * 3600000 - 89 * (e.nodes - 400000)) < 360000000 * e.inAliases

/-- A step of reading: it may fail, and it takes effort. -/
abbrev Reading (α : Type) : Type := StateT Effort Option α

namespace Reading

/-- Fails. -/
def fail {α : Type} : Reading α := fun _ => none

/-- What there is, or failure. -/
def ofOption {α : Type} : Option α → Reading α
  | some a => pure a
  | none => fail

/-- Counts a node, which stands inside an alias or not. -/
def count (inAlias : Bool) : Reading Unit := fun e =>
  let e : Effort :=
    { nodes := e.nodes + 1, inAliases := if inAlias then e.inAliases + 1 else e.inAliases }
  if e.isExcessive then none else some ((), e)

end Reading

/-! ## Keys -/

/-- Two keys of a mapping are the same if both are aliases, scalars or other nodes of one kind, and
are written alike. -/
def isSameKey : Node → Node → Bool
  | .scalar _ s, .scalar _ t => s == t
  | .sequence _, .sequence _ => true
  | .mapping _, .mapping _ => true
  | .alias a _, .alias b _ => a == b
  | .alias a _, .selfAlias b => a == b
  | .selfAlias a, .alias b _ => a == b
  | .selfAlias a, .selfAlias b => a == b
  | _, _ => false

/-- Is every key written once? -/
def hasUniqueKeys : List (Node × Node) → Bool
  | [] => true
  | (k, _) :: es => es.all (fun e => !isSameKey k e.1) && hasUniqueKeys es

/-- Does the key ask for a merge? -/
def isMergeKey : Node → Bool
  | .scalar tag t => t == lit "<<" && tag == ScalarTag.merge
  | _ => false

/-- The tag of a key; empty for what is no scalar. -/
def keyTag : Node → Text
  | .scalar tag _ => tag
  | .alias _ (.scalar tag _) => tag
  | _ => []

/-- Are all keys texts? -/
def hasTextKeys (es : List (Node × Node)) : Bool :=
  es.all fun e => keyTag e.1 == ScalarTag.text || keyTag e.1 == ScalarTag.merge

/-- The tag and the text of a key, which must be a scalar. -/
def keyScalar (inAlias : Bool) : Node → Reading (Text × Text)
  | .scalar tag t => do
    Reading.count inAlias
    pure (tag, t)
  | .alias _ (.scalar tag t) => do
    Reading.count inAlias
    Reading.count true
    pure (tag, t)
  | _ => Reading.fail

/-- The value of a key. -/
def anyKey (inAlias : Bool) (k : Node) : Reading ConfigScalar := do
  let (tag, t) ← keyScalar inAlias k
  Reading.ofOption (scalar? tag t)

/-- A key as a text: what is written, whatever it means.  There is none if it means nothing. -/
def textKey? (inAlias : Bool) (k : Node) : Reading (Option ConfigScalar) := do
  let (tag, t) ← keyScalar inAlias k
  match ← Reading.ofOption (scalar? tag t) with
  | .null => pure none
  | .text s => pure (some (.text s))
  | _ => pure (some (.text t))

/-- A key in an object all keys of which are texts, or in another one. -/
def key? (texts inAlias : Bool) (k : Node) : Reading (Option ConfigScalar) :=
  if texts then textKey? inAlias k else some <$> anyKey inAlias k

/-! ## Nodes -/

/-- The fields of an object that is being read. -/
structure Fields where
  fields : List (ConfigScalar × ConfigValue) := []
  /-- The keys that a merge leaves alone; `none` if nothing is being merged. -/
  taken : Option (List ConfigScalar) := none
  deriving Repr

namespace Fields

/-- Is there an entry already that a merge must not replace? -/
def isTaken (f : Fields) (k : ConfigScalar) : Bool := f.taken.any (·.contains k)

/-- With one more field. -/
def set (f : Fields) (k : ConfigScalar) (v : ConfigValue) : Fields :=
  { fields := setField f.fields k v, taken := f.taken.map (k :: ·) }

/-- The keys that a merge into a mapping leaves alone: those of earlier merges, or else all keys of
the mapping itself. -/
def takenFor (f : Fields) (inAlias : Bool) (keys : List Node) : Reading (List ConfigScalar) :=
  match f.taken with
  | some ks => pure ks
  | none => keys.mapM (anyKey inAlias)

/-- The object with these fields. -/
def object (f : Fields) (texts : Bool) : ConfigValue :=
  if texts then
    .object (f.fields.filterMap fun
      | (.text k, v) => some (k, v)
      | _ => none)
  else .mixed f.fields

end Fields

mutual

/-- The value of a node, which is read inside an alias or not. -/
def Node.value (inAlias : Bool) : Node → Reading ConfigValue
  | .scalar tag t => do
    Reading.count inAlias
    .scalar <$> Reading.ofOption (scalar? tag t)
  | .sequence items => do
    Reading.count inAlias
    .list <$> itemValues inAlias items
  | .mapping entries => do
    Reading.count inAlias
    if !hasUniqueKeys entries then Reading.fail
    else
      let texts := hasTextKeys entries
      let f ← entryValues texts inAlias (entries.map Prod.fst) entries pure {}
      pure (f.object texts)
  | .alias _ target => do
    Reading.count inAlias
    target.value true
  | .selfAlias _ => Reading.fail

/-- The values of the items of a list. -/
def itemValues (inAlias : Bool) : List Node → Reading (List ConfigValue)
  | [] => pure []
  | n :: ns => do
    let v ← n.value inAlias
    (v :: ·) <$> itemValues inAlias ns

/-- Reads the entries of a mapping with these keys; what it merges comes last. -/
def entryValues (texts inAlias : Bool) (keys : List Node) : List (Node × Node) →
    (merge : Fields → Reading Fields) → Fields → Reading Fields
  | [], merge, f => merge f
  | (k, v) :: es, merge, f =>
    if isMergeKey k then
      let merge (f : Fields) : Reading Fields := do
        let taken ← f.takenFor inAlias keys
        let g ← mergeValue texts inAlias true v { f with taken := some taken }
        pure { g with taken := f.taken.bind fun _ => g.taken }
      entryValues texts inAlias keys es merge f
    else do
      match ← key? texts inAlias k with
      | none => entryValues texts inAlias keys es merge f
      | some key =>
        if f.isTaken key then entryValues texts inAlias keys es merge f
        else
          let w ← v.value inAlias
          entryValues texts inAlias keys es merge (f.set key w)

/-- Merges a mapping, an alias of one, or, where `lists` allows it, a list of these. -/
def mergeValue (texts inAlias lists : Bool) : Node → Fields → Reading Fields
  | .mapping entries, f => do
    Reading.count inAlias
    if !hasUniqueKeys entries then Reading.fail
    else entryValues texts inAlias (entries.map Prod.fst) entries pure f
  | .alias _ (.mapping entries), f => do
    Reading.count inAlias
    Reading.count true
    if !hasUniqueKeys entries then Reading.fail
    else entryValues texts true (entries.map Prod.fst) entries pure f
  | .sequence items, f => if lists then mergeValues texts inAlias items f else Reading.fail
  | _, _ => Reading.fail

/-- Merges the mappings of a list, one after the other. -/
def mergeValues (texts inAlias : Bool) : List Node → Fields → Reading Fields
  | [], f => pure f
  | n :: ns, f => do
    let f ← mergeValue texts inAlias false n f
    mergeValues texts inAlias ns f

end

/-- The value of the root of a document: an object all keys of which are read as texts, or nothing,
which is an object without fields. -/
def Node.rootValue : Node → Reading ConfigValue
  | .mapping entries => do
    Reading.count false
    Reading.count false
    if !hasUniqueKeys entries then Reading.fail
    else
      let f ← entryValues true false (entries.map Prod.fst) entries pure {}
      pure (f.object true)
  | .scalar tag t =>
    match scalar? tag t with
    | some .null => pure (.object [])
    | _ => Reading.fail
  | _ => Reading.fail

/-- The fields that a file sets, or nothing if it is not well formed. -/
def read (t : Text) : Option ConfigValue := do
  let root ← Node.ofFile? t
  let (v, _) ← root.rootValue {}
  some v

end Config.Yaml

end ReflectGen

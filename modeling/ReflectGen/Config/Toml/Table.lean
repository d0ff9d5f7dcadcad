import ReflectGen.Config.Toml.Token

/-!
# Tables in TOML

A file describes a table.  It consists of fields and of headers that name the table for the fields
behind them; a byte order mark may stand in front, and bytes that are no UTF-8 are read as U+FFFD.  Headers and keys with points lead into tables inside it, which are made
where they are missing.  Where a row of tables stands on the way, the last one is meant.

A table that is written between braces is closed: it is complete where it stands, and a later key or
header must not add to it.  A table that is made inside a closed one is closed as well.

* `Item`: what a table holds.
* `Item.update?`: changes the item at the end of a path.
* `Item.put`: places an item at the end of a path, whatever stands there.
* `Item.ofTokens?`: the table that the tokens of a file describe.
* `read`: the value of a file.
-/

namespace ReflectGen

namespace Config.Toml

/-- What a table holds under a key. -/
inductive Item where
  | value (v : ConfigValue)
  | table (isClosed : Bool) (fields : List (Text × Item))
  /-- A row of tables.  Only the last one can change, so those before it are kept as values, in
  reverse. -/
  | tables (before : List ConfigValue) (isClosed : Bool) (fields : List (Text × Item))
  deriving Repr

instance : Inhabited Item := ⟨.table false []⟩

namespace Item

mutual

/-- The value of an item. -/
def toValue : Item → ConfigValue
  | .value v => v
  | .table _ fs => .object (toFields fs)
  | .tables before _ fs => .list (before.reverse ++ [.object (toFields fs)])

/-- The values of the fields of a table. -/
def toFields : List (Text × Item) → List (Text × ConfigValue)
  | [] => []
  | (k, i) :: fs => (k, toValue i) :: toFields fs

end

/-- Makes a new row of tables of items, or a list if not all of them are tables. -/
def ofItems (items : List Item) : Item :=
  match items.reverse with
  | [] => .value .noItems
  | last :: before =>
    let isTable (i : Item) : Bool := match i with | .table _ _ => true | _ => false
    match last with
    | .table c fs =>
      if before.all isTable then .tables (before.map toValue) c fs
      else .value (.list (items.map toValue))
    | _ => .value (.list (items.map toValue))

/-! ## Paths -/

/-- The item at the end of a path. -/
def at? : (path : List Text) → Item → Option Item
  | [], i => some i
  | k :: ks, .table _ fs => (fs.lookup k).bind (at? ks)
  | k :: ks, .tables _ _ fs => (fs.lookup k).bind (at? ks)
  | _ :: _, .value _ => none

/-- Changes the item at the end of a path.  Tables that are missing on the way are made, and a value
on the way is a failure. -/
def update? (f : Item → Option Item) : (path : List Text) → Item → Option Item
  | [], i => f i
  | k :: ks, .table c fs =>
    (update? f ks ((fs.lookup k).getD (.table c []))).map fun i => .table c (setField fs k i)
  | k :: ks, .tables before c fs =>
    (update? f ks ((fs.lookup k).getD (.table c []))).map fun i =>
      .tables before c (setField fs k i)
  | _ :: _, .value _ => none

/-- Makes the tables of a path that are missing, up to the first value on the way. -/
def reach : (path : List Text) → Item → Item
  | [], i => i
  | k :: ks, .table c fs =>
    .table c (setField fs k (reach ks ((fs.lookup k).getD (.table c []))))
  | k :: ks, .tables before c fs =>
    .tables before c (setField fs k (reach ks ((fs.lookup k).getD (.table c []))))
  | _ :: _, .value v => .value v

/-- The fields with an item at the end of a path in place of what stands there.  A value on the way
is passed over, as if its key were not part of the path. -/
def putIn (item : Item) : (path : List Text) → List (Text × Item) → List (Text × Item)
  | [], fs => fs
  | [k], fs => setField fs k item
  | k :: ks, fs =>
    match fs.lookup k with
    | none => setField fs k (.table false (putIn item ks []))
    | some (.table c inner) => setField fs k (.table c (putIn item ks inner))
    | some (.tables before c inner) => setField fs k (.tables before c (putIn item ks inner))
    | some (.value _) => putIn item ks fs

/-- Places an item at the end of a path. -/
def put (item : Item) (path : List Text) : Item → Item
  | .table c fs => .table c (putIn item path fs)
  | .tables before c fs => .tables before c (putIn item path fs)
  | .value v => .value v

/-- Adds a field to a table, which must not be closed and not have such a field. -/
def addField (k : Text) (item : Item) : Item → Option Item
  | .table false fs => if (fs.lookup k).isSome then none else some (.table false (setField fs k item))
  | .tables before false fs =>
    if (fs.lookup k).isSome then none else some (.tables before false (setField fs k item))
  | _ => none

/-- Refuses what a header cannot lead into: a value and a closed table. -/
def entered : Item → Option Item
  | .value _ => none
  | .table true _ => none
  | i => some i

/-- One more table for a row, which may be new. -/
def extended : Option Item → Option Item
  | none => some (.tables [] false [])
  | some (.tables before c fs) => some (.tables (toValue (.table c fs) :: before) false [])
  | some _ => none

/-! ## Values -/

mutual

/-- Reads a value. -/
def value? : (fuel : Nat) → List Token → Option (Item × List Token)
  | 0, _ => none
  | n + 1, ts =>
    match ts with
    | .scalar s :: ts => some (.value (.scalar s), ts)
    | .date d :: .clock c :: .zone z :: ts =>
      some (.value (.scalar (.moment (.instant d c z))), ts)
    | .date d :: .clock c :: ts => some (.value (.scalar (.moment (.dateAndClock d c))), ts)
    | .date d :: ts => some (.value (.scalar (.moment (.date d))), ts)
    | .clock c :: ts => some (.value (.scalar (.moment (.clock c))), ts)
    | .openList :: ts => items? n ts []
    | .openTable :: .closeTable :: ts => some (.table true [], ts)
    | .openTable :: ts => fields? n ts (.table true [])
    | _ => none

/-- Reads the items of a list up to its end; a comma may stand behind the last one. -/
def items? : (fuel : Nat) → List Token → (done : List Item) → Option (Item × List Token)
  | 0, _, _ => none
  | _ + 1, .closeList :: ts, done => some (ofItems done.reverse, ts)
  | n + 1, ts, done =>
    match value? n ts with
    | some (i, .comma :: ts) => items? n ts (i :: done)
    | some (i, .closeList :: ts) => some (ofItems (i :: done).reverse, ts)
    | _ => none

/-- Reads the fields of a table between braces up to its end. -/
def fields? : (fuel : Nat) → List Token → (done : Item) → Option (Item × List Token)
  | 0, _, _ => none
  | n + 1, .key k :: .equals :: ts, done =>
    match keyParts? k, value? n ts with
    | some path, some (i, .comma :: ts) => fields? n ts (put i path done)
    | some path, some (i, .closeTable :: ts) => some (put i path done, ts)
    | _, _ => none
  | _, _, _ => none

end

/-! ## Files -/

/-- How far a file has been read. -/
structure Progress where
  root : Item := .table false []
  /-- The path of the table that the last header has named. -/
  current : List Text := []
  /-- The headers so far, as they are written. -/
  headers : List Text := []
  deriving Repr

namespace Progress

/-- Enters the table that a header names.  No header may be written twice. -/
def enter? (p : Progress) (name : Text) : Option Progress :=
  if p.headers.contains name then none
  else do
    let path ← keyParts? name
    let root ← update? entered path p.root
    some { root, current := path, headers := name :: p.headers }

/-- Enters a new table at the end of the row that a header names.  Headers for the inside of the
row may then be written again. -/
def enterItem? (p : Progress) (name : Text) : Option Progress := do
  let path ← keyParts? name
  let root := reach path.dropLast p.root
  let row ← extended (at? path root)
  let headers := p.headers.filter fun h => !Text.startsWith h (name ++ [0x2E])
  some { root := put row path root, current := path, headers := name :: headers }

/-- Sets a field of the current table. -/
def assign? (p : Progress) (key : Text) (i : Item) : Option Progress := do
  let parts ← keyParts? key
  let last ← parts.getLast?
  let root ← update? (addField last i) (p.current ++ parts.dropLast) p.root
  some { p with root }

/-- Reads headers and fields to the end. -/
def run? : (fuel : Nat) → Progress → List Token → Option Item
  | 0, _, _ => none
  | n + 1, p, ts =>
    match ts with
    | [] => some p.root
    | .header name :: ts => (p.enter? name).bind (run? n · ts)
    | .itemHeader name :: ts => (p.enterItem? name).bind (run? n · ts)
    | .key k :: .equals :: ts =>
      match value? (2 * ts.length + 2) ts with
      | some (i, ts) => (p.assign? k i).bind (run? n · ts)
      | none => none
    | _ => none

end Progress

/-- The table that the tokens of a file describe. -/
def ofTokens? (ts : List Token) : Option Item := Progress.run? (ts.length + 1) {} ts

end Item

/-! ## Files -/

/-- The text without a byte order mark in front. -/
def withoutMark : Text → Text
  | 0x00 :: 0x00 :: 0xFE :: 0xFF :: t => t
  | 0xFF :: 0xFE :: 0x00 :: 0x00 :: t => t
  | 0xEF :: 0xBB :: 0xBF :: t => t
  | 0xFE :: 0xFF :: t => t
  | 0xFF :: 0xFE :: t => t
  | t => t

/-- The fields that a file sets, or nothing if it is not well formed. -/
def read (t : Text) : Option ConfigValue := do
  let ts ← tokens? (withoutMark t).repaired
  let root ← Item.ofTokens? ts
  some root.toValue

end Config.Toml

end ReflectGen

import ReflectGen.Text.Basic

/-!
# Records and record sets

What a scan finds are records: the reflectable types of a file in the order in which their blocks
are closed, each with its members in the order of their markers.

The record set of a run has, for every scanned file that has records, its records, in the order in
which the files were added first; and the files that were scanned without a record.

* `TypeRecord`: what a scan finds.
* `Metadata`: a record set; `Metadata.add` adds a file to it.
* `Ledger`: the same with the order of the paths apart from their records.
-/

namespace ReflectGen

/-! ## Records -/

/-- A data member of a reflectable type. -/
structure Member where
  parent : Text
  valueType : Text
  name : Text
  line : Int
  deriving DecidableEq, Repr

/-- A reflectable type.  The line is that of the marker that closes its block. -/
structure TypeRecord where
  name : Text
  line : Int
  members : List Member
  deriving DecidableEq, Repr

/-! ## Record sets -/

/-- The record set of a run. -/
structure Metadata where
  root : Text
  /-- The files with records, each with its records. -/
  files : List (Text × List TypeRecord)
  /-- The files without records. -/
  unannotated : List Text
  deriving DecidableEq, Repr

namespace Metadata

/-- The record set before any file is added. -/
def empty (root : Text) : Metadata := { root, files := [], unannotated := [] }

/-- The paths of the files with records. -/
def paths (md : Metadata) : List Text := md.files.map Prod.fst

/-- The records of a file. -/
def records (md : Metadata) (path : Text) : List TypeRecord :=
  (md.files.lookup path).getD []

/-- The files with `records` added under `path`: behind the records that the path has already, or
as a new last file. -/
def insert : List (Text × List TypeRecord) → (path : Text) → List TypeRecord →
    List (Text × List TypeRecord)
  | [], path, rs => [(path, rs)]
  | (p, qs) :: files, path, rs =>
    if p == path then (p, qs ++ rs) :: files else (p, qs) :: insert files path rs

/-- The record set after the records of one file are added. -/
def add (md : Metadata) (path : Text) (records : List TypeRecord) : Metadata :=
  if records.isEmpty then { md with unannotated := md.unannotated ++ [path] }
  else { md with files := insert md.files path records }

/-- The record set after all files of a list are added in order. -/
def addAll (md : Metadata) (files : List (Text × List TypeRecord)) : Metadata :=
  files.foldl (fun md f => md.add f.1 f.2) md

/-- The number of records in all files. -/
def typeCount (md : Metadata) : Nat := md.files.foldl (fun n f => n + f.2.length) 0

end Metadata

/-- A record set as it is built file by file, with two fields that are kept in step: the paths that
have records, in order, and a map from paths to records.  `Metadata.files` is the one table that
says both. -/
structure Ledger where
  paths : List Text
  files : Text → Option (List TypeRecord)
  unannotated : List Text

namespace Ledger

/-- The ledger before any file is added. -/
def empty : Ledger := { paths := [], files := fun _ => none, unannotated := [] }

/-- The ledger after the records of one file are added.  The path is noted if the map does not have
it yet, and then the records go into the map. -/
def add (l : Ledger) (path : Text) (records : List TypeRecord) : Ledger :=
  if records.isEmpty then { l with unannotated := l.unannotated ++ [path] }
  else
    { l with
      paths := if (l.files path).isSome then l.paths else l.paths ++ [path]
      files := fun p =>
        if p == path then some ((l.files path).getD [] ++ records) else l.files p }

/-- The ledger after all files of a list are added in order. -/
def addAll (l : Ledger) (files : List (Text × List TypeRecord)) : Ledger :=
  files.foldl (fun l f => l.add f.1 f.2) l

end Ledger

end ReflectGen

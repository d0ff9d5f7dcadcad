import ReflectGen.Proofs.Metadata

/-!
# A record set accounts for what was added

Files are added to a record set one by one.  A path may come again, then its records go behind those
that it has; a file without records is only noted, whether its path has records or not.  After any
row of additions the record set says of each path what was added under it.

* `Metadata.Accounts`: the record set is the account of a row of additions.
* `Metadata.Accounts.add`: one addition more.
* `Metadata.accounts_addAll`: any row of additions.
* `Metadata.represents_addAll`: the same said by two fields that are kept in step.
* `Metadata.addAll_represents`: paths, records, files without records and the number of records,
  said by the additions.
-/

namespace ReflectGen

namespace Metadata

/-! ## One addition -/

theorem typeCount_eq_sum (md : Metadata) : md.typeCount = (md.files.map (·.2.length)).sum := by
  rw [typeCount, List.sum_eq_foldl, List.foldl_map]

theorem add_nil (md : Metadata) (path : Text) :
    md.add path [] = { md with unannotated := md.unannotated ++ [path] } := rfl

theorem add_cons (md : Metadata) (path : Text) (r : TypeRecord) (rs : List TypeRecord) :
    md.add path (r :: rs) = { md with files := appendUnder md.files path (r :: rs) } := by
  rw [← insert_eq_appendUnder]
  rfl

/-! ## A row of additions -/

/-- The record set is the account of files that were added in this order, with their records. -/
structure Accounts (md : Metadata) (added : List (Text × List TypeRecord)) : Prop where
  files : md.files = gathered (added.filter (!·.2.isEmpty))
  unannotated : md.unannotated = (added.filter (·.2.isEmpty)).map Prod.fst
  typeCount : md.typeCount = (added.map (·.2.length)).sum

variable {md : Metadata} {added : List (Text × List TypeRecord)}

/-- An addition is one more entry of the account. -/
theorem Accounts.add (h : md.Accounts added) (path : Text) (rs : List TypeRecord) :
    (md.add path rs).Accounts (added ++ [(path, rs)]) := by
  have hcount := h.typeCount
  rw [typeCount_eq_sum] at hcount
  cases rs with
  | nil =>
    rw [add_nil]
    constructor
    · rw [h.files, List.filter_append]
      exact congrArg gathered (List.append_nil _).symm
    · rw [h.unannotated, List.filter_append, List.map_append]
      rfl
    · rw [typeCount_eq_sum, hcount, List.map_append, List.sum_append]
      rfl
  | cons r rs =>
    rw [add_cons]
    constructor
    · rw [h.files, List.filter_append]
      exact (gathered_concat _ (path, r :: rs)).symm
    · rw [h.unannotated, List.filter_append, List.map_append]
      exact (List.append_nil _).symm
    · rw [typeCount_eq_sum, sum_length_appendUnder, hcount, List.map_append, List.sum_append]
      rfl

theorem addAll_concat (md : Metadata) (added : List (Text × List TypeRecord))
    (f : Text × List TypeRecord) : md.addAll (added ++ [f]) = (md.addAll added).add f.1 f.2 := by
  rw [addAll, List.foldl_append]
  rfl

/-- However files are added, the record set is their account. -/
theorem accounts_addAll (root : Text) (added : List (Text × List TypeRecord)) :
    ((empty root).addAll added).Accounts added := by
  induction added using List.reverseRecOn with
  | nil => exact ⟨rfl, rfl, rfl⟩
  | append_singleton added f ih =>
    rw [addAll_concat]
    exact ih.add f.1 f.2

/-! ## What the account says -/

namespace Accounts

/-- The paths are those with records, in the order in which they first had some. -/
theorem paths_eq (h : md.Accounts added) :
    md.paths = ((added.filter (!·.2.isEmpty)).map Prod.fst).eraseDups := by
  rw [paths, h.files, map_fst_gathered]

theorem lookup_eq (h : md.Accounts added) (path : Text) :
    md.files.lookup path = if path ∈ md.paths then some (addedUnder added path) else none := by
  rw [h.files, lookup_gathered, addedUnder_filter_not_isEmpty]
  simp only [h.paths_eq, List.mem_eraseDups]

/-- A path is listed exactly if it is a key of the files. -/
theorem isSome_lookup_iff (h : md.Accounts added) (path : Text) :
    (md.files.lookup path).isSome = true ↔ path ∈ md.paths := by
  rw [h.lookup_eq]
  split
  · next hmem => exact iff_of_true rfl hmem
  · next hmem => exact iff_of_false Bool.false_ne_true hmem

/-- The records under a path are all that were added there, as they came. -/
theorem records_eq (h : md.Accounts added) (path : Text) :
    md.records path = addedUnder added path := by
  rw [records, h.lookup_eq]
  split
  · rfl
  · next hmem =>
    rw [h.paths_eq, List.mem_eraseDups] at hmem
    rw [← addedUnder_filter_not_isEmpty, addedUnder_eq_nil_of_notMem hmem]
    rfl

/-- A listed path has records. -/
theorem records_ne_nil (h : md.Accounts added) {path : Text} (hpath : path ∈ md.paths) :
    md.records path ≠ [] := by
  rw [h.paths_eq, List.mem_eraseDups] at hpath
  rw [h.records_eq, ← addedUnder_filter_not_isEmpty]
  refine addedUnder_ne_nil (fun f hf => ?_) hpath
  simpa using (List.mem_filter.mp hf).2

end Accounts

/-! ## The order of the paths apart from the records -/

/-- The record set says what the two fields of a ledger say. -/
structure Represents (md : Metadata) (l : Ledger) : Prop where
  paths : md.paths = l.paths
  files : ∀ path, md.files.lookup path = l.files path
  unannotated : md.unannotated = l.unannotated

theorem Represents.isSome_iff {l : Ledger} (h : md.Represents l) (path : Text) :
    (l.files path).isSome = true ↔ path ∈ md.paths := by
  rw [← h.files, ← not_iff_not, Bool.not_eq_true, Option.isSome_eq_false_iff,
    Option.isNone_iff_eq_none, List.lookup_eq_none_iff, Metadata.paths, List.mem_map]
  simp only [bne_iff_ne, not_exists, not_and]
  exact forall₂_congr fun _ _ => ne_comm

/-- A file that is added to both is in both. -/
theorem Represents.add {l : Ledger} (h : md.Represents l) (path : Text) (rs : List TypeRecord) :
    (md.add path rs).Represents (l.add path rs) := by
  cases rs with
  | nil => exact ⟨h.paths, h.files, congrArg (· ++ [path]) h.unannotated⟩
  | cons r rs =>
    rw [add_cons]
    refine ⟨?_, fun p => ?_, h.unannotated⟩
    · rw [Metadata.paths, map_fst_appendUnder]
      show (if path ∈ md.paths then md.paths else md.paths ++ [path]) = _
      simp only [Ledger.add, List.isEmpty_cons, Bool.false_eq_true, if_false, h.isSome_iff, h.paths]
    · rw [lookup_appendUnder, h.files, h.files]
      rfl

/-- The one table and the two fields say the same after any row of additions. -/
theorem represents_addAll (root : Text) (added : List (Text × List TypeRecord)) :
    ((empty root).addAll added).Represents (Ledger.empty.addAll added) := by
  induction added using List.reverseRecOn with
  | nil => exact ⟨rfl, fun _ => rfl, rfl⟩
  | append_singleton added f ih =>
    rw [addAll_concat, Ledger.addAll, List.foldl_append]
    exact ih.add f.1 f.2

/-- The number of records is the total over the keys of the map, in whatever order they are
visited. -/
theorem Represents.typeCount_eq {l : Ledger} (h : md.Represents l) (hnodup : md.paths.Nodup)
    {keys : List Text} (hkeys : keys.Perm l.paths) :
    md.typeCount = (keys.map fun p => ((l.files p).getD []).length).sum := by
  have hlength : ∀ f ∈ md.files, f.2.length = ((l.files f.1).getD []).length := by
    intro f hf
    rw [← h.files, lookup_eq_some_of_mem hnodup hf]
    rfl
  rw [(hkeys.map _).sum_nat, ← h.paths, Metadata.paths, List.map_map, typeCount_eq_sum]
  exact congrArg List.sum (List.map_congr_left hlength)

/-- **A record set represents what was added to it.**  After any row of additions, with paths that
come again and with files without records in between: no path is listed twice; the paths are the
keys of the files, in the order in which they first came with records; the records of a path are not
empty and are those that were added under it, in that order; the files without records are listed
each time they came; and the number of records is that of all that were added. -/
theorem addAll_represents (root : Text) (added : List (Text × List TypeRecord)) :
    let md := (empty root).addAll added
    md.paths.Nodup ∧
      md.paths = ((added.filter (!·.2.isEmpty)).map Prod.fst).eraseDups ∧
      (∀ path, path ∈ md.paths ↔ (md.files.lookup path).isSome = true) ∧
      (∀ path ∈ md.paths, md.records path ≠ []) ∧
      (∀ path, md.records path = (added.filter (·.1 == path)).flatMap Prod.snd) ∧
      md.unannotated = (added.filter (·.2.isEmpty)).map Prod.fst ∧
      md.typeCount = (added.map (·.2.length)).sum := by
  intro md
  have h : md.Accounts added := accounts_addAll root added
  have hnodup : md.paths.Nodup := paths_nodup_addAll added List.nodup_nil
  exact ⟨hnodup, h.paths_eq, fun path => (h.isSome_lookup_iff path).symm,
    fun _ hpath => h.records_ne_nil hpath, h.records_eq, h.unannotated, h.typeCount⟩

end Metadata

end ReflectGen

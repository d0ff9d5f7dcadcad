import ReflectGen.Metadata
import ReflectGen.Proofs.Keyed.Gathered

/-!
# Record sets and their occurrences

A record set lists each file once, whatever was added in whatever order.  A record *occurrence* is a
place in the record set: the path of a file and the number of a record in it.  Two records of equal
content at two places are two occurrences.

* `Metadata.paths_nodup_addAll`: each file is listed once; `Metadata.addAll_empty` for files with
  different paths.
* `Metadata.occurrences`: all places with their records; no place is listed twice
  (`Metadata.occurrences_nodup`), and a place is listed with the record it has
  (`Metadata.mem_occurrences_iff`).
-/

namespace ReflectGen

namespace Metadata

/-! ## Files are listed once -/

theorem insert_eq_appendUnder (files : List (Text × List TypeRecord)) (path : Text)
    (rs : List TypeRecord) : insert files path rs = appendUnder files path rs := by
  induction files with
  | nil => rfl
  | cons f files ih => rw [insert, appendUnder, ih]

theorem mem_map_fst_insert {files : List (Text × List TypeRecord)} {path p : Text}
    {rs : List TypeRecord} (h : p ∈ (insert files path rs).map Prod.fst) :
    p = path ∨ p ∈ files.map Prod.fst := by
  rw [insert_eq_appendUnder, map_fst_appendUnder] at h
  split at h
  · exact .inr h
  · rw [List.mem_append, List.mem_singleton] at h
    exact h.symm

theorem paths_nodup_add {md : Metadata} (h : md.paths.Nodup) (path : Text)
    (rs : List TypeRecord) : (md.add path rs).paths.Nodup := by
  unfold add
  split
  · exact h
  · rw [paths, insert_eq_appendUnder]
    exact nodup_map_fst_appendUnder path rs h

/-- However files are added, each one is listed once. -/
theorem paths_nodup_addAll (files : List (Text × List TypeRecord)) :
    ∀ {md : Metadata}, md.paths.Nodup → (md.addAll files).paths.Nodup := by
  induction files with
  | nil =>
    intro md h
    exact h
  | cons f files ih =>
    intro md h
    exact ih (paths_nodup_add h f.1 f.2)

theorem insert_of_notMem {files : List (Text × List TypeRecord)} {path : Text}
    (rs : List TypeRecord) (h : path ∉ files.map Prod.fst) :
    insert files path rs = files ++ [(path, rs)] := by
  rw [insert_eq_appendUnder]
  exact appendUnder_of_notMem rs h

/-- Files that are added under different paths are listed as they come, those with records apart
from those without. -/
theorem addAll_of_nodup {files : List (Text × List TypeRecord)} : ∀ md : Metadata,
    (md.paths ++ files.map Prod.fst).Nodup →
    md.addAll files = { md with
      files := md.files ++ files.filter (!·.2.isEmpty)
      unannotated := md.unannotated ++ (files.filter (·.2.isEmpty)).map Prod.fst } := by
  induction files with
  | nil =>
    intro md _
    simp [addAll]
  | cons f files ih =>
    intro md hnodup
    have hcons : md.addAll (f :: files) = (md.add f.1 f.2).addAll files := rfl
    rw [List.map_cons, List.nodup_append] at hnodup
    obtain ⟨hpaths, hfiles, hnew⟩ := hnodup
    have hf : f.1 ∉ md.paths := fun hmem => hnew _ hmem _ List.mem_cons_self rfl
    have hrest : (md.paths ++ files.map Prod.fst).Nodup := List.nodup_append.mpr
      ⟨hpaths, (List.nodup_cons.mp hfiles).2, fun p hp q hq =>
        hnew p hp q (List.mem_cons_of_mem _ hq)⟩
    by_cases hrecords : f.2.isEmpty = true
    · have hadd : md.add f.1 f.2 = { md with unannotated := md.unannotated ++ [f.1] } :=
        if_pos hrecords
      rw [hcons, hadd, ih { md with unannotated := md.unannotated ++ [f.1] } hrest]
      simp [hrecords]
    · have hadd : md.add f.1 f.2 = { md with files := md.files ++ [f] } := by
        rw [add, if_neg hrecords, insert_of_notMem f.2 hf]
      have hrest' : (({ md with files := md.files ++ [f] } : Metadata).paths ++
          files.map Prod.fst).Nodup := by
        rw [paths, List.map_append, List.append_assoc]
        exact List.nodup_append.mpr ⟨hpaths, hfiles, hnew⟩
      rw [hcons, hadd, ih _ hrest']
      simp [hrecords]

/-- Files that are added to an empty record set under different paths. -/
theorem addAll_empty {files : List (Text × List TypeRecord)} (h : (files.map Prod.fst).Nodup)
    (root : Text) :
    (empty root).addAll files =
      { root, files := files.filter (!·.2.isEmpty),
        unannotated := (files.filter (·.2.isEmpty)).map Prod.fst } :=
  addAll_of_nodup (empty root) h

/-! ## Records of a file -/

theorem records_of_mem {md : Metadata} (hnodup : md.paths.Nodup) {path : Text}
    {rs : List TypeRecord} (h : (path, rs) ∈ md.files) : md.records path = rs := by
  rw [records, lookup_eq_some_of_mem hnodup h]
  rfl

/-- A path under which there is a record is that of a file. -/
theorem mem_files_of_getElem? {md : Metadata} {path : Text} {i : Nat} {r : TypeRecord}
    (h : (md.records path)[i]? = some r) : (path, md.records path) ∈ md.files := by
  unfold records at h ⊢
  cases hl : md.files.lookup path with
  | none =>
    rw [hl] at h
    exact absurd h (by simp)
  | some rs => exact mem_of_lookup_eq_some hl

/-! ## Occurrences -/

/-- The places of one file with their records. -/
def fileOccurrences (f : Text × List TypeRecord) : List ((Text × Nat) × TypeRecord) :=
  f.2.zipIdx.map fun ri => ((f.1, ri.2), ri.1)

/-- The places of a record set with their records, in the order of files and records. -/
def occurrences (md : Metadata) : List ((Text × Nat) × TypeRecord) :=
  md.files.flatMap fileOccurrences

theorem mem_fileOccurrences_iff {f : Text × List TypeRecord} {p : Text} {i : Nat}
    {r : TypeRecord} : ((p, i), r) ∈ fileOccurrences f ↔ p = f.1 ∧ f.2[i]? = some r := by
  simp only [fileOccurrences, List.mem_map, Prod.exists, List.mem_zipIdx_iff_getElem?,
    Prod.mk.injEq]
  constructor
  · rintro ⟨r', i', h, ⟨rfl, rfl⟩, rfl⟩
    exact ⟨rfl, h⟩
  · rintro ⟨rfl, h⟩
    exact ⟨r, i, h, ⟨rfl, rfl⟩, rfl⟩

/-- A place is listed with the record that it has. -/
theorem mem_occurrences_iff {md : Metadata} (hnodup : md.paths.Nodup) {p : Text} {i : Nat}
    {r : TypeRecord} : ((p, i), r) ∈ md.occurrences ↔ (md.records p)[i]? = some r := by
  rw [occurrences, List.mem_flatMap]
  constructor
  · rintro ⟨⟨q, rs⟩, hf, h⟩
    obtain ⟨rfl, h⟩ := mem_fileOccurrences_iff.mp h
    rw [records_of_mem hnodup hf]
    exact h
  · intro h
    exact ⟨(p, md.records p), mem_files_of_getElem? h, mem_fileOccurrences_iff.mpr ⟨rfl, h⟩⟩

theorem fileOccurrences_nodup (f : Text × List TypeRecord) : (fileOccurrences f).Nodup := by
  refine List.Nodup.map ?_ ?_
  · rintro ⟨r, i⟩ ⟨r', i'⟩ h
    simp only [Prod.mk.injEq, true_and] at h
    exact Prod.ext h.2 h.1
  · exact List.Nodup.of_map Prod.snd (by rw [List.zipIdx_map_snd]; exact List.nodup_range')

/-- No place is listed twice. -/
theorem occurrences_nodup {md : Metadata} (hnodup : md.paths.Nodup) : md.occurrences.Nodup := by
  refine List.nodup_flatMap.mpr ⟨fun f _ => fileOccurrences_nodup f, ?_⟩
  refine (List.pairwise_map.mp hnodup).imp ?_
  intro f g hne
  refine List.disjoint_left.mpr ?_
  rintro ⟨⟨p, i⟩, r⟩ hf hg
  exact hne ((mem_fileOccurrences_iff.mp hf).1.symm.trans (mem_fileOccurrences_iff.mp hg).1)

end Metadata

end ReflectGen

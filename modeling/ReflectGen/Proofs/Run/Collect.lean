import ReflectGen.Run.Collect
import ReflectGen.Proofs.Discovery
import ReflectGen.Proofs.Metadata

/-!
# Collected records

Scanning goes through the discovered files one after the other and adds what each of them has.  When
no path comes twice, the files with records are exactly the discovered files that were scanned
without a failure and have a record, each with the records of its own scan.

* `Run.scanned?`: what scanning one file adds to the files with records; `Run.isUnannotated`: it
  adds to the files without records.
* `Run.files_scanFiles`: the files with records after a scan.
* `Run.exists_paths_of_collect`: what a collection holds, by the discovered files.
* `Run.collect_congr`: what is collected from another tree.
-/

namespace ReflectGen

namespace Run

/-- A file with its records, if its scan has no failure and at least one record. -/
def scanned? (run : Run) (t : FileTree) (path : Text) : Option (Text × List TypeRecord) :=
  let s := scanFile run.tokens t path
  if s.failures.isEmpty && !s.scan.records.isEmpty then some (path, s.scan.records) else none

variable {run : Run} {t : FileTree}

/-- What a file with records was scanned from. -/
theorem scanned?_eq_some {path : Text} {f : Text × List TypeRecord}
    (h : run.scanned? t path = some f) :
    f.1 = path ∧ ∃ text, t.load path = .ok text ∧
      (Scan.run run.tokens path text).failures path = [] ∧
      f.2 = (Scan.run run.tokens path text).records := by
  unfold scanned? at h
  rw [Option.ite_none_right_eq_some, Bool.and_eq_true] at h
  obtain ⟨⟨hfail, -⟩, hf⟩ := h
  unfold scanFile at hfail hf
  split at hfail
  · exact absurd hfail (by simp)
  · next text hload =>
    rw [hload] at hf
    rw [← Option.some.inj hf]
    exact ⟨rfl, text, hload, List.isEmpty_iff.mp hfail, rfl⟩

/-- One scan adds its file at the end, if it adds a file. -/
theorem files_addScan (run : Run) (t : FileTree) {md : Metadata} {path : Text}
    (h : path ∉ md.paths) :
    (addScan md path (scanFile run.tokens t path)).files =
      md.files ++ (run.scanned? t path).toList := by
  unfold addScan scanned?
  dsimp only
  by_cases hfail : (scanFile run.tokens t path).failures.isEmpty
  · rw [if_pos hfail, Metadata.add]
    by_cases hrec : (scanFile run.tokens t path).scan.records.isEmpty
    · simp [hrec]
    · rw [if_neg hrec, if_pos (by simp [hfail, hrec])]
      exact Metadata.insert_of_notMem _ h
  · rw [if_neg hfail, if_neg (by simp [hfail])]
    simp

theorem paths_addScan_subset {md : Metadata} {path p : Text} {s : FileScan}
    (h : p ∈ (addScan md path s).paths) : p = path ∨ p ∈ md.paths := by
  unfold addScan at h
  split at h
  · unfold Metadata.add at h
    split at h
    · exact .inr h
    · exact Metadata.mem_map_fst_insert h
  · exact .inr h

/-- The files with records after a scan of paths that are new and different. -/
theorem files_scanFiles {paths : List Text} : ∀ {md : Metadata}, paths.Nodup →
    (∀ p ∈ paths, p ∉ md.paths) →
    (run.scanFiles t paths md).1.files = md.files ++ paths.filterMap (run.scanned? t) := by
  induction paths with
  | nil =>
    intro md _ _
    rw [List.filterMap_nil, List.append_nil]
    rfl
  | cons path paths ih =>
    intro md hnodup hfresh
    rw [List.nodup_cons] at hnodup
    have hpath := files_addScan run t (hfresh path List.mem_cons_self)
    have hrest : ∀ p ∈ paths, p ∉ (addScan md path (scanFile run.tokens t path)).paths := by
      intro p hp hmem
      rcases paths_addScan_subset hmem with rfl | hmem
      · exact hnodup.1 hp
      · exact hfresh p (List.mem_cons_of_mem path hp) hmem
    show (run.scanFiles t paths (addScan md path (scanFile run.tokens t path))).1.files = _
    rw [ih hnodup.2 hrest, hpath, List.append_assoc, List.filterMap_cons]
    cases run.scanned? t path <;> rfl

theorem paths_nodup_scanFiles {paths : List Text} : ∀ {md : Metadata}, md.paths.Nodup →
    (run.scanFiles t paths md).1.paths.Nodup := by
  induction paths with
  | nil => exact fun h => h
  | cons path paths ih =>
    intro md h
    have hadd : (addScan md path (scanFile run.tokens t path)).paths.Nodup := by
      unfold addScan
      split
      · exact Metadata.paths_nodup_add h path _
      · exact h
    exact ih hadd

/-- The record set of a run is that of the discovered files. -/
theorem collect_metadata_eq_some {md : Metadata} (h : (run.collect t).metadata = some md) :
    ∃ paths, Discovery.find t run.root run.included run.excluded = .ok paths ∧
      md = (run.scanFiles t paths (Metadata.empty run.root)).1 := by
  unfold collect at h
  split at h
  · exact absurd h (by simp)
  · dsimp only at h
    split at h
    · exact absurd h (by simp)
    · next paths hfind => exact ⟨paths, hfind, (Option.some.inj h).symm⟩
  · exact absurd h (by simp)

theorem collect_of_find {top : Location} {paths : List Text}
    (hstat : t.stat run.root = .ok (top, .directory))
    (hfind : Discovery.find t run.root run.included run.excluded = .ok paths) :
    (run.collect t).metadata = some (run.scanFiles t paths (Metadata.empty run.root)).1 := by
  unfold collect
  rw [hstat]
  dsimp only
  rw [hfind]

/-- Paths that a walk through a real directory comes to in byte order are what is scanned. -/
theorem collect_of_sorted {top : Location} {paths : List Text}
    (hreal : t.lstat run.root = .ok (top, .directory))
    (hinc : (Pattern.readAll run.included).toOption.isSome)
    (hexc : (Pattern.readAll run.excluded).toOption.isSome)
    (hwalk : (Discovery.walk t (Discovery.patterns run.included)
      (Discovery.patterns run.excluded) run.root).toOption = some paths)
    (hsorted : paths.Pairwise fun p q => Text.le p q = true) :
    (run.collect t).metadata = some (run.scanFiles t paths (Metadata.empty run.root)).1 :=
  collect_of_find (FileTree.stat_of_lstat hreal)
    (Discovery.find_of_sorted hinc hexc hreal hwalk hsorted)

/-- Each file with records was discovered, and its records are those of its own scan. -/
theorem mem_files_collect {md : Metadata} (h : (run.collect t).metadata = some md)
    (hnodup : ∀ paths, Discovery.find t run.root run.included run.excluded = .ok paths →
      paths.Nodup) {f : Text × List TypeRecord} (hf : f ∈ md.files) :
    (∃ paths, Discovery.find t run.root run.included run.excluded = .ok paths ∧ f.1 ∈ paths) ∧
      ∃ text, t.load f.1 = .ok text ∧ (Scan.run run.tokens f.1 text).failures f.1 = [] ∧
        f.2 = (Scan.run run.tokens f.1 text).records := by
  obtain ⟨paths, hfind, rfl⟩ := collect_metadata_eq_some h
  rw [files_scanFiles (hnodup paths hfind) (by simp [Metadata.empty, Metadata.paths]),
    List.mem_append, or_iff_right (by simp [Metadata.empty]), List.mem_filterMap] at hf
  obtain ⟨path, hpath, hscan⟩ := hf
  obtain ⟨rfl, hscan⟩ := scanned?_eq_some hscan
  exact ⟨⟨paths, hfind, hpath⟩, hscan⟩

/-- The scan of the file has neither a failure nor a record. -/
def isUnannotated (run : Run) (t : FileTree) (path : Text) : Bool :=
  let s := scanFile run.tokens t path
  s.failures.isEmpty && s.scan.records.isEmpty

theorem unannotated_addScan (run : Run) (t : FileTree) (md : Metadata) (path : Text) :
    (addScan md path (scanFile run.tokens t path)).unannotated =
      md.unannotated ++ if run.isUnannotated t path then [path] else [] := by
  unfold addScan isUnannotated
  dsimp only
  by_cases hfail : (scanFile run.tokens t path).failures.isEmpty
  · rw [if_pos hfail, Metadata.add]
    by_cases hrec : (scanFile run.tokens t path).scan.records.isEmpty
    · simp [hrec, hfail]
    · simp [hrec]
  · simp [hfail]

/-- The files without records after a scan. -/
theorem unannotated_scanFiles {paths : List Text} : ∀ {md : Metadata},
    (run.scanFiles t paths md).1.unannotated =
      md.unannotated ++ paths.filter (run.isUnannotated t) := by
  induction paths with
  | nil => exact (List.append_nil _).symm
  | cons path paths ih =>
    intro md
    show (run.scanFiles t paths (addScan md path (scanFile run.tokens t path))).1.unannotated = _
    rw [ih, unannotated_addScan, List.append_assoc, List.filter_cons]
    split <;> rfl

/-- The failures of all scans, in a row. -/
theorem failures_scanFiles {paths : List Text} : ∀ {md : Metadata},
    (run.scanFiles t paths md).2.1 =
      paths.flatMap fun path => (scanFile run.tokens t path).failures := by
  induction paths with
  | nil => exact rfl
  | cons path paths ih =>
    intro md
    show (scanFile run.tokens t path).failures ++
      (run.scanFiles t paths (addScan md path (scanFile run.tokens t path))).2.1 = _
    rw [ih, List.flatMap_cons]

theorem collect_failures_of_find {paths : List Text} {md : Metadata}
    (h : (run.collect t).metadata = some md)
    (hfind : Discovery.find t run.root run.included run.excluded = .ok paths) :
    (run.collect t).failures = (run.scanFiles t paths (Metadata.empty run.root)).2.1 := by
  unfold collect at h ⊢
  rw [hfind] at h ⊢
  split at h
  · exact absurd h (by simp)
  · rfl
  · exact absurd h (by simp)

/-- What a collection holds: the discovered files that have records, those that have none, and the
failures of all others. -/
theorem exists_paths_of_collect (hwf : t.WellFormed) {md : Metadata}
    (h : (run.collect t).metadata = some md) :
    ∃ paths, Discovery.find t run.root run.included run.excluded = .ok paths ∧ paths.Nodup ∧
      md.files = paths.filterMap (run.scanned? t) ∧
      md.unannotated = paths.filter (run.isUnannotated t) ∧
      (run.collect t).failures =
        paths.flatMap fun path => (scanFile run.tokens t path).failures := by
  obtain ⟨paths, hfind, hmd⟩ := collect_metadata_eq_some h
  have hnodup := Discovery.nodup_of_find hwf hfind
  refine ⟨paths, hfind, hnodup, ?_, ?_, ?_⟩
  · rw [hmd, files_scanFiles hnodup (by simp [Metadata.empty, Metadata.paths])]
    rfl
  · rw [hmd, unannotated_scanFiles]
    rfl
  · rw [collect_failures_of_find h hfind, failures_scanFiles]

theorem paths_nodup_collect {md : Metadata} (h : (run.collect t).metadata = some md) :
    md.paths.Nodup := by
  obtain ⟨paths, -, rfl⟩ := collect_metadata_eq_some h
  exact paths_nodup_scanFiles List.nodup_nil

/-! ## Collecting from another tree -/

/-- Scanning looks at the contents of the files alone. -/
theorem scanFiles_congr {t' : FileTree} {paths : List Text} : ∀ {md : Metadata},
    (∀ p ∈ paths, t'.load p = t.load p) →
    run.scanFiles t' paths md = run.scanFiles t paths md := by
  induction paths with
  | nil => exact fun _ => rfl
  | cons p paths ih =>
    intro md h
    have hscan : scanFile run.tokens t' p = scanFile run.tokens t p := by
      rw [scanFile, scanFile, h p List.mem_cons_self]
    rw [scanFiles, scanFiles, hscan, ih fun q hq => h q (List.mem_cons_of_mem p hq)]

/-- The same is collected from two trees in which the same files with the same contents are
discovered. -/
theorem collect_congr {t' : FileTree} {top : Location}
    (hstat : t.stat run.root = .ok (top, .directory))
    (hstat' : t'.stat run.root = .ok (top, .directory))
    (hfind : Discovery.find t' run.root run.included run.excluded =
      Discovery.find t run.root run.included run.excluded)
    (hload : ∀ paths, Discovery.find t run.root run.included run.excluded = .ok paths →
      ∀ p ∈ paths, t'.load p = t.load p) : run.collect t' = run.collect t := by
  unfold collect
  rw [hstat, hstat', hfind]
  dsimp only
  cases hpaths : Discovery.find t run.root run.included run.excluded with
  | error e => rfl
  | ok paths =>
    dsimp only
    rw [scanFiles_congr (hload paths hpaths)]

end Run

end ReflectGen

import ReflectGen.Proofs.Run.Modes
import ReflectGen.Proofs.Run.Rejection

/-!
# One file more

A record set grows by a file with records.  Clashes are found by looking at all files, so the new
file can be the cause of a refusal anywhere in the run; but it never takes one back, and it reaches
no further than its own output path and its own variables.  A source that shares neither with it is
treated as before, down to the texts of messages.

* `Metadata.add_of_new`: the new file comes last; with it come one claimant at most
  (`Metadata.claimants_add`) and the sites of its own records (`Metadata.sites_add`).
* `Run.Collides.add`, `Metadata.SharesVariable.add`: a clash stays.
* `Clash.messages_append`: sites elsewhere with other variables change no message.
* `Run.verdict_add`, `Run.orphan?_add`: what is decided about a source that the new file does not
  reach.
* `Run.emit_add`: refusals are kept, and the rest is local.
-/

namespace ReflectGen

/-- Entries that are not looked for do not show in what is found. -/
theorem filter_append_of_forall_not {α : Type} {p : α → Bool} {new : List α}
    (h : ∀ a ∈ new, p a = false) (l : List α) : (l ++ new).filter p = l.filter p := by
  have hnone : new.filter p = [] := List.filter_eq_nil_iff.mpr fun a ha => by simp [h a ha]
  rw [List.filter_append, hnone, List.append_nil]

namespace Metadata

/-! ## The record set with a new file -/

variable {md : Metadata} {path : Text} {records : List TypeRecord}

/-- A new file with records comes last. -/
theorem add_of_new (hnew : path ∉ md.paths) (hrecords : records ≠ []) :
    md.add path records = { md with files := md.files ++ [(path, records)] } := by
  rw [add, if_neg (by simpa using hrecords), insert_of_notMem records hnew]

theorem claimants_add (hnew : path ∉ md.paths) (hrecords : records ≠ []) (suffix output : Text) :
    (md.add path records).claimants suffix output =
      md.claimants suffix output ++ if outputPath path suffix = output then [path] else [] := by
  rw [add_of_new hnew hrecords, claimants, paths, List.map_append, List.filter_append]
  simp [claimants, paths, List.filter_cons]

/-- The sites of one file. -/
def fileSites (f : Text × List TypeRecord) : List Site :=
  f.2.map fun r => { source := f.1, line := r.line, name := r.name }

theorem sites_add (hnew : path ∉ md.paths) (hrecords : records ≠ []) :
    (md.add path records).sites = md.sites ++ fileSites (path, records) := by
  rw [add_of_new hnew hrecords, sites, List.flatMap_append, List.flatMap_singleton]
  rfl

/-- The other files keep their records. -/
theorem records_add (hnew : path ∉ md.paths) (hrecords : records ≠ []) {source : Text}
    (hsource : source ∈ md.paths) : (md.add path records).records source = md.records source := by
  obtain ⟨f, hf, rfl⟩ := List.mem_map.mp hsource
  have hsome : (md.files.lookup f.1).isSome := by
    rw [List.lookup_isSome_iff]
    exact ⟨f, hf, beq_self_eq_true _⟩
  obtain ⟨rs, hrs⟩ := Option.isSome_iff_exists.mp hsome
  rw [add_of_new hnew hrecords, Metadata.records, Metadata.records, List.lookup_append, hrs]
  rfl

/-- A record that is shared with another place is still shared. -/
theorem SharesVariable.add {lead source : Text} (h : md.SharesVariable lead source)
    (hnew : path ∉ md.paths) (hrecords : records ≠ []) :
    (md.add path records).SharesVariable lead source := by
  obtain ⟨i, r, other, j, r', hr, hr', hne, hvar⟩ := h
  have hsource : source ∈ md.paths := List.mem_map_of_mem (mem_files_of_getElem? hr)
  have hother : other ∈ md.paths := List.mem_map_of_mem (mem_files_of_getElem? hr')
  refine ⟨i, r, other, j, r', ?_, ?_, hne, hvar⟩
  · rw [records_add hnew hrecords hsource, hr]
  · rw [records_add hnew hrecords hother, hr']

/-- The site of a record of the file `source` names one of its records. -/
theorem exists_record_of_mem_sites (hnodup : md.paths.Nodup) {s : Site} (hs : s ∈ md.sites) :
    ∃ r ∈ md.records s.source, s.name = r.name := by
  obtain ⟨f, hf, hsite⟩ := List.mem_flatMap.mp hs
  obtain ⟨r, hr, rfl⟩ := List.mem_map.mp hsite
  refine ⟨r, ?_, rfl⟩
  rw [records_of_mem hnodup hf]
  exact hr

end Metadata

namespace Clash

/-! ## Messages with more sites -/

variable {lead source : Text} {sites new : List Site}

/-- Sites in other files whose variables are none of the source's own change nothing of what is said
to the source. -/
theorem messages_append (hsource : ∀ s ∈ new, s.source ≠ source)
    (hvar : ∀ s ∈ sites, s.source = source → ∀ s' ∈ new,
      descriptorName lead s.name ≠ descriptorName lead s'.name) :
    messages lead (sites ++ new) source = messages lead sites source := by
  have hown : (sites ++ new).filter (·.source == source) = sites.filter (·.source == source) :=
    filter_append_of_forall_not (fun s hs => beq_false_of_ne (hsource s hs)) sites
  -- the groups of the source's own names and variables have no new member
  have hnames : ∀ s ∈ sites, s.source = source →
      sitesOfName (sites ++ new) s.name = sitesOfName sites s.name := by
    intro s hs hown
    refine filter_append_of_forall_not (fun s' hs' => beq_false_of_ne fun heq => ?_) sites
    exact hvar s hs hown s' hs' (by rw [heq])
  have hvariables : ∀ s ∈ sites, s.source = source →
      sitesOfVariable lead (sites ++ new) (descriptorName lead s.name) =
        sitesOfVariable lead sites (descriptorName lead s.name) := by
    intro s hs hown
    exact filter_append_of_forall_not
      (fun s' hs' => beq_false_of_ne (hvar s hs hown s' hs').symm) sites
  unfold messages messagesInOrder
  rw [hown]
  dsimp only
  congr 2
  · refine List.filterMap_congr fun name hname => ?_
    obtain ⟨s, hs, rfl⟩ := List.mem_map.mp (List.mem_eraseDups.mp hname)
    rw [List.mem_filter, beq_iff_eq] at hs
    rw [nameMessage?, nameMessage?, hnames s hs.1 hs.2]
  · refine List.filterMap_congr fun variableName hname => ?_
    obtain ⟨s, hs, rfl⟩ := List.mem_map.mp (List.mem_eraseDups.mp hname)
    rw [List.mem_filter, beq_iff_eq] at hs
    rw [variableMessage?, variableMessage?, hvariables s hs.1 hs.2]

end Clash

namespace Run

variable {run : Run} {md : Metadata} {path : Text} {records : List TypeRecord}

/-! ## Refusals are kept -/

theorem Collides.add {source : Text} (h : run.Collides md source) (hnew : path ∉ md.paths)
    (hrecords : records ≠ []) : run.Collides (md.add path records) source := by
  unfold Collides at h ⊢
  rw [Metadata.claimants_add hnew hrecords, List.length_append]
  omega

theorem Duplicates.add {source : Text} (h : run.Duplicates md source) (hnodup : md.paths.Nodup)
    (hnew : path ∉ md.paths) (hrecords : records ≠ []) :
    run.Duplicates (md.add path records) source := by
  rw [duplicates_iff hnodup] at h
  rw [duplicates_iff (Metadata.paths_nodup_add hnodup path records)]
  exact h.add hnew hrecords

/-- A source is refused exactly if it collides or has a duplicate. -/
theorem Fate.isRefusal_iff {f : Text × List TypeRecord} {a : Artifact} (h : run.Fate md f a) :
    a.status.isRefusal = true ↔ run.Collides md f.1 ∨ run.Duplicates md f.1 := by
  have hrefusal : a.status.isRefusal = true ↔ a.status = .collision ∨ a.status = .duplicate := by
    cases a.status <;> simp [Status.isRefusal]
  rw [hrefusal, h.collision, h.duplicate]
  by_cases hc : run.Collides md f.1 <;> simp [hc]

/-! ## Everything else is local -/

/-- The source has another output path than the new file, and none of the variables of the new file
is one of its own. -/
structure Apart (run : Run) (md : Metadata) (path : Text) (records : List TypeRecord)
    (source : Text) : Prop where
  output : run.output source ≠ run.output path
  descriptors : ∀ r ∈ md.records source, ∀ r' ∈ records,
    descriptorName run.options.globalPrefix r.name ≠
      descriptorName run.options.globalPrefix r'.name

theorem Apart.ne {source : Text} (h : run.Apart md path records source) : source ≠ path :=
  fun heq => h.output (congrArg run.output heq)

theorem Apart.claimants {source : Text} (h : run.Apart md path records source)
    (hnew : path ∉ md.paths) (hrecords : records ≠ []) :
    (md.add path records).claimants run.options.suffix (run.output source) =
      md.claimants run.options.suffix (run.output source) := by
  have hne : outputPath path run.options.suffix ≠ run.output source := h.output.symm
  rw [Metadata.claimants_add hnew hrecords, if_neg hne, List.append_nil]

theorem Apart.messages {source : Text} (h : run.Apart md path records source)
    (hnodup : md.paths.Nodup) (hnew : path ∉ md.paths) (hrecords : records ≠ []) :
    Clash.messages run.options.globalPrefix (md.add path records).sites source =
      Clash.messages run.options.globalPrefix md.sites source := by
  rw [Metadata.sites_add hnew hrecords]
  refine Clash.messages_append (fun s' hs' => ?_) fun s hs hsource s' hs' => ?_
  · obtain ⟨r', -, rfl⟩ := List.mem_map.mp hs'
    exact h.ne.symm
  · obtain ⟨r', hr', rfl⟩ := List.mem_map.mp hs'
    obtain ⟨r, hr, hname⟩ := Metadata.exists_record_of_mem_sites hnodup hs
    rw [hname]
    exact h.descriptors r (hsource ▸ hr) r' hr'

/-- What is decided about a source that the new file does not reach. -/
theorem verdict_add {f : Text × List TypeRecord} (h : run.Apart md path records f.1)
    (hnodup : md.paths.Nodup) (hnew : path ∉ md.paths) (hrecords : records ≠ []) :
    run.verdict (md.add path records) f = run.verdict md f := by
  unfold verdict
  rw [h.claimants hnew hrecords, h.messages hnodup hnew hrecords]

/-- What a check says of the output that a source without records has left behind. -/
theorem orphan?_add {source : Text} (h : run.Apart md path records source)
    (hnew : path ∉ md.paths) (hrecords : records ≠ []) (t : FileTree) :
    run.orphan? (md.add path records) t source = run.orphan? md t source := by
  unfold orphan?
  dsimp only
  rw [h.claimants hnew hrecords]

/-! ## The artifacts of one source -/

/-- The artifacts of one source come in the order in which they were made. -/
theorem filter_mergeSort_bySource (as : List Artifact) (source : Text) :
    (as.mergeSort bySource).filter (fun a => a.source == source) =
      as.filter fun a => a.source == source := by
  have hsorted : (as.filter fun a => a.source == source).Pairwise fun a b => bySource a b := by
    refine List.pairwise_of_forall_mem_list fun a ha b hb => ?_
    have hsource := beq_iff_eq.mp (List.mem_filter.mp ha).2
    have hsource' := beq_iff_eq.mp (List.mem_filter.mp hb).2
    rw [bySource, hsource, hsource', Text.le_eq_true_iff]
    exact List.le_refl source
  have hsub : (as.filter fun a => a.source == source).Sublist (as.mergeSort bySource) := by
    refine List.sublist_mergeSort ?_ ?_ hsorted List.filter_sublist
    · exact fun _ _ _ h h' => Text.le_trans h h'
    · exact fun a b => Text.le_total a.source b.source
  have hfilter := hsub.filter fun a => a.source == source
  rw [List.filter_filter] at hfilter
  simp only [Bool.and_self] at hfilter
  exact (hfilter.eq_of_length (((List.mergeSort_perm as bySource).filter _).length_eq.symm)).symm

/-- The artifacts that a source has in a run that writes nothing. -/
theorem filter_artifacts_of_not_write (hmode : run.mode ≠ .write) (t : FileTree) (md : Metadata)
    (source : Text) :
    (run.emit t md).2.artifacts.filter (fun a => a.source == source) =
      ((md.files.filter fun f => f.1 == source).flatMap fun f =>
        (run.emitSource md t f.1 f.2).2.artifacts) ++
      if run.mode = .check then
        ((md.unannotated.filter fun p => p == source).filter fun p =>
          (run.orphan? md t p).isSome).map run.orphanArtifact
      else [] := by
  have hsources : ∀ files : List (Text × List TypeRecord),
      (files.flatMap fun f => (run.emitSource md t f.1 f.2).2.artifacts).filter
          (fun a => a.source == source) =
        (files.filter fun f => f.1 == source).flatMap fun f =>
          (run.emitSource md t f.1 f.2).2.artifacts := by
    intro files
    induction files with
    | nil => rfl
    | cons f files ih =>
      obtain ⟨a, ha, hfate⟩ := run.emitSource_fate md t f
      rw [List.flatMap_cons, List.filter_append, ih, ha, List.filter_cons, List.filter_cons,
        hfate.source]
      split
      · rw [List.flatMap_cons, ha]
        rfl
      · rfl
  rw [emit_eq, filter_mergeSort_bySource, Emission.artifacts_append, List.filter_append,
    emitSources_eq_alone hmode, artifacts_alone, hsources, artifacts_orphans]
  congr 1
  split
  · rw [List.filter_map, List.filter_filter, List.filter_filter]
    congr 2
    funext p
    exact Bool.and_comm _ _
  · rfl

/-- A source that the new file does not reach has the artifacts that it had. -/
theorem filter_artifacts_emit_add (hmode : run.mode ≠ .write) {source : Text}
    (h : run.Apart md path records source) (hnodup : md.paths.Nodup) (hnew : path ∉ md.paths)
    (hrecords : records ≠ []) (t : FileTree) :
    (run.emit t (md.add path records)).2.artifacts.filter (fun a => a.source == source) =
      (run.emit t md).2.artifacts.filter (fun a => a.source == source) := by
  have hfiles : (md.add path records).files.filter (fun f => f.1 == source) =
      md.files.filter fun f => f.1 == source := by
    rw [Metadata.add_of_new hnew hrecords]
    exact filter_append_of_forall_not (by simpa using h.ne.symm) md.files
  have hbare : (md.add path records).unannotated = md.unannotated := by
    rw [Metadata.add_of_new hnew hrecords]
  rw [filter_artifacts_of_not_write hmode, filter_artifacts_of_not_write hmode, hfiles, hbare]
  congr 1
  · refine List.flatMap_congr fun f hf => ?_
    have hf₁ := beq_iff_eq.mp (List.mem_filter.mp hf).2
    rw [emitSource_eq, emitSource_eq, verdict_add (hf₁ ▸ h) hnodup hnew hrecords]
  · split
    · congr 1
      refine List.filter_congr fun p hp => ?_
      have hp₁ := beq_iff_eq.mp (List.mem_filter.mp hp).2
      rw [orphan?_add (hp₁ ▸ h) hnew hrecords]
    · rfl

/-- **Refusals are kept, and everything else is local.**  A file with records is added to a record
set under a new path.  Every source that was refused is refused with it, too, whatever the trees and
the mode; and in a run that writes nothing, a source with another output path whose variables are
none of the new file's has the artifacts that it had. -/
theorem emit_add (run : Run) (md : Metadata) (path : Text) (records : List TypeRecord)
    (hnodup : md.paths.Nodup) (hnew : path ∉ md.paths) (hrecords : records ≠ []) :
    (∀ (t t' : FileTree), ∀ f ∈ md.files, ∃ a a',
      (run.emit t md).2.artifacts.filter (fun b => b.source == f.1) = [a] ∧
      (run.emit t' (md.add path records)).2.artifacts.filter (fun b => b.source == f.1) = [a'] ∧
      (a.status.isRefusal → a'.status.isRefusal)) ∧
    (run.mode ≠ .write → ∀ (t : FileTree) (source : Text), run.output source ≠ run.output path →
      (∀ r ∈ md.records source, ∀ r' ∈ records,
        descriptorName run.options.globalPrefix r.name ≠
          descriptorName run.options.globalPrefix r'.name) →
      (run.emit t (md.add path records)).2.artifacts.filter (fun a => a.source == source) =
        (run.emit t md).2.artifacts.filter (fun a => a.source == source)) := by
  constructor
  · intro t t' f hf
    have hnodup' := Metadata.paths_nodup_add hnodup path records
    have hf' : f ∈ (md.add path records).files := by
      rw [Metadata.add_of_new hnew hrecords]
      exact List.mem_append_left _ hf
    obtain ⟨a, ha, hfate⟩ := run.filter_artifacts_emit t hnodup hf
    obtain ⟨a', ha', hfate'⟩ := run.filter_artifacts_emit t' hnodup' hf'
    refine ⟨a, a', ha, ha', ?_⟩
    rw [hfate.isRefusal_iff, hfate'.isRefusal_iff]
    rintro (hc | hd)
    · exact .inl (hc.add hnew hrecords)
    · exact .inr (hd.add hnodup hnew hrecords)
  · intro hmode t source houtput hdescriptors
    exact filter_artifacts_emit_add hmode ⟨houtput, hdescriptors⟩ hnodup hnew hrecords t

/-- The clashing files, and one that clashes with none of them. -/
def crowdedMetadata : Metadata :=
  clashingMetadata.add (lit "w.h") [{ name := lit "W", line := 2, members := [] }]

/-- A new file with a type of the first clashing file. -/
def newRecords : List TypeRecord := [{ name := lit "A", line := 7, members := [] }]

/-- With the new file the source of the duplicates stays refused, and a check says of the file
without a clash what it said before: that its output is missing. -/
theorem emit_add_crowdedMetadata :
    let run := standardRun .check
    let result := run.emit (.empty []) crowdedMetadata
    let result' := run.emit (.empty []) (crowdedMetadata.add (lit "z.h") newRecords)
    crowdedMetadata.paths.Nodup ∧ lit "z.h" ∉ crowdedMetadata.paths ∧ newRecords ≠ [] ∧
      (∃ a a', result.2.artifacts.filter (fun b => b.source == lit "y.h") = [a] ∧
        result'.2.artifacts.filter (fun b => b.source == lit "y.h") = [a'] ∧
        a.status.isRefusal ∧ a'.status.isRefusal) ∧
      result'.2.artifacts.filter (fun b => b.source == lit "w.h") =
        result.2.artifacts.filter (fun b => b.source == lit "w.h") ∧
      (result.2.artifacts.filter (fun b => b.source == lit "w.h")).map Artifact.status =
        [.stale] := by
  have hnodup : crowdedMetadata.paths.Nodup := by decide +kernel
  have hnew : lit "z.h" ∉ crowdedMetadata.paths := by decide +kernel
  have hrecords : newRecords ≠ [] := by decide
  have hmode : (standardRun .check).mode ≠ .write := by decide
  obtain ⟨hkept, hlocal⟩ := emit_add (standardRun .check) crowdedMetadata (lit "z.h") newRecords
    hnodup hnew hrecords
  refine ⟨hnodup, hnew, hrecords, ?_, hlocal hmode _ _ (by decide +kernel) (by decide +kernel), ?_⟩
  · obtain ⟨a, a', ha, ha', hrefused⟩ := hkept (.empty []) (.empty [])
      (lit "y.h", [{ name := lit "n::C", line := 2, members := [] },
        { name := lit "n__C", line := 4, members := [] }]) (by decide +kernel)
    have hstatus : [a].map Artifact.status = [.duplicate] := by
      rw [← ha, filter_artifacts_of_not_write hmode]
      decide +kernel
    have hrefusal : a.status.isRefusal = true := by
      rw [List.singleton_inj.mp hstatus]
      rfl
    exact ⟨a, a', ha, ha', hrefusal, hrefused hrefusal⟩
  · rw [filter_artifacts_of_not_write hmode]
    decide +kernel

end Run

end ReflectGen

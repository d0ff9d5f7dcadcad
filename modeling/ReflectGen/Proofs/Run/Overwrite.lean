import ReflectGen.Proofs.Run.Frame

/-!
# Sources that a run overwrites

Outputs are compared with each other before anything is written, but never with sources.  With a
free choice of the suffix an output can be a file that was scanned, and a write run then replaces
that file (`Run.selfRun_overwrites_source`).

This file says what stays of the sources without any condition on the paths of outputs: a location
to which no written output goes is as it was, and any other holds what was rendered for one of the
written outputs that go there.

* `Run.LastWrite`: what emission has done at a location; `Run.emitSources_lastWrite`: every location
  is one of the two kinds.
* `Run.generate_overwrites_only_at_outputs`: what a write run does to its own sources.
-/

namespace ReflectGen

namespace FileTree

variable {t t' : FileTree}

/-- A path denotes the file at a location exactly if it is written there. -/
theorem stat_eq_file_iff {path : Text} {loc : Location} {content : Text}
    (hentry : t.entry? loc = some (.file content)) :
    t.stat path = .ok (loc, .file content) ↔ t.writeLocation path = .ok loc := by
  constructor
  · intro h
    rw [writeLocation_eq_ok_iff, locate_eq_ok_iff.mp h]
    rfl
  · exact fun h => (stat_of_writeLocation h hentry).1

end FileTree

namespace Run

/-! ## What is left at a location -/

/-- What emission has done at a location: nothing, and no written output goes there; or it has left
there what was rendered for a written output that goes there. -/
inductive LastWrite (run : Run) (md : Metadata) (t t' : FileTree)
    (files : List (Text × List TypeRecord)) (artifacts : List Artifact) (loc : Location) : Prop where
  | kept (hentry : t'.entry? loc = t.entry? loc)
    (hnone : ∀ a ∈ artifacts, a.status = .written → t.writeLocation a.output ≠ .ok loc)
  | stored (f : Text × List TypeRecord) (hf : f ∈ files) (a : Artifact) (ha : a ∈ artifacts)
    (hstatus : a.status = .written) (hsource : a.source = f.1) (houtput : a.output = run.output f.1)
    (content : Text) (hstored : run.Stored md t f loc content)
    (hentry : t'.entry? loc = some (.file content))

variable {run : Run} {md : Metadata} {t t' : FileTree} {f : Text × List TypeRecord}
  {files : List (Text × List TypeRecord)} {a : Artifact} {artifacts : List Artifact}
  {loc : Location}

/-- A source in front that leaves the tree alone. -/
theorem LastWrite.cons_unwritten (h : run.LastWrite md t t' files artifacts loc)
    (ha : a.status ≠ .written) : run.LastWrite md t t' (f :: files) (a :: artifacts) loc := by
  cases h with
  | kept hentry hnone =>
    refine .kept hentry fun b hb hstatus => ?_
    rcases List.mem_cons.mp hb with rfl | hb
    · exact absurd hstatus ha
    · exact hnone b hb hstatus
  | stored g hg b hb hstatus hsource houtput content hstored hentry =>
    exact .stored g (List.mem_cons_of_mem f hg) b (List.mem_cons_of_mem a hb) hstatus hsource
      houtput content hstored hentry

/-- A source in front that is stored somewhere: what comes later may go to the same place. -/
theorem LastWrite.cons_written {place : Location} {content : Text}
    (h : run.LastWrite md (t.put place (.file content)) t' files artifacts loc)
    (hstored : run.Stored md t f place content) (hstatus : a.status = .written)
    (hsource : a.source = f.1) (houtput : a.output = run.output f.1) :
    run.LastWrite md t t' (f :: files) (a :: artifacts) loc := by
  have houtline := FileTree.sameOutline_put hstored.2.2 content
  have hself := FileTree.entry?_put_self t (FileTree.outline_of_writeLocation hstored.2.2).1
    (.file content)
  cases h with
  | kept hentry hnone =>
    by_cases hplace : loc = place
    · rw [hplace, hself] at hentry
      rw [hplace]
      exact .stored f List.mem_cons_self a List.mem_cons_self hstatus hsource houtput content
        hstored hentry
    · rw [FileTree.entry?_put_of_ne t _ hplace] at hentry
      refine .kept hentry fun b hb hwritten hloc => ?_
      rcases List.mem_cons.mp hb with rfl | hb
      · rw [houtput, hstored.2.2] at hloc
        exact hplace (Except.ok.inj hloc).symm
      · exact hnone b hb hwritten ((FileTree.writeLocation_congr houtline).mp hloc)
  | stored g hg b hb hwritten hsource' houtput' content' hstored' hentry =>
    exact .stored g (List.mem_cons_of_mem f hg) b (List.mem_cons_of_mem a hb) hwritten hsource'
      houtput' content' (hstored'.congr houtline) hentry

/-- Emission keeps directories and links, and at every location it has done nothing or left the
text of a written output. -/
theorem emitSources_lastWrite (run : Run) (md : Metadata)
    (files : List (Text × List TypeRecord)) : ∀ t : FileTree,
    t.SameOutline (run.emitSources md t files).1 ∧
      ∀ loc, run.LastWrite md t (run.emitSources md t files).1 files
        (run.emitSources md t files).2.artifacts loc := by
  induction files with
  | nil => exact fun t => ⟨.refl t, fun loc => .kept rfl fun a ha => absurd ha List.not_mem_nil⟩
  | cons f files ih =>
    intro t
    obtain ⟨a, ha, hsource, houtput, hstep⟩ := run.emitSource_write md t f
    obtain ⟨houtline, hrest⟩ := ih (run.emitSource md t f.1 f.2).1
    show t.SameOutline (run.emitSources md (run.emitSource md t f.1 f.2).1 files).1 ∧ ∀ loc,
      run.LastWrite md t (run.emitSources md (run.emitSource md t f.1 f.2).1 files).1 (f :: files)
        ((run.emitSource md t f.1 f.2).2.artifacts ++
          (run.emitSources md (run.emitSource md t f.1 f.2).1 files).2.artifacts) loc
    rw [ha]
    rcases hstep with ⟨hstatus, htree⟩ | ⟨-, hstatus, place, content, hstored, htree⟩
    · rw [htree] at houtline hrest ⊢
      exact ⟨houtline, fun loc => (hrest loc).cons_unwritten hstatus⟩
    · rw [htree] at houtline hrest ⊢
      exact ⟨(FileTree.sameOutline_put hstored.2.2 content).trans houtline, fun loc =>
        (hrest loc).cons_written hstored hstatus hsource houtput⟩

/-! ## The sources of a run -/

theorem mem_written_iff (hmode : run.mode = .write) (hmd : (run.collect t).metadata = some md) :
    a ∈ written (run.generate t).2 ↔
      a ∈ (run.emitSources md t md.files).2.artifacts ∧ a.status = .written := by
  rw [written, (generate_of_some hmd).2, List.mem_filter, beq_iff_eq,
    (run.artifacts_emit_perm_of_write t md hmode).mem_iff]

/-- **A write run overwrites a source only where an output is that source.**  Before a write run
each file with records can be read.  If the output of no written artifact denotes the file, links
followed, the run leaves its content alone; otherwise the file holds afterwards the text that was
rendered for one of the artifacts whose outputs denote it, from the records its source had before
the run. -/
theorem generate_overwrites_only_at_outputs (run : Run) (t : FileTree) (md : Metadata)
    (hmode : run.mode = .write) (hwf : t.WellFormed)
    (hmd : (run.collect t).metadata = some md) :
    ∀ p ∈ md.paths, ∃ text, t.load p = .ok text ∧
      ((∀ a ∈ written (run.generate t).2, t.stat a.output ≠ t.stat p) →
        (run.generate t).1.load p = .ok text) ∧
      ((∃ a ∈ written (run.generate t).2, t.stat a.output = t.stat p) →
        ∃ a ∈ written (run.generate t).2, t.stat a.output = t.stat p ∧
          ∃ input content, t.load a.source = .ok input ∧
            render run.version a.source (Scan.run run.tokens a.source input).records run.options =
              .ok content ∧
            (run.generate t).1.load p = .ok content) := by
  intro p hp
  obtain ⟨g, hg, rfl⟩ := List.mem_map.mp hp
  have hfiles : ∀ f ∈ md.files, _ := fun f hf =>
    (mem_files_collect hmd (fun paths h => Discovery.nodup_of_find hwf h) hf).2
  obtain ⟨text, htext, -⟩ := hfiles g hg
  obtain ⟨loc, hloc, -, hentry⟩ := FileTree.writeLocation_of_load htext
  have hstat : t.stat g.1 = .ok (loc, .file text) := (FileTree.stat_eq_file_iff hentry).mpr hloc
  have hwritten := fun a => mem_written_iff hmode hmd (a := a)
  obtain ⟨houtline, hlast⟩ := run.emitSources_lastWrite md md.files t
  have hloc' := (FileTree.writeLocation_congr houtline).mp hloc
  rw [(generate_of_some hmd).1, hstat]
  refine ⟨text, htext, fun hnone => ?_, fun hsome => ?_⟩
  · cases hlast loc with
    | kept hkept => exact (FileTree.stat_of_writeLocation hloc' (hkept.trans hentry)).2
    | stored f hf a ha hstatus hsource houtput content hstored =>
      refine absurd ?_ (hnone a ((hwritten a).mpr ⟨ha, hstatus⟩))
      rw [houtput]
      exact (FileTree.stat_eq_file_iff hentry).mpr hstored.2.2
  · cases hlast loc with
    | kept hkept hnone =>
      obtain ⟨a, ha, hsame⟩ := hsome
      obtain ⟨ha, hstatus⟩ := (hwritten a).mp ha
      exact absurd ((FileTree.stat_eq_file_iff hentry).mp hsame) (hnone a ha hstatus)
    | stored f hf a ha hstatus hsource houtput content hstored hleft =>
      obtain ⟨input, hinput, -, hrecords⟩ := hfiles f hf
      refine ⟨a, (hwritten a).mpr ⟨ha, hstatus⟩, ?_, input, content, ?_, ?_, ?_⟩
      · rw [houtput]
        exact (FileTree.stat_eq_file_iff hentry).mpr hstored.2.2
      · rw [hsource]
        exact hinput
      · rw [hsource, ← hrecords]
        exact hstored.2.1
      · exact (FileTree.stat_of_writeLocation hloc' hleft).2

/-- A directory with a header and another source. -/
def selfTree : FileTree where
  entries := [
    ([lit "src"], .directory),
    ([lit "src", lit "a.h"], .file (sourceText (lit "A"))),
    ([lit "src", lit "b.hpp"], .file (sourceText (lit "B")))]
  workdir := []

/-- A run whose suffix is that of the header. -/
def selfRun : Run :=
  { writeRun (lit "src") standardIncludes with
    options := { EmitOptions.standard with suffix := lit ".h" } }

/-- The record set of that run. -/
def selfMetadata : Metadata where
  root := lit "src"
  files := [(lit "src/a.h", [{ name := lit "A", members := [], line := 2 }]),
    (lit "src/b.hpp", [{ name := lit "B", members := [], line := 2 }])]
  unannotated := []

theorem metadata_selfRun : (selfRun.collect selfTree).metadata = some selfMetadata := by
  have hreal : selfTree.lstat selfRun.root = .ok ([lit "src"], .directory) := by decide +kernel
  have hpaths : (selfRun.scanFiles selfTree [lit "src/a.h", lit "src/b.hpp"]
      (Metadata.empty selfRun.root)).1 = selfMetadata := by
    decide +kernel
  rw [← hpaths]
  refine collect_of_sorted hreal ?_ ?_ ?_ ?_
  all_goals decide +kernel

/-- The run replaces the header by the text rendered for an output that is the header, and the other
source stays as it was. -/
theorem selfRun_overwrites_only_at_outputs :
    selfRun.mode = .write ∧ selfTree.WellFormed ∧
      (selfRun.collect selfTree).metadata = some selfMetadata ∧
      lit "src/a.h" ∈ selfMetadata.paths ∧ lit "src/b.hpp" ∈ selfMetadata.paths ∧
      (selfRun.generate selfTree).1.load (lit "src/b.hpp") = selfTree.load (lit "src/b.hpp") ∧
      ∃ a ∈ written (selfRun.generate selfTree).2,
        selfTree.stat a.output = selfTree.stat (lit "src/a.h") ∧
        ∃ input content, selfTree.load a.source = .ok input ∧
          render selfRun.version a.source (Scan.run selfRun.tokens a.source input).records
            selfRun.options = .ok content ∧
          (selfRun.generate selfTree).1.load (lit "src/a.h") = .ok content := by
  have hwf : selfTree.WellFormed := by decide +kernel
  have hheader : lit "src/a.h" ∈ selfMetadata.paths := by decide +kernel
  have hother : lit "src/b.hpp" ∈ selfMetadata.paths := by decide +kernel
  have hsources := generate_overwrites_only_at_outputs selfRun selfTree selfMetadata rfl hwf
    metadata_selfRun
  obtain ⟨-, -, -, hstored⟩ := hsources _ hheader
  obtain ⟨text, htext, hkept, -⟩ := hsources _ hother
  refine ⟨rfl, hwf, metadata_selfRun, hheader, hother, ?_, hstored ?_⟩
  · rw [htext]
    refine hkept fun a ha => ?_
    have hne : ∀ a ∈ (selfRun.emitSources selfMetadata selfTree selfMetadata.files).2.artifacts,
        selfTree.stat a.output ≠ selfTree.stat (lit "src/b.hpp") := by
      decide +kernel
    exact hne a ((mem_written_iff rfl metadata_selfRun).mp ha).1
  · have hmem : ∃ a ∈ (selfRun.emitSources selfMetadata selfTree selfMetadata.files).2.artifacts,
        a.status = .written ∧ selfTree.stat a.output = selfTree.stat (lit "src/a.h") := by
      decide +kernel
    obtain ⟨a, ha, hstatus, hsame⟩ := hmem
    exact ⟨a, (mem_written_iff rfl metadata_selfRun).mpr ⟨ha, hstatus⟩, hsame⟩

/-- The output of the header is the header itself; it is written all the same, and the header is
lost. -/
theorem selfRun_overwrites_source :
    selfRun.mode = .write ∧ selfTree.WellFormed ∧
      ∃ md, (selfRun.collect selfTree).metadata = some md ∧ ∃ p ∈ md.paths,
        (∃ a ∈ written (selfRun.generate selfTree).2, a.output = p) ∧
          (selfRun.generate selfTree).1.load p ≠ selfTree.load p := by
  refine ⟨rfl, by decide +kernel, selfMetadata, metadata_selfRun, lit "src/a.h",
    by decide +kernel, ?_, ?_⟩
  · have hmem : ∃ a ∈ (selfRun.emitSources selfMetadata selfTree selfMetadata.files).2.artifacts,
        a.status = .written ∧ a.output = lit "src/a.h" := by
      decide +kernel
    obtain ⟨a, ha, hstatus, houtput⟩ := hmem
    exact ⟨a, (mem_written_iff rfl metadata_selfRun).mpr ⟨ha, hstatus⟩, houtput⟩
  · rw [(generate_of_some metadata_selfRun).1]
    decide +kernel

end Run

end ReflectGen

import ReflectGen.Proofs.Run.Account
import ReflectGen.Proofs.Scan.Accounting

/-!
# Reports on left-over outputs

A check reports an output that exists although its source has no markers any more.  Other sources
may have the same output, so a report is only made if none of the files with records claims it.

What a report relies on is that a file without records has no marker line at all: its scan has no
failure, and a marker line without a diagnostic is a line of a record.  For the same reason every
file with a marker line and without a failure has records, and claims its output.

* `Emission.leftOver`: the reports on left-over outputs, as pairs of an output and a source.
* `Run.HasMarker`, `Scan.records_run_ne_nil`: files with a marker line.
* `Run.leftOver_generateWith`: the reports of a run, one for each file without records whose output
  is left over.
* `Run.IsLeftOver`, `Run.generateWith_reports_left_over`: what a report says is true, and no report
  is made twice.

## Why a report is not the only one, and the output may have another source

There is one report for each source, so an output with several sources without markers is reported
once for each of them.  And a file whose scan has failed claims nothing.  `Run.unendedTree` has
both: a header with an opening marker and no closing one, and two sources beside it that have the
same output.
-/

namespace ReflectGen

/-! ## Files with a marker line -/

namespace Scan

open Source

/-- A text with a marker line that is scanned without a failure has a record. -/
theorem records_run_ne_nil {tokens : Tokens} {path content : Text}
    (hfail : (run tokens path content).failures path = [])
    (hmarker : ∃ line ∈ Source.lines content, (Marker.classify tokens (stripReturns line)).isSome) :
    (run tokens path content).records ≠ [] := by
  obtain ⟨hcomplete, hfinish⟩ := (failures_run_eq_nil tokens path content).mp hfail
  have hnone : (run tokens path content).diagnostics = [] := by
    rw [diagnostics_run hcomplete, hfinish, List.reverse_nil]
  have hds : ∀ n f, Carries [] n f ↔ Diagnosed tokens (Source.lines content) n f := fun n f => by
    rw [← carries_run_iff tokens path hcomplete, hnone]
  have hcarries : ∀ n f, ¬ Carries [] n f := by
    rintro n f ⟨d, hd, -⟩
    exact List.not_mem_nil hd
  obtain ⟨line, hline, hsome⟩ := hmarker
  obtain ⟨i, hi⟩ := List.getElem?_of_mem hline
  obtain ⟨m, hm⟩ := Option.isSome_iff_exists.mp hsome
  have hat : markerAt? tokens (Source.lines content) (i + 1) = some m := by
    rw [markerAt?, hi]
    exact hm
  rcases marker_cases hds hat with ⟨⟨r, b, e, p, henc, heq, -⟩, -⟩ | ⟨-, hdiag, -⟩ |
    ⟨-, -, -, b, p, -, hlost⟩
  · have hr := ((tracks_states tokens path (Source.lines content)).mem_records r).mpr
      ⟨b, e, p, henc, heq⟩
    rw [records_run hcomplete]
    exact List.ne_nil_of_mem (List.mem_reverse.mpr hr)
  · exact absurd hdiag List.not_mem_nil
  · rcases hlost with hb | ⟨e, q, -, -, he⟩
    · exact absurd hb (hcarries _ _)
    · exact absurd he (hcarries _ _)

end Scan

/-! ## Reports -/

/-- The output and the source that a report on a left-over output names. -/
def Failure.leftOver? : Failure → Option (Text × Text)
  | .orphaned output source => some (output, source)
  | _ => none

/-- The reports on left-over outputs among the failures of an emission. -/
def Emission.leftOver (e : Emission) : List (Text × Text) := e.failures.filterMap Failure.leftOver?

@[simp] theorem Emission.leftOver_append (a b : Emission) :
    (a.append b).leftOver = a.leftOver ++ b.leftOver := List.filterMap_append

theorem Emission.mem_leftOver_iff {e : Emission} {output source : Text} :
    (output, source) ∈ e.leftOver ↔ .orphaned output source ∈ e.failures := by
  rw [leftOver, List.mem_filterMap]
  constructor
  · rintro ⟨f, hf, hreport⟩
    cases f with
    | orphaned output' source' =>
      obtain ⟨rfl, rfl⟩ := Prod.mk.inj (Option.some.inj hreport)
      exact hf
    | _ => exact absurd hreport (by simp [Failure.leftOver?])
  · exact fun hf => ⟨_, hf, rfl⟩

namespace Run

variable {run : Run} {t : FileTree} {md : Metadata}

/-- The file can be read, and one of its lines is a marker line. -/
def HasMarker (run : Run) (t : FileTree) (p : Text) : Prop :=
  ∃ text, t.load p = .ok text ∧ ∃ line ∈ Source.lines text,
    (Marker.classify run.tokens (Source.stripReturns line)).isSome

/-- A file with a marker line that is scanned without a failure has records. -/
theorem HasMarker.records_ne_nil {p : Text} (h : run.HasMarker t p)
    (hfail : (scanFile run.tokens t p).failures = []) :
    (scanFile run.tokens t p).scan.records ≠ [] := by
  obtain ⟨text, hload, hmarker⟩ := h
  rw [scanFile, hload] at hfail ⊢
  exact Scan.records_run_ne_nil hfail hmarker

/-! ## Which failures are reports -/

theorem leftOver_scanFile (tokens : Tokens) (t : FileTree) (p : Text) :
    (scanFile tokens t p).failures.filterMap Failure.leftOver? = [] := by
  unfold scanFile
  split
  · rfl
  · dsimp only
    rw [Scan.failures]
    split
    · rfl
    · rw [List.filterMap_map]
      exact List.filterMap_eq_nil_iff.mpr fun _ _ => rfl

theorem leftOver_scanFiles {paths : List Text} : ∀ {md : Metadata},
    (run.scanFiles t paths md).2.1.filterMap Failure.leftOver? = [] := by
  intro md
  rw [failures_scanFiles, List.filterMap_flatMap, List.flatMap_eq_nil_iff]
  exact fun p _ => leftOver_scanFile run.tokens t p

/-- Collecting records reports no left-over output. -/
theorem leftOver_collect (run : Run) (t : FileTree) :
    (run.collect t).failures.filterMap Failure.leftOver? = [] := by
  unfold collect
  split
  · rfl
  · dsimp only
    split
    · rfl
    · exact leftOver_scanFiles
  · rfl

theorem leftOver_deliver (run : Run) (t : FileTree) (a : Artifact) (content : Text) :
    (run.deliver t a content).2.leftOver = [] := by
  obtain ⟨_, -, _, _, hdelivery, -, hfail, -⟩ := run.deliver_cases t a content
  rw [Emission.leftOver, hfail]
  cases hdelivery <;> rfl

/-- Files with records have no left-over output. -/
theorem leftOver_emitSource (run : Run) (md : Metadata) (t : FileTree)
    (f : Text × List TypeRecord) : (run.emitSource md t f.1 f.2).2.leftOver = [] := by
  cases hv : run.verdict md f with
  | error e =>
    rw [emitSource_of_error hv]
    rcases verdict_error_cases hv with ⟨_, rfl⟩ | ⟨_, rfl⟩ | ⟨_, rfl⟩ <;> rfl
  | ok content =>
    rw [emitSource_of_ok hv]
    exact run.leftOver_deliver t _ content

theorem leftOver_emitSources (run : Run) (md : Metadata) (files : List (Text × List TypeRecord)) :
    ∀ t : FileTree, (run.emitSources md t files).2.leftOver = [] := by
  induction files with
  | nil => exact fun _ => rfl
  | cons f files ih =>
    intro t
    rw [emitSources_cons, Emission.leftOver_append, leftOver_emitSource, ih, List.append_nil]

theorem leftOver_orphans (run : Run) (md : Metadata) (t : FileTree) :
    (run.orphans md t).leftOver =
      if run.mode = .check then
        (md.unannotated.filter fun p => (run.orphan? md t p).isSome).map fun p => (run.output p, p)
      else [] := by
  rw [Emission.leftOver, failures_orphans]
  split
  · rw [List.filterMap_map]
    exact congrFun (List.filterMap_eq_map (f := fun p => (run.output p, p))) _
  · rfl

/-- The reports of an emission. -/
theorem leftOver_emit (run : Run) (t : FileTree) (md : Metadata) :
    (run.emit t md).2.leftOver = (run.orphans md t).leftOver := by
  rw [emit_eq]
  show ((run.emitSources md t md.files).2.append (run.orphans md t)).leftOver = _
  rw [Emission.leftOver_append, leftOver_emitSources, List.nil_append]

/-- The reports of a run: there is one for each file without records whose output is left over, in
the order of the files. -/
theorem leftOver_generateWith (journal : Journal) (hmd : (run.collect t).metadata = some md) :
    (run.generateWith journal t).2.leftOver =
      (run.orphans md (journal (run.collect t).events t)).leftOver := by
  unfold generateWith
  dsimp only
  rw [hmd, ← leftOver_emit]
  dsimp only
  rw [Emission.leftOver_append, Emission.leftOver, leftOver_collect, List.nil_append]

theorem leftOver_generateWith_of_none (journal : Journal)
    (hmd : (run.collect t).metadata = none) : (run.generateWith journal t).2.leftOver = [] := by
  unfold generateWith
  dsimp only
  rw [hmd]
  exact run.leftOver_collect t

/-! ## Reports are true -/

/-- Among the discovered files at `paths`, the source has no marker line, and the output is derived
from it, but from no file with a marker line that is scanned without a failure. -/
structure IsLeftOver (run : Run) (t : FileTree) (paths : List Text) (output source : Text) :
    Prop where
  discovered : source ∈ paths
  output_eq : run.output source = output
  bare : ¬ run.HasMarker t source
  unclaimed : ∀ p ∈ paths, run.HasMarker t p → (scanFile run.tokens t p).failures = [] →
    run.output p ≠ output

/-- **Reports on left-over outputs are true, and none is made twice.**  Only a check makes them,
whatever the log files do to the tree in between.  The output exists; the source that is named was
discovered and has no marker line; and no discovered file with a marker line, if it is scanned
without a failure, has the same output. -/
theorem generateWith_reports_left_over (journal : Journal) (run : Run) (t : FileTree)
    (hwf : t.WellFormed) :
    (run.generateWith journal t).2.leftOver.Nodup ∧
      ∀ output source, .orphaned output source ∈ (run.generateWith journal t).2.failures →
        run.mode = .check ∧
        (∃ found, (journal (run.collect t).events t).stat output = .ok found) ∧
        ∃ paths, Discovery.find t run.root run.included run.excluded = .ok paths ∧
          run.IsLeftOver t paths output source := by
  simp only [← Emission.mem_leftOver_iff]
  cases hmd : (run.collect t).metadata with
  | none => simp [leftOver_generateWith_of_none journal hmd]
  | some md =>
    obtain ⟨paths, hfind, hnodup, hfiles, hbare, -⟩ := exists_paths_of_collect hwf hmd
    rw [leftOver_generateWith journal hmd, leftOver_orphans]
    by_cases hmode : run.mode = .check
    · rw [if_pos hmode]
      constructor
      · -- each file is named in one report at most
        refine List.Nodup.map (fun p q heq => (Prod.mk.inj heq).2) ?_
        rw [hbare]
        exact (hnodup.filter _).filter _
      · intro output source hreport
        obtain ⟨p, hp, heq⟩ := List.mem_map.mp hreport
        obtain ⟨rfl, rfl⟩ := Prod.mk.inj heq
        obtain ⟨hunannotated, horphan⟩ := List.mem_filter.mp hp
        obtain ⟨hexists, hunclaimed⟩ := isSome_orphan?_iff.mp horphan
        rw [hbare, List.mem_filter, isUnannotated, Bool.and_eq_true, List.isEmpty_iff,
          List.isEmpty_iff] at hunannotated
        obtain ⟨hdiscovered, hfail, hrecords⟩ := hunannotated
        refine ⟨hmode, hexists, paths, hfind, hdiscovered, rfl,
          fun hmarker => hmarker.records_ne_nil hfail hrecords, fun q hq hmarker hqfail => ?_⟩
        refine hunclaimed q ?_
        rw [Metadata.paths, hfiles, mem_map_fst_scanned_iff, isSome_scanned?_iff]
        exact ⟨hq, hqfail, hmarker.records_ne_nil hqfail⟩
    · rw [if_neg hmode]
      exact ⟨List.nodup_nil, fun _ _ h => absurd h List.not_mem_nil⟩

/-! ## Several sources with one output -/

/-- A directory with a header, two sources without markers and an output that all three have in
common. -/
def sharedTree (header : Text) : FileTree where
  entries := [
    ([lit "src"], .directory),
    ([lit "src", lit "a.h"], .file header),
    ([lit "src", lit "a.cc"], .file []),
    ([lit "src", lit "a.cpp"], .file []),
    ([lit "src", lit "a_reflection.cpp"], .file [])]
  workdir := []

/-- A check of that directory. -/
def sharedRun : Run := (writeRun (lit "src") standardIncludes).inMode .check

/-- A header without markers, and one with an opening marker and no closing one. -/
def sharedHeaders : List Text := [lit "struct A;\n", lit "VX_RF_DATA_BEGIN(A)\n"]

theorem lstat_sharedRun {header : Text} (h : header ∈ sharedHeaders) :
    (sharedTree header).lstat sharedRun.root = .ok ([lit "src"], .directory) := by
  simp only [sharedHeaders, List.mem_cons, List.not_mem_nil, or_false] at h
  rcases h with rfl | rfl <;> decide +kernel

theorem find_sharedRun {header : Text} (h : header ∈ sharedHeaders) :
    Discovery.find (sharedTree header) sharedRun.root sharedRun.included sharedRun.excluded =
      .ok [lit "src/a.cc", lit "src/a.cpp", lit "src/a.h"] := by
  refine Discovery.find_of_sorted (by decide +kernel) (by decide +kernel) (lstat_sharedRun h) ?_
    (by decide +kernel)
  simp only [sharedHeaders, List.mem_cons, List.not_mem_nil, or_false] at h
  rcases h with rfl | rfl <;> decide +kernel

/-- The record set of the check. -/
theorem metadata_sharedRun {header : Text} (h : header ∈ sharedHeaders) :
    (sharedRun.collect (sharedTree header)).metadata =
      some (sharedRun.scanFiles (sharedTree header) [lit "src/a.cc", lit "src/a.cpp", lit "src/a.h"]
        (Metadata.empty sharedRun.root)).1 :=
  collect_of_find (FileTree.stat_of_lstat (lstat_sharedRun h)) (find_sharedRun h)

/-- A header without markers is named in a report on the output. -/
theorem generateWith_reports_sharedRun :
    (sharedTree (lit "struct A;\n")).WellFormed ∧
      .orphaned (lit "src/a_reflection.cpp") (lit "src/a.h") ∈
        (sharedRun.generateWith Journal.none (sharedTree (lit "struct A;\n"))).2.failures ∧
      (sharedRun.generateWith Journal.none (sharedTree (lit "struct A;\n"))).2.leftOver.Nodup ∧
      ∃ paths, Discovery.find (sharedTree (lit "struct A;\n")) sharedRun.root sharedRun.included
          sharedRun.excluded = .ok paths ∧
        sharedRun.IsLeftOver (sharedTree (lit "struct A;\n")) paths (lit "src/a_reflection.cpp")
          (lit "src/a.h") := by
  have hwf : (sharedTree (lit "struct A;\n")).WellFormed := by decide +kernel
  have hreport : .orphaned (lit "src/a_reflection.cpp") (lit "src/a.h") ∈
      (sharedRun.generateWith Journal.none (sharedTree (lit "struct A;\n"))).2.failures := by
    rw [← Emission.mem_leftOver_iff,
      leftOver_generateWith Journal.none (metadata_sharedRun (by simp [sharedHeaders]))]
    decide +kernel
  obtain ⟨hnodup, htrue⟩ :=
    generateWith_reports_left_over Journal.none sharedRun (sharedTree (lit "struct A;\n")) hwf
  exact ⟨hwf, hreport, hnodup, (htrue _ _ hreport).2.2⟩

/-- The directory with an opening marker and no closing one in the header. -/
def unendedTree : FileTree := sharedTree (lit "VX_RF_DATA_BEGIN(A)\n")

/-- The output of a header with a marker line is reported, once for each of the two sources beside
the header. -/
theorem unendedTree_reports_left_over :
    Discovery.find unendedTree sharedRun.root sharedRun.included sharedRun.excluded =
        .ok [lit "src/a.cc", lit "src/a.cpp", lit "src/a.h"] ∧
      sharedRun.HasMarker unendedTree (lit "src/a.h") ∧
      sharedRun.output (lit "src/a.h") = lit "src/a_reflection.cpp" ∧
      (sharedRun.generate unendedTree).2.leftOver =
        [(lit "src/a_reflection.cpp", lit "src/a.cc"),
          (lit "src/a_reflection.cpp", lit "src/a.cpp")] ∧
      ¬ ((sharedRun.generate unendedTree).2.leftOver.map Prod.fst).Nodup := by
  have hmem : lit "VX_RF_DATA_BEGIN(A)\n" ∈ sharedHeaders := by simp [sharedHeaders]
  have hmarker : sharedRun.HasMarker unendedTree (lit "src/a.h") :=
    ⟨lit "VX_RF_DATA_BEGIN(A)\n", by decide +kernel, lit "VX_RF_DATA_BEGIN(A)", by decide +kernel,
      by decide +kernel⟩
  have hreports : (sharedRun.generate unendedTree).2.leftOver =
      [(lit "src/a_reflection.cpp", lit "src/a.cc"),
        (lit "src/a_reflection.cpp", lit "src/a.cpp")] := by
    rw [generate, unendedTree, leftOver_generateWith Journal.none (metadata_sharedRun hmem)]
    decide +kernel
  refine ⟨find_sharedRun hmem, hmarker, by decide +kernel, hreports, ?_⟩
  rw [hreports]
  decide +kernel

end Run

end ReflectGen

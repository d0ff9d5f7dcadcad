import ReflectGen.Proofs.Run.Account

/-!
# The modes of a run agree

A run decides about its sources before its mode matters, so runs over one tree in different modes
have the same artifacts but for what was done with the rendered texts.  And a check is the promise
that there is nothing to write: when it finds nothing wrong, each output holds the very text that a
write run would put there, and putting it there again changes nothing.

* `Artifact.decided`: an artifact without what the mode adds to it.
* `Run.annotated`: the artifacts of the files with records.
* `Run.load_of_check`: an output that passes a check holds the rendered text.
* `Run.modes_agree`: runs in different modes.
-/

namespace ReflectGen

/-- Is this the refusal of a source? -/
def Status.isRefusal : Status → Bool
  | .collision | .duplicate => true
  | _ => false

/-- Is this the failure of a source that is refused? -/
def Failure.isRefusal : Failure → Bool
  | .collision _ _ | .duplicate _ _ => true
  | _ => false

/-- What is known of an artifact before the mode matters: all but the status, and the status, too,
if the source is refused. -/
def Artifact.decided (a : Artifact) : Artifact :=
  { a with status := if a.status.isRefusal then a.status else .failed }

namespace Run

variable {run : Run} {md : Metadata} {t t' : FileTree} {f : Text × List TypeRecord}

/-! ## What is decided about the sources -/

theorem isRefusal_of_mem_outcomes {mode : Mode} {status : Status} (h : status ∈ mode.outcomes) :
    status.isRefusal = false := by
  obtain ⟨hcollision, hduplicate⟩ := outcome_not_refusal h
  cases status <;> first | rfl | exact absurd rfl hcollision | exact absurd rfl hduplicate

theorem decided_deliver (run : Run) (t : FileTree) (f : Text × List TypeRecord)
    (digest content : Text) :
    (run.deliver t (run.artifact f digest .failed) content).2.artifacts.map Artifact.decided =
      [run.artifact f digest .failed] := by
  obtain ⟨status, hstatus, _, _, -, hart, -⟩ :=
    run.deliver_cases t (run.artifact f digest .failed) content
  rw [hart, List.map_singleton, Artifact.decided, isRefusal_of_mem_outcomes hstatus]
  rfl

theorem refusals_deliver (run : Run) (t : FileTree) (a : Artifact) (content : Text) :
    (run.deliver t a content).2.failures.filter Failure.isRefusal = [] := by
  obtain ⟨_, -, _, _, hdelivery, -, hfail, -⟩ := run.deliver_cases t a content
  rw [hfail]
  cases hdelivery <;> rfl

/-- What is decided about one source is the same in every mode and every tree. -/
theorem decided_emitSource (run : Run) (mode mode' : Mode) (md : Metadata) (t t' : FileTree)
    (f : Text × List TypeRecord) :
    ((run.inMode mode).emitSource md t f.1 f.2).2.artifacts.map Artifact.decided =
        ((run.inMode mode').emitSource md t' f.1 f.2).2.artifacts.map Artifact.decided ∧
      ((run.inMode mode).emitSource md t f.1 f.2).2.failures.filter Failure.isRefusal =
        ((run.inMode mode').emitSource md t' f.1 f.2).2.failures.filter Failure.isRefusal := by
  cases hv : run.verdict md f with
  | error e =>
    have hmode := emitSource_of_error ((run.verdict_inMode mode md f).trans hv)
    have hmode' := emitSource_of_error ((run.verdict_inMode mode' md f).trans hv)
    rw [hmode, hmode']
    exact ⟨rfl, rfl⟩
  | ok content =>
    have hmode := emitSource_of_ok ((run.verdict_inMode mode md f).trans hv)
    have hmode' := emitSource_of_ok ((run.verdict_inMode mode' md f).trans hv)
    rw [hmode, hmode', decided_deliver, decided_deliver, refusals_deliver, refusals_deliver]
    exact ⟨rfl, rfl⟩

/-- What is decided about several sources is the same, whatever each of them finds in the tree. -/
theorem decided_emitSources (run : Run) (mode mode' : Mode) (md : Metadata)
    (files : List (Text × List TypeRecord)) : ∀ t t' : FileTree,
    ((run.inMode mode).emitSources md t files).2.artifacts.map Artifact.decided =
        ((run.inMode mode').emitSources md t' files).2.artifacts.map Artifact.decided ∧
      ((run.inMode mode).emitSources md t files).2.failures.filter Failure.isRefusal =
        ((run.inMode mode').emitSources md t' files).2.failures.filter Failure.isRefusal := by
  induction files with
  | nil => exact fun _ _ => ⟨rfl, rfl⟩
  | cons f files ih =>
    intro t t'
    obtain ⟨hart, hfail⟩ := run.decided_emitSource mode mode' md t t' f
    obtain ⟨hart', hfail'⟩ := ih ((run.inMode mode).emitSource md t f.1 f.2).1
      ((run.inMode mode').emitSource md t' f.1 f.2).1
    rw [emitSources_cons, emitSources_cons]
    constructor
    · rw [Emission.artifacts_append, Emission.artifacts_append, List.map_append, List.map_append,
        hart, hart']
    · rw [Emission.failures_append, Emission.failures_append, List.filter_append,
        List.filter_append, hfail, hfail']

/-! ## What a run tells about the files with records -/

/-- The files with records. -/
def annotatedPaths (run : Run) (t : FileTree) : List Text :=
  ((run.collect t).metadata.map Metadata.paths).getD []

/-- The artifacts of the files with records. -/
def annotated (run : Run) (t : FileTree) : List Artifact :=
  (run.generate t).2.artifacts.filter fun a => (run.annotatedPaths t).contains a.source

theorem annotatedPaths_of_some (hmd : (run.collect t).metadata = some md) :
    run.annotatedPaths t = md.paths := by
  rw [annotatedPaths, hmd]
  rfl

/-- The artifacts of the files with records, in some order. -/
theorem annotated_perm (hmd : (run.collect t).metadata = some md) :
    (run.annotated t).Perm (run.emitSources md t md.files).2.artifacts := by
  have hperm := (run.artifacts_emit_perm t md).filter fun a => md.paths.contains a.source
  have hsources : (run.emitSources md t md.files).2.artifacts.filter
      (fun a => md.paths.contains a.source) = (run.emitSources md t md.files).2.artifacts := by
    rw [List.filter_eq_self]
    intro a ha
    have hmem : a.source ∈ (run.emitSources md t md.files).2.artifacts.map Artifact.source :=
      List.mem_map_of_mem ha
    rw [map_source_emitSources] at hmem
    exact List.contains_iff_mem.mpr hmem
  have horphans : (run.orphans md (run.emitSources md t md.files).1).artifacts.filter
      (fun a => md.paths.contains a.source) = [] := by
    rw [List.filter_eq_nil_iff]
    exact fun a ha hmem => source_notMem_of_mem_orphans ha (List.contains_iff_mem.mp hmem)
  rw [List.filter_append, hsources, horphans, List.append_nil] at hperm
  rw [annotated, annotatedPaths_of_some hmd, (generate_of_some hmd).2]
  exact hperm

/-- The artifacts of a run come in byte order of their sources. -/
theorem pairwise_source_generate (run : Run) (t : FileTree) :
    (run.generate t).2.artifacts.Pairwise fun a b => Text.le a.source b.source = true := by
  cases hmd : (run.collect t).metadata with
  | none =>
    rw [(generate_of_none hmd).2]
    exact List.Pairwise.nil
  | some md =>
    rw [(generate_of_some hmd).2, emit_eq]
    exact Text.pairwise_mergeSort_key Artifact.source _

/-- The files with records have one artifact each. -/
theorem source_annotated_perm (run : Run) (t : FileTree) :
    ((run.annotated t).map Artifact.source).Perm (run.annotatedPaths t) := by
  cases hmd : (run.collect t).metadata with
  | none =>
    rw [annotated, (generate_of_none hmd).2, annotatedPaths, hmd]
    exact .nil
  | some md =>
    have hperm := (annotated_perm hmd).map Artifact.source
    rwa [map_source_emitSources, ← Metadata.paths, ← annotatedPaths_of_some hmd] at hperm

/-- Runs in different modes tell the same about the files with records. -/
theorem decided_annotated (run : Run) (mode mode' : Mode) (t : FileTree) :
    ((run.inMode mode).annotated t).map Artifact.decided =
      ((run.inMode mode').annotated t).map Artifact.decided := by
  cases hmd : (run.collect t).metadata with
  | none =>
    have hnone : ∀ m, (run.inMode m).annotated t = [] := by
      intro m
      rw [annotated, (generate_of_none (by rw [collect_inMode, hmd])).2]
      rfl
    rw [hnone, hnone]
  | some md =>
    have hsome := metadata_inMode hmd
    have hperm : ∀ m, (((run.inMode m).annotated t).map Artifact.decided).Perm
        (((run.inMode m).emitSources md t md.files).2.artifacts.map Artifact.decided) :=
      fun m => (annotated_perm (hsome m)).map _
    have hsorted : ∀ m, (((run.inMode m).annotated t).map Artifact.decided).Pairwise
        fun a b => Text.le a.source b.source = true := by
      intro m
      rw [List.pairwise_map]
      exact ((run.inMode m).pairwise_source_generate t).filter _
    have hsame := (run.decided_emitSources mode mode' md md.files t t).1
    refine Text.eq_of_perm_of_key ?_ ((hperm mode).trans (hsame ▸ (hperm mode').symm))
      (hsorted mode) (hsorted mode')
    have hsources : (((run.inMode mode').annotated t).map Artifact.decided).map Artifact.source =
        ((run.inMode mode').annotated t).map Artifact.source := by
      rw [List.map_map]
      rfl
    rw [hsources, ((run.inMode mode').source_annotated_perm t).nodup_iff,
      annotatedPaths_of_some (hsome mode')]
    exact paths_nodup_collect hmd

theorem refusals_orphans (run : Run) (md : Metadata) (t : FileTree) :
    (run.orphans md t).failures.filter Failure.isRefusal = [] := by
  rw [failures_orphans]
  split
  · rw [List.filter_eq_nil_iff]
    intro failure hfailure
    obtain ⟨p, -, rfl⟩ := List.mem_map.mp hfailure
    exact Bool.false_ne_true
  · rfl

theorem failures_generate_of_some (hmd : (run.collect t).metadata = some md) :
    (run.generate t).2.failures = (run.collect t).failures ++
      ((run.emitSources md t md.files).2.failures ++ (run.orphans md t).failures) := by
  rw [generate_eq_of_some hmd, emit_eq]
  rfl

theorem generate_inMode_of_none (hmd : (run.collect t).metadata = none) (mode : Mode) :
    (run.inMode mode).generate t =
      (t, { failures := (run.collect t).failures, events := (run.collect t).events }) := by
  unfold generate generateWith
  rw [collect_inMode]
  dsimp only
  rw [hmd]

/-- The failures of the sources that are refused are the same in every mode. -/
theorem refusals_generate (run : Run) (mode mode' : Mode) (t : FileTree) :
    ((run.inMode mode).generate t).2.failures.filter Failure.isRefusal =
      ((run.inMode mode').generate t).2.failures.filter Failure.isRefusal := by
  cases hmd : (run.collect t).metadata with
  | none => rw [generate_inMode_of_none hmd, generate_inMode_of_none hmd]
  | some md =>
    have hsome := metadata_inMode hmd
    have hsame := (run.decided_emitSources mode mode' md md.files t t).2
    rw [failures_generate_of_some (hsome mode), failures_generate_of_some (hsome mode')]
    simp only [List.filter_append, refusals_orphans, collect_inMode, hsame]

/-! ## A check that finds nothing wrong -/

/-- A source without a text has a failure. -/
theorem failures_ne_nil_of_verdict {e : Emission} (h : run.verdict md f = .error e) :
    e.failures ≠ [] := by
  rcases verdict_error_cases h with ⟨sources, rfl⟩ | ⟨details, rfl⟩ | ⟨reason, rfl⟩
  all_goals exact List.cons_ne_nil _ _

/-- What a check says of an output: it holds the rendered text, or there is a failure. -/
theorem checkOutput_cases (t : FileTree) (a : Artifact) (content : Text) :
    (t.load a.output = .ok content ∧
      (checkOutput t a content).artifacts = [{ a with status := .upToDate }] ∧
      (checkOutput t a content).failures = []) ∨
    (t.load a.output ≠ .ok content ∧ (checkOutput t a content).failures ≠ []) := by
  unfold checkOutput staleReason?
  cases hload : t.load a.output with
  | error e => exact .inr ⟨by simp, by simp⟩
  | ok existing =>
    by_cases heq : existing = content
    · rw [heq]
      exact .inl ⟨rfl, by simp, by simp⟩
    · exact .inr ⟨fun h => heq (Except.ok.inj h), by simp [heq]⟩

/-- An output that passes a check holds the rendered text. -/
theorem load_of_check {a : Artifact} {content : Text}
    (h : (checkOutput t a content).failures = []) : t.load a.output = .ok content := by
  rcases checkOutput_cases t a content with ⟨hload, -⟩ | ⟨-, hfail⟩
  · exact hload
  · exact absurd h hfail

/-- Writing what the output holds already changes nothing. -/
theorem writeOutput_of_load {a : Artifact} {content : Text}
    (h : t.load a.output = .ok content) :
    (writeOutput t a content).1 = t ∧ (writeOutput t a content).2.failures = [] := by
  obtain ⟨loc, hstore⟩ := FileTree.storeAt_of_load h
  rw [writeOutput, hstore]
  exact ⟨rfl, rfl⟩

/-- A source that passes a check is written without a change. -/
theorem emitSource_of_check (h : ((run.inMode .check).emitSource md t f.1 f.2).2.failures = []) :
    ((run.inMode .write).emitSource md t f.1 f.2).1 = t ∧
      ((run.inMode .write).emitSource md t f.1 f.2).2.failures = [] := by
  cases hv : run.verdict md f with
  | error e =>
    rw [emitSource_of_error ((run.verdict_inMode .check md f).trans hv)] at h
    exact absurd h (failures_ne_nil_of_verdict hv)
  | ok content =>
    rw [emitSource_of_ok ((run.verdict_inMode .check md f).trans hv)] at h
    rw [emitSource_of_ok ((run.verdict_inMode .write md f).trans hv)]
    exact writeOutput_of_load (load_of_check h)

/-- When a check finds nothing wrong, a write run has nothing to change and nothing fails. -/
theorem generate_write_of_check (h : ((run.inMode .check).generate t).2.failures = []) :
    ((run.inMode .write).generate t).2.failures = [] ∧ ((run.inMode .write).generate t).1 = t := by
  cases hmd : (run.collect t).metadata with
  | none =>
    rw [generate_inMode_of_none hmd] at h ⊢
    exact ⟨h, rfl⟩
  | some md =>
    have hsome := metadata_inMode hmd
    rw [failures_generate_of_some (hsome .check), List.append_eq_nil_iff,
      List.append_eq_nil_iff] at h
    obtain ⟨hcollect, hsources, -⟩ := h
    -- a check leaves the tree alone, so it says of every source what it would say of it alone
    rw [emitSources_eq_alone (by simp [inMode]), failures_alone, List.flatMap_eq_nil_iff]
      at hsources
    have hwrite : ∀ f ∈ md.files, _ := fun f hf => emitSource_of_check (hsources f hf)
    have hfixed := emitSources_of_fixed fun f hf => (hwrite f hf).1
    have hfailures : ((run.inMode .write).alone md t md.files).failures = [] := by
      rw [failures_alone, List.flatMap_eq_nil_iff]
      exact fun f hf => (hwrite f hf).2
    rw [failures_generate_of_some (hsome .write), (generate_of_some (hsome .write)).1, hfixed,
      hfailures, collect_inMode]
    rw [collect_inMode] at hcollect
    rw [hcollect]
    exact ⟨rfl, rfl⟩

/-- **The modes agree, and a passing check means that there is nothing to write.**  In every mode a
run has one artifact for each file with records.  Runs over one tree in any two modes have the same
artifacts for these files but for what was done with the texts, and they refuse the same sources with
the same failures.  When a check has no failure, a write run has none either and leaves the tree as
it is. -/
theorem modes_agree (run : Run) (t : FileTree) :
    (∀ mode : Mode, (((run.inMode mode).annotated t).map Artifact.source).Perm
      (run.annotatedPaths t)) ∧
      (∀ mode mode' : Mode,
        ((run.inMode mode).annotated t).map Artifact.decided =
            ((run.inMode mode').annotated t).map Artifact.decided ∧
          ((run.inMode mode).generate t).2.failures.filter Failure.isRefusal =
            ((run.inMode mode').generate t).2.failures.filter Failure.isRefusal) ∧
      (((run.inMode .check).generate t).2.failures = [] →
        ((run.inMode .write).generate t).2.failures = [] ∧
          ((run.inMode .write).generate t).1 = t) := by
  refine ⟨fun mode => ?_, fun mode mode' => ?_, generate_write_of_check⟩
  · have hpaths : (run.inMode mode).annotatedPaths t = run.annotatedPaths t := by
      rw [annotatedPaths, collect_inMode]
      rfl
    rw [← hpaths]
    exact (run.inMode mode).source_annotated_perm t
  · exact ⟨run.decided_annotated mode mode' t, run.refusals_generate mode mode' t⟩

/-- The directory with two sources after their outputs are written. -/
def currentTree : FileTree := (plainRun.emitSources plainMetadata plainTree plainMetadata.files).1

/-- A check of that directory has nothing to report, and a write run leaves the directory as it is
and tells the same about its two sources. -/
theorem plainRun_modes_agree :
    ((plainRun.inMode .check).generate currentTree).2.failures = [] ∧
      ((plainRun.inMode .write).generate currentTree).2.failures = [] ∧
      ((plainRun.inMode .write).generate currentTree).1 = currentTree ∧
      ((plainRun.inMode .check).annotated currentTree).length = 2 ∧
      ((plainRun.inMode .check).annotated currentTree).map Artifact.decided =
        ((plainRun.inMode .write).annotated currentTree).map Artifact.decided := by
  have hreal : currentTree.lstat (plainRun.inMode .check).root = .ok ([lit "src"], .directory) := by
    decide +kernel
  have hfind : Discovery.find currentTree (plainRun.inMode .check).root
      (plainRun.inMode .check).included (plainRun.inMode .check).excluded =
        .ok [lit "src/a.h", lit "src/b.h"] :=
    Discovery.find_of_sorted (by decide +kernel) (by decide +kernel) hreal (by decide +kernel)
      (by decide +kernel)
  have hmd := collect_of_find (FileTree.stat_of_lstat hreal) hfind
  have hcheck : ((plainRun.inMode .check).generate currentTree).2.failures = [] := by
    rw [failures_generate_of_some hmd, collect_failures_of_find hmd hfind]
    decide +kernel
  obtain ⟨-, hsame, hwrite⟩ := modes_agree plainRun currentTree
  refine ⟨hcheck, (hwrite hcheck).1, (hwrite hcheck).2, ?_, (hsame .check .write).1⟩
  rw [(annotated_perm hmd).length_eq]
  decide +kernel

end Run

end ReflectGen

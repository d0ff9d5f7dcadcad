import ReflectGen.Proofs.Run.Verdict
import ReflectGen.Proofs.Text.Order

/-!
# Every file and every failure of a run is accounted for

A run goes on after a failure, so a failure shows only in what the run returns.  Here it is said
that nothing gets lost on the way: a discovered file has failed its scan, or it has records, or it
has none; a file with records has one artifact; a check has one more for every output that is left
over; and behind every artifact that is not as it should be there is one failure that says so.

* `Artifact.Explained`: the failure that goes with the status of an artifact.
* `Emission.Accounted`: the failures of an emission are those of its artifacts, one behind the
  other; kept by `Emission.append` and hence by a whole run (`Run.accounted_emitSources`).
* `Run.Orphaned`: an output is left over from a file that has no records.
* `Run.Account`: the books of a run; `Run.generate_accounts_for_everything`: they are in order.
-/

namespace ReflectGen

/-! ## The failures of artifacts -/

/-- The outcome is what the mode is meant to achieve. -/
def Status.IsFine (s : Status) : Prop := s = .written ∨ s = .upToDate ∨ s = .dryRun

/-- The failures that are reported for an artifact, by its status: nothing if all is well, and
otherwise one failure of the kind that belongs to the status. -/
inductive Artifact.Explained (a : Artifact) : List Failure → Prop where
  | fine (h : a.status.IsFine) : Explained a []
  | collision (h : a.status = .collision) (sources : List Text) :
    Explained a [.collision a.output sources]
  | duplicate (h : a.status = .duplicate) (details : List Text) :
    Explained a [.duplicate a.source details]
  | stale (h : a.status = .stale) (reason : Text) : Explained a [.stale a.output reason]
  | orphaned (h : a.status = .stale) : Explained a [.orphaned a.output a.source]
  | unwritten (h : a.status = .failed) (e : AccessError) : Explained a [.unwritten a.output e]
  | unrendered (h : a.status = .failed) (e : VersionError) : Explained a [.unversioned e]

/-- Nothing is reported exactly if the outcome is fine. -/
theorem Artifact.Explained.eq_nil_iff {a : Artifact} {fs : List Failure} (h : a.Explained fs) :
    fs = [] ↔ a.status.IsFine := by
  cases h with
  | fine hfine => simp [hfine]
  | collision hs => simp [hs, Status.IsFine]
  | duplicate hs => simp [hs, Status.IsFine]
  | stale hs => simp [hs, Status.IsFine]
  | orphaned hs => simp [hs, Status.IsFine]
  | unwritten hs => simp [hs, Status.IsFine]
  | unrendered hs => simp [hs, Status.IsFine]

namespace Emission

/-- The failures of the emission are those of its artifacts, in the same order. -/
def Accounted (e : Emission) : Prop :=
  ∃ reports : List (Artifact × List Failure), (∀ r ∈ reports, r.1.Explained r.2) ∧
    e.artifacts = reports.map Prod.fst ∧ e.failures = reports.flatMap Prod.snd

theorem accounted_empty : Accounted {} := ⟨[], fun _ h => absurd h List.not_mem_nil, rfl, rfl⟩

theorem Accounted.single {e : Emission} {a : Artifact} (ha : e.artifacts = [a])
    (h : a.Explained e.failures) : e.Accounted := by
  refine ⟨[(a, e.failures)], fun r hr => ?_, by simpa using ha, by simp⟩
  rw [List.mem_singleton.mp hr]
  exact h

theorem Accounted.append {e e' : Emission} (h : e.Accounted) (h' : e'.Accounted) :
    (e.append e').Accounted := by
  obtain ⟨reports, hexp, hart, hfail⟩ := h
  obtain ⟨reports', hexp', hart', hfail'⟩ := h'
  refine ⟨reports ++ reports', fun r hr => ?_, ?_, ?_⟩
  · rcases List.mem_append.mp hr with hr | hr
    · exact hexp r hr
    · exact hexp' r hr
  · rw [artifacts_append, hart, hart', List.map_append]
  · rw [failures_append, hfail, hfail', List.flatMap_append]

theorem accounted_concat {es : List Emission} (h : ∀ e ∈ es, e.Accounted) :
    (concat es).Accounted := by
  induction es with
  | nil => exact accounted_empty
  | cons e es ih =>
    have hrest := ih fun e' he' => h e' (List.mem_cons_of_mem e he')
    exact (h e List.mem_cons_self).append hrest

end Emission

namespace Run

variable {run : Run} {md : Metadata} {t : FileTree} {f : Text × List TypeRecord}

theorem explained_of_verdict {e : Emission} (h : run.verdict md f = .error e) :
    ∃ a, e.artifacts = [a] ∧ a.Explained e.failures := by
  rcases verdict_error_cases h with ⟨sources, rfl⟩ | ⟨details, rfl⟩ | ⟨reason, rfl⟩
  · exact ⟨_, rfl, .collision rfl sources⟩
  · exact ⟨_, rfl, .duplicate rfl details⟩
  · exact ⟨_, rfl, .unrendered rfl reason⟩

theorem explained_deliver (run : Run) (t : FileTree) (a : Artifact) (content : Text) :
    ∃ b, (run.deliver t a content).2.artifacts = [b] ∧
      b.Explained (run.deliver t a content).2.failures := by
  obtain ⟨_, -, _, _, hdelivery, hart, hfail, -⟩ := run.deliver_cases t a content
  refine ⟨_, hart, ?_⟩
  rw [hfail]
  cases hdelivery with
  | announced => exact .fine (.inr (.inr rfl))
  | upToDate => exact .fine (.inr (.inl rfl))
  | stale reason => exact .stale rfl reason
  | written => exact .fine (.inl rfl)
  | unwritten e => exact .unwritten rfl e

/-- What is emitted for one source is accounted for. -/
theorem accounted_emitSource (run : Run) (md : Metadata) (t : FileTree)
    (f : Text × List TypeRecord) : (run.emitSource md t f.1 f.2).2.Accounted := by
  cases hv : run.verdict md f with
  | error e =>
    rw [emitSource_of_error hv]
    obtain ⟨a, ha, hexp⟩ := explained_of_verdict hv
    exact .single ha hexp
  | ok content =>
    rw [emitSource_of_ok hv]
    obtain ⟨a, ha, hexp⟩ := run.explained_deliver t
      (run.artifact f (Digest.ofContent content) .failed) content
    exact .single ha hexp

/-- What is emitted for several sources is accounted for, whatever each of them does to the tree. -/
theorem accounted_emitSources (run : Run) (md : Metadata) (files : List (Text × List TypeRecord)) :
    ∀ t : FileTree, (run.emitSources md t files).2.Accounted := by
  induction files with
  | nil => exact fun _ => Emission.accounted_empty
  | cons f files ih =>
    intro t
    rw [emitSources_cons]
    exact (run.accounted_emitSource md t f).append (ih _)

/-! ## Outputs that are left over -/

/-- The output of the file exists, and it is derived from no file with records. -/
def Orphaned (run : Run) (md : Metadata) (t : FileTree) (p : Text) : Prop :=
  (∃ e, t.stat (run.output p) = .ok e) ∧ ∀ q ∈ md.paths, run.output q ≠ run.output p

/-- The artifact for an output that is left over. -/
def orphanArtifact (run : Run) (p : Text) : Artifact where
  source := p
  output := run.output p
  types := 0
  digest := []
  status := .stale

theorem claimants_eq_nil_iff {p : Text} :
    md.claimants run.options.suffix (run.output p) = [] ↔
      ∀ q ∈ md.paths, run.output q ≠ run.output p := by
  rw [Metadata.claimants, List.filter_eq_nil_iff]
  simp only [beq_iff_eq]
  rfl

/-- What is reported on the output of a file without records. -/
theorem orphan?_cases (run : Run) (md : Metadata) (t : FileTree) (p : Text) :
    (run.Orphaned md t p ∧ ∃ e, run.orphan? md t p = some e ∧
      e.artifacts = [run.orphanArtifact p] ∧ e.failures = [.orphaned (run.output p) p]) ∨
    (¬ run.Orphaned md t p ∧ run.orphan? md t p = none) := by
  unfold orphan?
  dsimp only
  by_cases hclaim : md.claimants run.options.suffix (run.output p) = []
  · rw [if_neg (by simp [hclaim])]
    cases hstat : t.stat (run.output p) with
    | error e =>
      refine .inr ⟨?_, rfl⟩
      rintro ⟨⟨found, hfound⟩, -⟩
      rw [hstat] at hfound
      exact absurd hfound (by simp)
    | ok found =>
      exact .inl ⟨⟨⟨found, hstat⟩, claimants_eq_nil_iff.mp hclaim⟩, _, rfl, rfl, rfl⟩
  · rw [if_pos (by simpa using hclaim)]
    exact .inr ⟨fun h => hclaim (claimants_eq_nil_iff.mpr h.2), rfl⟩

theorem isSome_orphan?_iff {p : Text} :
    (run.orphan? md t p).isSome ↔ run.Orphaned md t p := by
  rcases run.orphan?_cases md t p with ⟨h, e, he, -⟩ | ⟨h, he⟩
  · simp [he, h]
  · simp [he, h]

theorem accounted_orphans (run : Run) (md : Metadata) (t : FileTree) :
    (run.orphans md t).Accounted := by
  unfold orphans
  split
  · refine Emission.accounted_concat fun e he => ?_
    obtain ⟨p, -, hp⟩ := List.mem_filterMap.mp he
    rcases run.orphan?_cases md t p with ⟨-, e', he', hart, hfail⟩ | ⟨-, hnone⟩
    · rw [← Option.some.inj (he'.symm.trans hp)]
      refine .single hart ?_
      rw [hfail]
      exact .orphaned rfl
    · rw [hnone] at hp
      exact absurd hp (by simp)
  · exact Emission.accounted_empty

/-- What is reported on left-over outputs, in the order of the files. -/
theorem concat_orphan? (run : Run) (md : Metadata) (t : FileTree) (ps : List Text) :
    (Emission.concat (ps.filterMap (run.orphan? md t))).artifacts =
        (ps.filter fun p => (run.orphan? md t p).isSome).map run.orphanArtifact ∧
      (Emission.concat (ps.filterMap (run.orphan? md t))).failures =
        (ps.filter fun p => (run.orphan? md t p).isSome).map
          fun p => .orphaned (run.output p) p := by
  induction ps with
  | nil => exact ⟨rfl, rfl⟩
  | cons p ps ih =>
    rcases run.orphan?_cases md t p with ⟨-, e, he, hart, hfail⟩ | ⟨-, hnone⟩
    · rw [List.filterMap_cons_some he, Emission.concat_cons, Emission.artifacts_append,
        Emission.failures_append, ih.1, ih.2, hart, hfail, List.filter_cons_of_pos (by simp [he])]
      exact ⟨rfl, rfl⟩
    · rw [List.filterMap_cons_none hnone, List.filter_cons_of_neg (by simp [hnone])]
      exact ih

/-- The artifacts for left-over outputs, which only a check has. -/
theorem artifacts_orphans (run : Run) (md : Metadata) (t : FileTree) :
    (run.orphans md t).artifacts =
      if run.mode = .check then
        (md.unannotated.filter fun p => (run.orphan? md t p).isSome).map run.orphanArtifact
      else [] := by
  unfold orphans
  split
  · next hmode =>
    rw [if_pos hmode]
    exact (run.concat_orphan? md t md.unannotated).1
  · next hmode => exact (if_neg hmode).symm

/-- The failures for left-over outputs. -/
theorem failures_orphans (run : Run) (md : Metadata) (t : FileTree) :
    (run.orphans md t).failures =
      if run.mode = .check then
        (md.unannotated.filter fun p => (run.orphan? md t p).isSome).map
          fun p => .orphaned (run.output p) p
      else [] := by
  unfold orphans
  split
  · next hmode =>
    rw [if_pos hmode]
    exact (run.concat_orphan? md t md.unannotated).2
  · next hmode => exact (if_neg hmode).symm

/-- A check reports no left-over output exactly if there is none. -/
theorem failures_orphans_eq_nil_iff (hmode : run.mode = .check) :
    (run.orphans md t).failures = [] ↔ ∀ p ∈ md.unannotated, ¬ run.Orphaned md t p := by
  rw [failures_orphans, if_pos hmode, List.map_eq_nil_iff, List.filter_eq_nil_iff]
  simp only [isSome_orphan?_iff]

theorem map_source_orphans (run : Run) (md : Metadata) (t : FileTree) :
    (run.orphans md t).artifacts.map Artifact.source =
      if run.mode = .check then md.unannotated.filter fun p => (run.orphan? md t p).isSome
      else [] := by
  rw [artifacts_orphans]
  split
  · rw [List.map_map]
    exact List.map_id _
  · rfl

theorem mem_source_orphans {p : Text} :
    p ∈ (run.orphans md t).artifacts.map Artifact.source ↔
      run.mode = .check ∧ p ∈ md.unannotated ∧ run.Orphaned md t p := by
  rw [map_source_orphans]
  by_cases hmode : run.mode = .check
  · rw [if_pos hmode, List.mem_filter, isSome_orphan?_iff]
    simp [hmode]
  · simp [hmode]

theorem nodup_source_orphans (hnodup : md.unannotated.Nodup) :
    ((run.orphans md t).artifacts.map Artifact.source).Nodup := by
  rw [map_source_orphans]
  split
  · exact hnodup.filter _
  · exact List.nodup_nil

/-! ## All artifacts of a run -/

/-- Reports on left-over outputs are made by a check, which has not changed the tree. -/
theorem orphans_emitSources (run : Run) (md : Metadata) (t : FileTree)
    (files : List (Text × List TypeRecord)) :
    run.orphans md (run.emitSources md t files).1 = run.orphans md t := by
  by_cases hmode : run.mode = .check
  · rw [emitSources_tree (by simp [hmode]) t]
  · unfold orphans
    split
    · next h => exact absurd h hmode
    · rfl

theorem emit_eq (run : Run) (t : FileTree) (md : Metadata) :
    run.emit t md = ((run.emitSources md t md.files).1,
      { (run.emitSources md t md.files).2.append (run.orphans md t) with
        artifacts := ((run.emitSources md t md.files).2.append
          (run.orphans md t)).artifacts.mergeSort bySource }) := by
  rw [← run.orphans_emitSources md t md.files]
  rfl

theorem generate_eq_of_some (h : (run.collect t).metadata = some md) :
    run.generate t = ((run.emit t md).1,
      Emission.append { failures := (run.collect t).failures, events := (run.collect t).events }
        (run.emit t md).2) := by
  unfold generate generateWith
  dsimp only
  rw [h]
  rfl

/-- The sources of all artifacts, in some order. -/
theorem source_emit_perm (run : Run) (t : FileTree) (md : Metadata) :
    ((run.emit t md).2.artifacts.map Artifact.source).Perm
      (md.paths ++ (run.orphans md t).artifacts.map Artifact.source) := by
  have hperm := (run.artifacts_emit_perm t md).map Artifact.source
  rwa [List.map_append, map_source_emitSources, orphans_emitSources] at hperm

/-- No two artifacts have the same source. -/
theorem nodup_source_emit (run : Run) (t : FileTree) (hpaths : md.paths.Nodup)
    (hbare : md.unannotated.Nodup) :
    ((run.emit t md).2.artifacts.map Artifact.source).Nodup := by
  rw [(run.source_emit_perm t md).nodup_iff]
  refine List.nodup_append.mpr ⟨hpaths, nodup_source_orphans hbare, fun p hp q hq heq => ?_⟩
  obtain ⟨a, ha, hsource⟩ := List.mem_map.mp hq
  exact source_notMem_of_mem_orphans ha (by rwa [hsource, ← heq])

/-- The artifacts come in byte order of their sources. -/
theorem pairwise_lt_source_emit (run : Run) (t : FileTree) (hpaths : md.paths.Nodup)
    (hbare : md.unannotated.Nodup) :
    ((run.emit t md).2.artifacts.map Artifact.source).Pairwise (· < ·) := by
  have hle := Text.pairwise_mergeSort_key Artifact.source
    ((run.emitSources md t md.files).2.append (run.orphans md t)).artifacts
  have hnodup := run.nodup_source_emit t hpaths hbare
  rw [emit_eq] at hnodup ⊢
  rw [List.Nodup, List.pairwise_map] at hnodup
  rw [List.pairwise_map]
  refine (hle.and hnodup).imp fun {a b} h => ?_
  by_contra hlt
  exact h.2 (Text.le_antisymm h.1 ((Text.le_eq_true_iff _ _).mpr hlt))

/-- The emission of a whole record set is accounted for, in the order of the files. -/
theorem exists_reports_emit (run : Run) (t : FileTree) (md : Metadata) :
    ∃ reports : List (Artifact × List Failure), (∀ r ∈ reports, r.1.Explained r.2) ∧
      (reports.map Prod.fst).Perm (run.emit t md).2.artifacts ∧
      (run.emit t md).2.failures = reports.flatMap Prod.snd := by
  obtain ⟨reports, hexp, hart, hfail⟩ :=
    (run.accounted_emitSources md md.files t).append (run.accounted_orphans md t)
  refine ⟨reports, hexp, ?_, ?_⟩
  · rw [← hart, emit_eq]
    exact (List.mergeSort_perm _ _).symm
  · rw [emit_eq]
    exact hfail

/-- Nothing has failed in an emission exactly if the outcomes of all artifacts are fine. -/
theorem failures_emit_eq_nil_iff (run : Run) (t : FileTree) (md : Metadata) :
    (run.emit t md).2.failures = [] ↔ ∀ a ∈ (run.emit t md).2.artifacts, a.status.IsFine := by
  obtain ⟨reports, hexp, hperm, hfail⟩ := run.exists_reports_emit t md
  rw [hfail, List.flatMap_eq_nil_iff]
  constructor
  · intro h a ha
    obtain ⟨r, hr, rfl⟩ := List.mem_map.mp (hperm.mem_iff.mpr ha)
    exact (hexp r hr).eq_nil_iff.mp (h r hr)
  · intro h r hr
    exact (hexp r hr).eq_nil_iff.mpr (h r.1 (hperm.mem_iff.mp (List.mem_map_of_mem hr)))

/-! ## The books -/

/-- The books of a run over the discovered files. -/
structure Account (run : Run) (t : FileTree) (md : Metadata) (paths : List Text) : Prop where
  /-- A discovered file is in exactly one class: its scan has failures, it has records, or it has
  none. -/
  classes : ∀ p ∈ paths,
    ((scanFile run.tokens t p).failures ≠ [] ∧ p ∉ md.paths ∧ p ∉ md.unannotated) ∨
    ((scanFile run.tokens t p).failures = [] ∧ p ∈ md.paths ∧ p ∉ md.unannotated) ∨
    ((scanFile run.tokens t p).failures = [] ∧ p ∉ md.paths ∧ p ∈ md.unannotated)
  /-- Only discovered files are in a class, and none of them twice. -/
  discovered : (∀ p, p ∈ md.paths ∨ p ∈ md.unannotated → p ∈ paths) ∧ paths.Nodup ∧
    md.paths.Nodup ∧ md.unannotated.Nodup
  /-- The failures of all scans are returned. -/
  scanFailures :
    (run.collect t).failures = paths.flatMap fun p => (scanFile run.tokens t p).failures
  /-- A run returns the artifacts of its emission, and the failures of both of its parts. -/
  joined : (run.generate t).2.artifacts = (run.emit t md).2.artifacts ∧
    (run.generate t).2.failures = (run.collect t).failures ++ (run.emit t md).2.failures
  /-- The artifacts come in strict byte order of their sources, so each source has one. -/
  sorted : ((run.emit t md).2.artifacts.map Artifact.source).Pairwise (· < ·)
  /-- There is one for each file with records and, in a check, for each file without records that
  has left its output behind. -/
  sources : ∀ p, p ∈ (run.emit t md).2.artifacts.map Artifact.source ↔
    p ∈ md.paths ∨ run.mode = .check ∧ p ∈ md.unannotated ∧ run.Orphaned md t p
  /-- An output that is left behind is stale. -/
  leftBehind : ∀ a ∈ (run.emit t md).2.artifacts, a.source ∉ md.paths →
    a = run.orphanArtifact a.source
  /-- The failures of an emission are those of its artifacts. -/
  reports : ∃ reports : List (Artifact × List Failure), (∀ r ∈ reports, r.1.Explained r.2) ∧
    (reports.map Prod.fst).Perm (run.emit t md).2.artifacts ∧
    (run.emit t md).2.failures = reports.flatMap Prod.snd
  /-- A run has no failure exactly if no scan has one and every artifact is as it should be. -/
  failures_eq_nil_iff : (run.generate t).2.failures = [] ↔
    (∀ p ∈ paths, (scanFile run.tokens t p).failures = []) ∧
      ∀ a ∈ (run.generate t).2.artifacts, a.status.IsFine

theorem isSome_scanned?_iff {p : Text} : (run.scanned? t p).isSome ↔
    (scanFile run.tokens t p).failures = [] ∧ (scanFile run.tokens t p).scan.records ≠ [] := by
  unfold scanned?
  dsimp only
  split
  · next h => simpa using h
  · next h =>
    rw [Bool.and_eq_true, List.isEmpty_iff, Bool.not_eq_true', List.isEmpty_eq_false_iff] at h
    simpa using h

theorem mem_map_fst_scanned_iff {paths : List Text} {p : Text} :
    p ∈ (paths.filterMap (run.scanned? t)).map Prod.fst ↔
      p ∈ paths ∧ (run.scanned? t p).isSome := by
  rw [List.mem_map]
  constructor
  · rintro ⟨f, hf, rfl⟩
    obtain ⟨q, hq, hscan⟩ := List.mem_filterMap.mp hf
    have hpath := (scanned?_eq_some hscan).1
    rw [hpath, hscan]
    exact ⟨hq, rfl⟩
  · rintro ⟨hp, hsome⟩
    obtain ⟨f, hf⟩ := Option.isSome_iff_exists.mp hsome
    exact ⟨f, List.mem_filterMap.mpr ⟨p, hp, hf⟩, (scanned?_eq_some hf).1⟩

/-- The class of a discovered file. -/
theorem classes_of_collect {paths : List Text} {p : Text} (hp : p ∈ paths)
    (hfiles : md.files = paths.filterMap (run.scanned? t))
    (hbare : md.unannotated = paths.filter (run.isUnannotated t)) :
    ((scanFile run.tokens t p).failures ≠ [] ∧ p ∉ md.paths ∧ p ∉ md.unannotated) ∨
    ((scanFile run.tokens t p).failures = [] ∧ p ∈ md.paths ∧ p ∉ md.unannotated) ∨
    ((scanFile run.tokens t p).failures = [] ∧ p ∉ md.paths ∧ p ∈ md.unannotated) := by
  have hpaths : p ∈ md.paths ↔ (scanFile run.tokens t p).failures = [] ∧
      (scanFile run.tokens t p).scan.records ≠ [] := by
    rw [Metadata.paths, hfiles, mem_map_fst_scanned_iff, isSome_scanned?_iff]
    exact and_iff_right hp
  have hunannotated : p ∈ md.unannotated ↔ (scanFile run.tokens t p).failures = [] ∧
      (scanFile run.tokens t p).scan.records = [] := by
    rw [hbare, List.mem_filter, isUnannotated, Bool.and_eq_true, List.isEmpty_iff,
      List.isEmpty_iff]
    exact and_iff_right hp
  rw [hpaths, hunannotated]
  by_cases hfail : (scanFile run.tokens t p).failures = []
  · by_cases hrec : (scanFile run.tokens t p).scan.records = []
    · exact .inr (.inr ⟨hfail, fun h => h.2 hrec, hfail, hrec⟩)
    · exact .inr (.inl ⟨hfail, ⟨hfail, hrec⟩, fun h => hrec h.2⟩)
  · exact .inl ⟨hfail, fun h => hfail h.1, fun h => hfail h.1⟩

/-- An artifact of a file without records is that of an output that is left over. -/
theorem eq_orphanArtifact {a : Artifact} (ha : a ∈ (run.emit t md).2.artifacts)
    (hsource : a.source ∉ md.paths) : a = run.orphanArtifact a.source := by
  rw [(run.artifacts_emit_perm t md).mem_iff, List.mem_append, orphans_emitSources] at ha
  rcases ha with ha | ha
  · have hmem : a.source ∈ (run.emitSources md t md.files).2.artifacts.map Artifact.source :=
      List.mem_map_of_mem ha
    rw [map_source_emitSources] at hmem
    exact absurd hmem hsource
  · rw [artifacts_orphans] at ha
    split at ha
    · obtain ⟨p, -, rfl⟩ := List.mem_map.mp ha
      rfl
    · exact absurd ha List.not_mem_nil

/-- **No failure is lost and every file is accounted for once.**  Whenever the tree can be scanned,
the books of the run over the discovered files are in order. -/
theorem generate_accounts_for_everything (run : Run) (t : FileTree) (md : Metadata)
    (hwf : t.WellFormed) (hmd : (run.collect t).metadata = some md) :
    ∃ paths, Discovery.find t run.root run.included run.excluded = .ok paths ∧
      run.Account t md paths := by
  obtain ⟨paths, hfind, hnodup, hfiles, hbare, hfailures⟩ := exists_paths_of_collect hwf hmd
  have hpaths : md.paths.Nodup := paths_nodup_collect hmd
  have hunannotated : md.unannotated.Nodup := hbare ▸ hnodup.filter _
  have hgenerate := generate_eq_of_some hmd
  refine ⟨paths, hfind, ?_⟩
  constructor
  case classes => exact fun p hp => classes_of_collect hp hfiles hbare
  case discovered =>
    refine ⟨fun p hp => ?_, hnodup, hpaths, hunannotated⟩
    rcases hp with hp | hp
    · rw [Metadata.paths, hfiles, mem_map_fst_scanned_iff] at hp
      exact hp.1
    · rw [hbare] at hp
      exact (List.mem_filter.mp hp).1
  case scanFailures => exact hfailures
  case joined =>
    rw [hgenerate]
    exact ⟨rfl, rfl⟩
  case sorted => exact run.pairwise_lt_source_emit t hpaths hunannotated
  case sources =>
    intro p
    rw [(run.source_emit_perm t md).mem_iff, List.mem_append, mem_source_orphans]
  case leftBehind => exact fun a ha hsource => eq_orphanArtifact ha hsource
  case reports => exact run.exists_reports_emit t md
  case failures_eq_nil_iff =>
    have hboth : (run.generate t).2.failures = [] ↔
        (run.collect t).failures = [] ∧ (run.emit t md).2.failures = [] := by
      rw [hgenerate, Emission.failures_append, List.append_eq_nil_iff]
    rw [hboth, failures_emit_eq_nil_iff, hfailures, List.flatMap_eq_nil_iff,
      (generate_of_some hmd).2]

/-- A directory with a source that has records, one that cannot be scanned, and one without records
whose output is left over. -/
def mixedTree : FileTree where
  entries := [
    ([lit "src"], .directory),
    ([lit "src", lit "a.h"], .file (sourceText (lit "A"))),
    ([lit "src", lit "b.h"], .file (lit "VX_RF_DATA_END(B)\n")),
    ([lit "src", lit "c.h"], .file []),
    ([lit "src", lit "c_reflection.cpp"], .file [])]
  workdir := []

/-- A check of that directory. -/
def mixedRun : Run := (writeRun (lit "src") standardIncludes).inMode .check

/-- The record set of the check. -/
def mixedMetadata : Metadata where
  root := lit "src"
  files := [(lit "src/a.h", [{ name := lit "A", members := [], line := 2 }])]
  unannotated := [lit "src/c.h"]

theorem lstat_mixedRun : mixedTree.lstat mixedRun.root = .ok ([lit "src"], .directory) := by
  decide +kernel

theorem find_mixedRun :
    Discovery.find mixedTree mixedRun.root mixedRun.included mixedRun.excluded =
      .ok [lit "src/a.h", lit "src/b.h", lit "src/c.h"] := by
  refine Discovery.find_of_sorted (by decide +kernel) (by decide +kernel) lstat_mixedRun ?_ ?_
  · decide +kernel
  · decide +kernel

/-- The books of the check: one file of each class, an artifact that is missing and one that is left
over, and a failure for each of the two and for the scan. -/
theorem mixedRun_accounts_for_everything :
    mixedTree.WellFormed ∧ (mixedRun.collect mixedTree).metadata = some mixedMetadata ∧
      (∃ paths, Discovery.find mixedTree mixedRun.root mixedRun.included mixedRun.excluded =
        .ok paths ∧ mixedRun.Account mixedTree mixedMetadata paths) ∧
      mixedMetadata.paths = [lit "src/a.h"] ∧ mixedMetadata.unannotated = [lit "src/c.h"] ∧
      mixedRun.Orphaned mixedMetadata mixedTree (lit "src/c.h") ∧
      (mixedRun.generate mixedTree).2.failures.length = 3 := by
  have hwf : mixedTree.WellFormed := by decide +kernel
  have hmd : (mixedRun.collect mixedTree).metadata = some mixedMetadata := by
    rw [collect_of_find (FileTree.stat_of_lstat lstat_mixedRun) find_mixedRun]
    decide +kernel
  refine ⟨hwf, hmd, generate_accounts_for_everything mixedRun mixedTree mixedMetadata hwf hmd,
    by decide +kernel, by decide +kernel, ?_, ?_⟩
  · rw [← isSome_orphan?_iff]
    decide +kernel
  · have hscan : (mixedRun.collect mixedTree).failures.length = 1 := by
      rw [collect_failures_of_find hmd find_mixedRun]
      decide +kernel
    have hemit : (mixedRun.emit mixedTree mixedMetadata).2.failures.length = 2 := by
      rw [emit_eq]
      decide +kernel
    rw [generate_eq_of_some hmd, Emission.failures_append, List.length_append, hscan, hemit]

end Run

end ReflectGen

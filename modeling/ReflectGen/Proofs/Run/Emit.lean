import Mathlib.Data.List.Forall2
import ReflectGen.Run.Emit
import ReflectGen.Proofs.Run.Clash

/-!
# What becomes of each source

Emission goes through the files with records one after the other.  Whether a source is refused and
what is rendered for it depends on the record set alone; only what is done with a rendered text
looks at the tree, and only writing it changes the tree.

* `Run.emitSource_cases`: everything that can happen to one source; `Run.deliver_cases`: how one that
  is rendered is delivered.
* `Run.Fate`: what an artifact tells about its file; the artifacts of a run are the fates of its
  files in a row (`Run.emitSources_fates`).
* `Run.filter_artifacts_emit`: a file with records has exactly one artifact.
-/

namespace ReflectGen

/-- What can become of a rendered source. -/
def Mode.outcomes : Mode → List Status
  | .write => [.written, .failed]
  | .check => [.upToDate, .stale]
  | .dryRun => [.dryRun]

namespace Run

/-! ## One source -/

/-- The artifact of a source with the given digest and status. -/
def artifact (run : Run) (f : Text × List TypeRecord) (digest : Text) (status : Status) :
    Artifact where
  source := f.1
  output := run.output f.1
  types := f.2.length
  digest := digest
  status := status

/-- What is done with a rendered source. -/
def deliver (run : Run) (t : FileTree) (a : Artifact) (content : Text) : FileTree × Emission :=
  match run.mode with
  | .dryRun => (t, announce a)
  | .check => (t, checkOutput t a content)
  | .write => writeOutput t a content

/-- The source is one of several from which its output path is derived. -/
def Collides (run : Run) (md : Metadata) (source : Text) : Prop :=
  2 ≤ (md.claimants run.options.suffix (run.output source)).length

/-- The source is told about a type or variable that is defined elsewhere, too. -/
def Duplicates (run : Run) (md : Metadata) (source : Text) : Prop :=
  Clash.messages run.options.globalPrefix md.sites source ≠ []

theorem collides_iff {run : Run} {md : Metadata} (hnodup : md.paths.Nodup)
    {f : Text × List TypeRecord} (hf : f ∈ md.files) :
    run.Collides md f.1 ↔ md.SharesOutput f.1 :=
  Metadata.two_le_length_claimants_iff hnodup (List.mem_map_of_mem hf) run.options.suffix

theorem duplicates_iff {run : Run} {md : Metadata} (hnodup : md.paths.Nodup) {source : Text} :
    run.Duplicates md source ↔ md.SharesVariable run.options.globalPrefix source :=
  Clash.messages_ne_nil_iff hnodup

/-- A file that does not collide is the only one with its output path. -/
theorem eq_of_output_eq {run : Run} {md : Metadata} (hnodup : md.paths.Nodup)
    {f g : Text × List TypeRecord} (hf : f ∈ md.files) (hg : g ∈ md.files)
    (hc : ¬ run.Collides md f.1) (hout : run.output f.1 = run.output g.1) : f = g := by
  have hpath : g.1 = f.1 := by
    by_contra hne
    rw [collides_iff hnodup hf] at hc
    exact hc ⟨g.1, List.mem_map_of_mem hg, hne, (outputPath_eq_iff _ _ _).mp hout.symm⟩
  exact List.inj_on_of_nodup_map hnodup hf hg hpath.symm

/-- Everything that can happen to one source: it is refused for one of two reasons, it cannot be
rendered, or it is rendered and delivered. -/
theorem emitSource_cases (run : Run) (md : Metadata) (t : FileTree) (f : Text × List TypeRecord) :
    (run.Collides md f.1 ∧ ∃ failure, run.emitSource md t f.1 f.2 =
      (t, refuse (run.artifact f [] .collision) failure)) ∨
    (¬ run.Collides md f.1 ∧ run.Duplicates md f.1 ∧ ∃ failure, run.emitSource md t f.1 f.2 =
      (t, refuse (run.artifact f [] .duplicate) failure)) ∨
    (¬ run.Collides md f.1 ∧ ¬ run.Duplicates md f.1 ∧
      ∃ e, render run.version f.1 f.2 run.options = .error e ∧ run.emitSource md t f.1 f.2 =
        (t, { artifacts := [run.artifact f [] .failed], failures := [.unversioned e] })) ∨
    (¬ run.Collides md f.1 ∧ ¬ run.Duplicates md f.1 ∧
      ∃ content, render run.version f.1 f.2 run.options = .ok content ∧
        run.emitSource md t f.1 f.2 =
          run.deliver t (run.artifact f (Digest.ofContent content) .failed) content) := by
  by_cases hc : run.Collides md f.1
  · exact .inl ⟨hc, _, if_pos hc⟩
  · have hc' : ¬ 2 ≤ (md.claimants run.options.suffix (run.output f.1)).length := hc
    by_cases hd : run.Duplicates md f.1
    · refine .inr (.inl ⟨hc, hd, .duplicate f.1
        (Clash.messages run.options.globalPrefix md.sites f.1), ?_⟩)
      have hd' : (!(Clash.messages run.options.globalPrefix md.sites f.1).isEmpty) = true := by
        simpa [Duplicates] using hd
      rw [emitSource, if_neg hc', if_pos hd']
      rfl
    · have hd' : ¬ (!(Clash.messages run.options.globalPrefix md.sites f.1).isEmpty) = true := by
        simpa [Duplicates] using hd
      cases hr : render run.version f.1 f.2 run.options with
      | error e =>
        refine .inr (.inr (.inl ⟨hc, hd, e, rfl, ?_⟩))
        simp only [emitSource, if_neg hc', if_neg hd', hr]
        rfl
      | ok content =>
        refine .inr (.inr (.inr ⟨hc, hd, content, rfl, ?_⟩))
        simp only [emitSource, if_neg hc', if_neg hd', hr]
        rfl

/-- The ways in which a rendered source is delivered: the status of its artifact, its failures and
the message of the record that tells it. -/
inductive Delivery (a : Artifact) : Status → List Failure → String → Prop where
  | announced : Delivery a .dryRun [] "Would generate reflection source"
  | upToDate : Delivery a .upToDate [] "Reflection source is up to date"
  | stale (reason : Text) :
      Delivery a .stale [.stale a.output reason] "Reflection source is stale"
  | written : Delivery a .written [] "Generated reflection source"
  | unwritten (e : AccessError) :
      Delivery a .failed [.unwritten a.output e] "Failed to write reflection source"

/-- A delivery keeps the artifact but for its status, and tells one record, behind the file that it
stores if it does. -/
theorem deliver_cases (run : Run) (t : FileTree) (a : Artifact) (content : Text) :
    ∃ status ∈ run.mode.outcomes, ∃ failures message, Delivery a status failures message ∧
      (run.deliver t a content).2.artifacts = [{ a with status := status }] ∧
      (run.deliver t a content).2.failures = failures ∧
      ∃ (stored : Option Location) (severity : Int) (attrs : List LogAttr),
        (run.deliver t a content).2.events =
          stored.toList.map Event.stored ++ [Event.record severity message attrs] := by
  unfold deliver
  cases run.mode with
  | dryRun => exact ⟨_, List.mem_cons_self, _, _, .announced, rfl, rfl, none, _, _, rfl⟩
  | check =>
    simp only [checkOutput]
    split
    · exact ⟨_, List.mem_cons_self, _, _, .upToDate, rfl, rfl, none, _, _, rfl⟩
    · next reason _ =>
      exact ⟨_, List.mem_cons_of_mem _ List.mem_cons_self, _, _, .stale reason, rfl, rfl, none, _,
        _, rfl⟩
  | write =>
    simp only [writeOutput]
    split
    · next loc _ _ =>
      exact ⟨_, List.mem_cons_self, _, _, .written, rfl, rfl, some loc, _, _, rfl⟩
    · next e _ =>
      exact ⟨_, List.mem_cons_of_mem _ List.mem_cons_self, _, _, .unwritten e, rfl, rfl, none, _,
        _, rfl⟩

/-- The file was rendered, and the artifact has the digest of the text and an outcome of the mode;
or the version kept it from being rendered. -/
def Rendered (run : Run) (f : Text × List TypeRecord) (a : Artifact) : Prop :=
  match render run.version f.1 f.2 run.options with
  | .ok content => a.digest = Digest.ofContent content ∧ a.status ∈ run.mode.outcomes
  | .error _ => a.digest = [] ∧ a.status = .failed

/-- What an artifact tells about its file. -/
structure Fate (run : Run) (md : Metadata) (f : Text × List TypeRecord) (a : Artifact) : Prop where
  source : a.source = f.1
  output : a.output = run.output f.1
  types : a.types = f.2.length
  collision : a.status = .collision ↔ run.Collides md f.1
  duplicate : a.status = .duplicate ↔ ¬ run.Collides md f.1 ∧ run.Duplicates md f.1
  rendered : ¬ run.Collides md f.1 → ¬ run.Duplicates md f.1 → run.Rendered f a

theorem outcome_not_refusal {mode : Mode} {status : Status} (h : status ∈ mode.outcomes) :
    status ≠ .collision ∧ status ≠ .duplicate := by
  cases mode <;> simp only [Mode.outcomes, List.mem_cons, List.not_mem_nil, or_false] at h
  · rcases h with rfl | rfl <;> decide
  · rcases h with rfl | rfl <;> decide
  · rw [h]
    decide

/-- One source has one artifact, which tells its fate. -/
theorem emitSource_fate (run : Run) (md : Metadata) (t : FileTree) (f : Text × List TypeRecord) :
    ∃ a, (run.emitSource md t f.1 f.2).2.artifacts = [a] ∧ run.Fate md f a := by
  rcases run.emitSource_cases md t f with ⟨hc, _, e⟩ | ⟨hc, hd, _, e⟩ | ⟨hc, hd, _, hr, e⟩ |
    ⟨hc, hd, content, hr, e⟩
  · rw [e]
    exact ⟨_, rfl, rfl, rfl, rfl, by simp [artifact, hc], by simp [artifact, hc],
      fun h => absurd hc h⟩
  · rw [e]
    exact ⟨_, rfl, rfl, rfl, rfl, by simp [artifact, hc], by simp [artifact, hc, hd],
      fun _ h => absurd hd h⟩
  · rw [e]
    refine ⟨_, rfl, rfl, rfl, rfl, by simp [artifact, hc], by simp [artifact, hd], fun _ _ => ?_⟩
    rw [Rendered, hr]
    exact ⟨rfl, rfl⟩
  · rw [e]
    obtain ⟨status, hstatus, _, _, -, ha, -⟩ := run.deliver_cases t
      (run.artifact f (Digest.ofContent content) .failed) content
    obtain ⟨hnc, hnd⟩ := outcome_not_refusal hstatus
    refine ⟨_, ha, rfl, rfl, rfl, by simp [hnc, hc], by simp [hnd, hd], fun _ _ => ?_⟩
    rw [Rendered, hr]
    exact ⟨rfl, hstatus⟩

/-! ## All sources -/

/-- The artifacts of a run tell the fates of its files, in order. -/
theorem emitSources_fates (run : Run) (md : Metadata) (files : List (Text × List TypeRecord)) :
    ∀ t : FileTree, List.Forall₂ (run.Fate md) files (run.emitSources md t files).2.artifacts := by
  induction files with
  | nil =>
    intro t
    exact .nil
  | cons f files ih =>
    intro t
    obtain ⟨a, ha, hfate⟩ := run.emitSource_fate md t f
    have hrest := ih (run.emitSource md t f.1 f.2).1
    show List.Forall₂ (run.Fate md) (f :: files)
      ((run.emitSource md t f.1 f.2).2.artifacts ++
        (run.emitSources md (run.emitSource md t f.1 f.2).1 files).2.artifacts)
    rw [ha]
    exact .cons hfate hrest

theorem map_source_emitSources (run : Run) (md : Metadata) (t : FileTree)
    (files : List (Text × List TypeRecord)) :
    (run.emitSources md t files).2.artifacts.map Artifact.source = files.map Prod.fst := by
  have h := run.emitSources_fates md files t
  generalize (run.emitSources md t files).2.artifacts = as at h
  induction h with
  | nil => rfl
  | cons hfate _ ih => rw [List.map_cons, List.map_cons, hfate.source, ih]

/-- A file without records whose output is left over is none of the files with records. -/
theorem source_notMem_of_mem_orphans {run : Run} {md : Metadata} {t : FileTree} {a : Artifact}
    (ha : a ∈ (run.orphans md t).artifacts) : a.source ∉ md.paths := by
  have happend : ∀ es : List Emission, a ∈ (es.foldr Emission.append {}).artifacts →
      ∃ e ∈ es, a ∈ e.artifacts := by
    intro es
    induction es with
    | nil => exact fun h => absurd h List.not_mem_nil
    | cons e es ih =>
      intro h
      rcases List.mem_append.mp h with h | h
      · exact ⟨e, List.mem_cons_self, h⟩
      · obtain ⟨e', he', h'⟩ := ih h
        exact ⟨e', List.mem_cons_of_mem _ he', h'⟩
  unfold orphans at ha
  split at ha
  · obtain ⟨e, he, hae⟩ := happend _ ha
    obtain ⟨source, -, ho⟩ := List.mem_filterMap.mp he
    unfold orphan? at ho
    dsimp only at ho
    split at ho
    · exact absurd ho (by simp)
    · next hclaim =>
      split at ho
      · exact absurd ho (by simp)
      · rw [← Option.some.inj ho] at hae
        rw [List.mem_singleton.mp hae]
        intro hmem
        have hself : source ∈ md.claimants run.options.suffix (run.output source) :=
          List.mem_filter.mpr ⟨hmem, beq_self_eq_true _⟩
        have hempty : md.claimants run.options.suffix (run.output source) = [] := by
          simpa using hclaim
        rw [hempty] at hself
        exact absurd hself List.not_mem_nil
  · exact absurd ha List.not_mem_nil

theorem artifacts_emit_perm (run : Run) (t : FileTree) (md : Metadata) :
    (run.emit t md).2.artifacts.Perm ((run.emitSources md t md.files).2.artifacts ++
      (run.orphans md (run.emitSources md t md.files).1).artifacts) :=
  List.mergeSort_perm _ _

/-- Each file with records has exactly one artifact, which tells its fate. -/
theorem filter_artifacts_emit (run : Run) (t : FileTree) {md : Metadata} (hnodup : md.paths.Nodup)
    {f : Text × List TypeRecord} (hf : f ∈ md.files) :
    ∃ a, (run.emit t md).2.artifacts.filter (fun b => b.source == f.1) = [a] ∧ run.Fate md f a := by
  have hfates := run.emitSources_fates md md.files t
  obtain ⟨i, hi, rfl⟩ := List.getElem_of_mem hf
  have hi' : i < (run.emitSources md t md.files).2.artifacts.length := hfates.length_eq ▸ hi
  have hfate := hfates.get hi hi'
  refine ⟨_, ?_, hfate⟩
  have hkeys : ((run.emitSources md t md.files).2.artifacts.map Artifact.source).Nodup := by
    rw [map_source_emitSources]
    exact hnodup
  have hperm := (run.artifacts_emit_perm t md).filter fun b => b.source == md.files[i].1
  rw [List.filter_append] at hperm
  have horphans : (run.orphans md (run.emitSources md t md.files).1).artifacts.filter
      (fun b => b.source == md.files[i].1) = [] := by
    rw [List.filter_eq_nil_iff]
    intro a ha heq
    refine source_notMem_of_mem_orphans ha ?_
    rw [beq_iff_eq.mp heq]
    exact List.mem_map_of_mem hf
  have hsource := hfate.source
  simp only [List.get_eq_getElem] at hsource hperm ⊢
  rw [horphans, List.append_nil, ← hsource,
    filter_key_eq_singleton Artifact.source hkeys (List.getElem_mem hi')] at hperm
  rw [← hsource]
  exact List.perm_singleton.mp hperm

end Run

end ReflectGen

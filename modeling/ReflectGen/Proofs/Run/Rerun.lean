import ReflectGen.Proofs.Glob.Standard
import ReflectGen.Proofs.Run.Modes

/-!
# A run after a run

The outputs of a run lie in the tree that is scanned, so a second run sees what the first one has
written.  With the standard suffix and the standard patterns that makes no difference: an output is
never discovered, whatever the name of its source; so the second run discovers the same files with
the same contents, decides the same, and finds in each output what it would write there.

The root directory has to be denoted by its cleaned path, too, since that is how discovered files
are named; otherwise a discovered path may be another file, and even an output
(`Run.looseRun_differs`).

* `Run.emission_emitSources`: outputs whose locations do not depend on files are written as if each
  were alone.
* `Run.Writes.entry_of_verdict`, `Run.emitSources_again`: a second emission changes nothing.
* `Run.Settled`: what the tree after a run has in common with the one before it;
  `Run.settled_emit`: with the standard names it has all of that.
* `Run.generate_twice`: a second write run, and a check after a write run.
-/

namespace ReflectGen

namespace Run

variable {run : Run} {md : Metadata} {t t' : FileTree} {f : Text × List TypeRecord}
  {files : List (Text × List TypeRecord)}

/-! ## Emission with steady outputs -/

/-- What is said about a source that is written depends on the tree by the location of its output. -/
theorem emitSource_congr (hmode : run.mode = .write)
    (h : t'.writeLocation (run.output f.1) = t.writeLocation (run.output f.1)) :
    (run.emitSource md t' f.1 f.2).2 = (run.emitSource md t f.1 f.2).2 := by
  cases hv : run.verdict md f with
  | error e => rw [emitSource_of_error hv, emitSource_of_error hv]
  | ok content =>
    rw [emitSource_of_ok hv, emitSource_of_ok hv, deliver, deliver, hmode]
    dsimp only
    unfold writeOutput FileTree.storeAt
    rw [show t'.writeLocation (run.artifact f (Digest.ofContent content) .failed).output =
      t.writeLocation (run.artifact f (Digest.ofContent content) .failed).output from h]
    cases t.writeLocation (run.artifact f (Digest.ofContent content) .failed).output <;> rfl

theorem alone_congr (hmode : run.mode = .write)
    (h : ∀ f ∈ files, t'.writeLocation (run.output f.1) = t.writeLocation (run.output f.1)) :
    run.alone md t' files = run.alone md t files := by
  unfold alone
  congr 1
  exact List.map_congr_left fun f hf => emitSource_congr hmode (h f hf)

theorem sameOutline_emitSource (run : Run) (md : Metadata) (t : FileTree)
    (f : Text × List TypeRecord) : t.SameOutline (run.emitSource md t f.1 f.2).1 := by
  obtain ⟨a, -, -, -, hstep⟩ := run.emitSource_write md t f
  rcases hstep with ⟨-, htree⟩ | ⟨-, -, loc, content, hstored, htree⟩
  · rw [htree]
    exact .refl t
  · rw [htree]
    exact FileTree.sameOutline_put hstored.2.2 content

/-- When the locations of outputs do not depend on files, a write run says of each source what it
would say of it alone. -/
theorem emission_emitSources (hmode : run.mode = .write) : ∀ {t : FileTree},
    (∀ f ∈ files, t.Steady (run.output f.1)) →
    (run.emitSources md t files).2 = run.alone md t files := by
  induction files with
  | nil => exact fun _ => rfl
  | cons f files ih =>
    intro t hsteady
    have houtline := run.sameOutline_emitSource md t f
    have hsteady' : ∀ g ∈ files, t.Steady (run.output g.1) :=
      fun g hg => hsteady g (List.mem_cons_of_mem f hg)
    rw [emitSources_cons, ih fun g hg => (hsteady' g hg).congr houtline,
      alone_congr hmode fun g hg => hsteady' g hg _ houtline]
    rfl

/-! ## Emission into a tree that has the outputs -/

/-- What becomes of a source that is written. -/
theorem emitSource_write_of_ok (hmode : run.mode = .write) {content : Text}
    (hv : run.verdict md f = .ok content) :
    (∃ loc, t.writeLocation (run.output f.1) = .ok loc ∧
      (run.emitSource md t f.1 f.2).1 = t.put loc (.file content) ∧
      (run.emitSource md t f.1 f.2).2.artifacts =
        [run.artifact f (Digest.ofContent content) .written] ∧
      (run.emitSource md t f.1 f.2).2.failures = []) ∨
    (∃ e, t.writeLocation (run.output f.1) = .error e ∧
      (run.emitSource md t f.1 f.2).1 = t ∧
      (run.emitSource md t f.1 f.2).2.artifacts =
        [run.artifact f (Digest.ofContent content) .failed] ∧
      (run.emitSource md t f.1 f.2).2.failures = [.unwritten (run.output f.1) e]) := by
  rw [emitSource_of_ok hv, deliver, hmode]
  dsimp only
  unfold writeOutput FileTree.storeAt
  cases hloc : t.writeLocation (run.artifact f (Digest.ofContent content) .failed).output with
  | ok loc => exact .inl ⟨loc, hloc, rfl, rfl, rfl⟩
  | error e => exact .inr ⟨e, hloc, rfl, rfl, rfl⟩

/-- What a check says of a source that is rendered. -/
theorem emitSource_check_of_ok {content : Text} (hv : run.verdict md f = .ok content) :
    (t.load (run.output f.1) = .ok content ∧
      ((run.inMode .check).emitSource md t f.1 f.2).2.artifacts =
        [run.artifact f (Digest.ofContent content) .upToDate] ∧
      ((run.inMode .check).emitSource md t f.1 f.2).2.failures = []) ∨
    (t.load (run.output f.1) ≠ .ok content ∧
      ((run.inMode .check).emitSource md t f.1 f.2).2.failures ≠ []) := by
  rw [emitSource_of_ok ((run.verdict_inMode .check md f).trans hv) t]
  exact checkOutput_cases t (run.artifact f (Digest.ofContent content) .failed) content

/-- A source that is written has left its text in the tree. -/
theorem Writes.entry_of_verdict (hmode : run.mode = .write) (hnodup : md.paths.Nodup)
    (hwrites : run.Writes md t t' md.files (run.alone md t md.files).artifacts)
    (hf : f ∈ md.files) {content : Text} (hv : run.verdict md f = .ok content) {loc : Location}
    (hloc : t.writeLocation (run.output f.1) = .ok loc) :
    t'.entry? loc = some (.file content) := by
  have hart : run.artifact f (Digest.ofContent content) .written ∈
      (run.alone md t md.files).artifacts := by
    rw [artifacts_alone, List.mem_flatMap]
    refine ⟨f, hf, ?_⟩
    rcases emitSource_write_of_ok (t := t) hmode hv with ⟨-, -, -, h, -⟩ | ⟨e, he, -⟩
    · rw [h]
      exact List.mem_singleton_self _
    · rw [hloc] at he
      exact absurd he (by simp)
  obtain ⟨g, hg, hsource, -, loc', content', hstored, hentry⟩ := hwrites.content _ hart rfl
  have hfg : f = g := List.inj_on_of_nodup_map hnodup hf hg hsource
  rw [← hfg] at hstored
  have hcontent : content' = content :=
    Except.ok.inj (hstored.2.1.symm.trans (render_of_verdict hv))
  have hplace : loc' = loc := Except.ok.inj (hstored.2.2.symm.trans hloc)
  rwa [hcontent, hplace] at hentry

/-- A second emission finds in each output what it would write there. -/
theorem emitSources_again (hmode : run.mode = .write) (hnodup : md.paths.Nodup)
    (hsteady : ∀ f ∈ md.files, t.Steady (run.output f.1))
    (hwrites : run.Writes md t t' md.files (run.alone md t md.files).artifacts) :
    run.emitSources md t' md.files = (t', run.alone md t md.files) := by
  have hlocation : ∀ f ∈ md.files,
      t'.writeLocation (run.output f.1) = t.writeLocation (run.output f.1) :=
    fun f hf => hsteady f hf t' hwrites.outline
  have hfixed : ∀ f ∈ md.files, (run.emitSource md t' f.1 f.2).1 = t' := by
    intro f hf
    cases hv : run.verdict md f with
    | error e => rw [emitSource_of_error hv]
    | ok content =>
      rcases emitSource_write_of_ok (t := t') hmode hv with ⟨loc, hloc, htree, -⟩ | ⟨-, -, htree, -⟩
      · have hne := (FileTree.outline_of_writeLocation hloc).1
        rw [hlocation f hf] at hloc
        rw [htree, FileTree.put_eq_self hne (hwrites.entry_of_verdict hmode hnodup hf hv hloc)]
      · exact htree
  rw [emitSources_of_fixed hfixed, alone_congr hmode hlocation]

/-! ## The tree after a run -/

/-- What the tree `t'` after a write run has in common with the tree `t` before it: the same files
are discovered and have the same contents, and the outputs are in their places. -/
structure Settled (run : Run) (md : Metadata) (t t' : FileTree) : Prop where
  find : Discovery.find t' run.root run.included run.excluded =
    Discovery.find t run.root run.included run.excluded
  load : ∀ paths, Discovery.find t run.root run.included run.excluded = .ok paths →
    ∀ p ∈ paths, t'.load p = t.load p
  collect : run.collect t' = run.collect t
  steady : ∀ f ∈ md.files, t.Steady (run.output f.1)
  writes : run.Writes md t t' md.files (run.alone md t md.files).artifacts

theorem isName_generated {name : Text} (h : Path.slash ∉ name) :
    Path.IsName (name ++ EmitOptions.standard.suffix) := by
  have hlength : 2 < (name ++ EmitOptions.standard.suffix).length := by
    have hsuffix : EmitOptions.standard.suffix.length = 15 := by decide
    rw [List.length_append, hsuffix]
    omega
  refine ⟨⟨?_, ?_⟩, ?_, ?_⟩
  · exact List.ne_nil_of_length_pos (by omega)
  · rw [List.mem_append, not_or]
    exact ⟨h, by decide⟩
  · intro heq
    rw [heq] at hlength
    exact absurd hlength (by decide)
  · intro heq
    rw [heq] at hlength
    exact absurd hlength (by decide)

/-- The output of a discovered file is reached along the same directories. -/
theorem route_output {top : Location} (hwf : t.WellFormed)
    (hclean : t.stat (Path.clean run.root) = .ok (top, .directory))
    (hsuffix : run.options.suffix = EmitOptions.standard.suffix) {p n : Text} {dirs : List Text}
    (h : Discovery.Below t run.root top p dirs n) :
    t.Route run.root top (run.output p) dirs (stem n ++ EmitOptions.standard.suffix) :=
  ⟨hclean, h.isName_dirs, isName_generated (slash_notMem_stem h.isName.slash_notMem),
    h.directories hwf, hsuffix ▸ output_of_below h⟩

/-- A run leaves the entries alone that can be discovered: an output is excluded for its name. -/
theorem entry?_of_isCandidate {top : Location} (hwf : t.WellFormed)
    (hreal : t.lstat run.root = .ok (top, .directory))
    (hclean : t.stat (Path.clean run.root) = .ok (top, .directory))
    (hsuffix : run.options.suffix = EmitOptions.standard.suffix)
    (hmd : (run.collect t).metadata = some md)
    (hlink : ∀ p ∈ md.paths, ∀ loc target, t.lstat (run.output p) ≠ .ok (loc, .link target))
    {artifacts : List Artifact} (hwrites : run.Writes md t t' md.files artifacts)
    {inc exc : List Pattern} (hexc : Pattern.readAll standardExcludes = .ok exc) {ns : List Text}
    (hns : Discovery.isCandidate inc exc ns = true) :
    t'.entry? (top ++ ns) = t.entry? (top ++ ns) := by
  by_contra hchanged
  obtain ⟨a, ha, hstatus, hloc⟩ := hwrites.frame _ hchanged
  obtain ⟨f, hf, -, houtput, -⟩ := hwrites.content a ha hstatus
  have hp : f.1 ∈ md.paths := List.mem_map_of_mem hf
  obtain ⟨dirs, n, hbelow⟩ := below_of_mem_paths hwf hreal hclean hmd hp
  rw [houtput] at hloc
  have hplace := (route_output hwf hclean hsuffix hbelow).eq_of_writeLocation (hlink _ hp) hloc
  rw [List.append_assoc, List.append_cancel_left_eq] at hplace
  rw [hplace, Discovery.isCandidate_generated hexc
    (slash_notMem_stem hbelow.isName.slash_notMem)] at hns
  exact absurd hns (by simp)

/-- **The tree after a write run is settled**, with the standard suffix and the standard excluded
patterns. -/
theorem settled_emit {top : Location} (hmode : run.mode = .write) (hwf : t.WellFormed)
    (hreal : t.lstat run.root = .ok (top, .directory))
    (hclean : t.stat (Path.clean run.root) = .ok (top, .directory))
    (hsuffix : run.options.suffix = EmitOptions.standard.suffix)
    (hexcluded : run.excluded = standardExcludes) (hmd : (run.collect t).metadata = some md)
    (hlink : ∀ a ∈ (run.emit t md).2.artifacts, ∀ loc target,
      t.lstat a.output ≠ .ok (loc, .link target)) :
    run.Settled md t (run.emitSources md t md.files).1 := by
  have hnodup : md.paths.Nodup := paths_nodup_collect hmd
  have hlink' : ∀ p ∈ md.paths, ∀ loc target, t.lstat (run.output p) ≠ .ok (loc, .link target) :=
    fun p hp => lstat_output_ne_link hnodup hlink hp
  have hwrites := emit_writes hwf hreal hclean (by rw [hsuffix]; decide) hmd hlink
  have hentry : ∀ inc exc ns, Pattern.readAll run.excluded = .ok exc →
      Discovery.isCandidate inc exc ns = true →
      FileTree.entry? (run.emitSources md t md.files).1 (top ++ ns) = t.entry? (top ++ ns) :=
    fun inc exc ns hexc hns =>
      entry?_of_isCandidate hwf hreal hclean hsuffix hmd hlink' hwrites (hexcluded ▸ hexc) hns
  have hreal' : (run.emitSources md t md.files).1.lstat run.root = .ok (top, .directory) :=
    hwrites.outline.locate (by simp) hreal
  have hfind : Discovery.find (run.emitSources md t md.files).1 run.root run.included run.excluded =
      Discovery.find t run.root run.included run.excluded := by
    obtain ⟨paths, hpaths, -⟩ := collect_metadata_eq_some hmd
    refine Discovery.find_congr hwf (wellFormed_emitSources hwf) hreal hclean hwrites.outline hpaths
      ?_
    intro inc exc ns hexc hns _
    rw [hentry inc exc ns hexc hns]
  have hload : ∀ paths, Discovery.find t run.root run.included run.excluded = .ok paths →
      ∀ p ∈ paths, (run.emitSources md t md.files).1.load p = t.load p := by
    intro paths hpaths p hp
    obtain ⟨inc, exc, dirs, n, hexc, hns, hbelow⟩ :=
      Discovery.exists_candidate_of_mem_find hwf hreal hclean hpaths hp
    have hroute := hbelow.route hwf hclean
    obtain ⟨content, hfile⟩ := hbelow.isFile
    have hnoLink : ∀ target, t.entry? (top ++ dirs ++ [n]) ≠ some (.link target) := by
      intro target
      rw [hfile]
      simp
    refine hroute.load_congr hwrites.outline (hroute.lstat_ne_link hnoLink) ?_
    rw [List.append_assoc]
    exact hentry inc exc (dirs ++ [n]) hexc hns
  have hsteady : ∀ f ∈ md.files, t.Steady (run.output f.1) := by
    intro f hf
    have hp : f.1 ∈ md.paths := List.mem_map_of_mem hf
    obtain ⟨dirs, n, hbelow⟩ := below_of_mem_paths hwf hreal hclean hmd hp
    exact (route_output hwf hclean hsuffix hbelow).steady (hlink' _ hp)
  rw [emission_emitSources hmode hsteady] at hwrites
  exact ⟨hfind, hload, collect_congr (FileTree.stat_of_lstat hreal) (FileTree.stat_of_lstat hreal')
    hfind hload, hsteady, hwrites⟩

/-! ## The runs after a run -/

theorem orphans_of_write (hmode : run.mode = .write) (md : Metadata) (t : FileTree) :
    run.orphans md t = {} := by
  rw [orphans, hmode]

theorem Settled.metadata (h : run.Settled md t t') (hmd : (run.collect t).metadata = some md) :
    (run.collect t').metadata = some md := by
  rw [h.collect]
  exact hmd

/-- A second write run returns the same and leaves the tree as it is. -/
theorem Settled.generate_again (h : run.Settled md t t') (hmode : run.mode = .write)
    (hmd : (run.collect t).metadata = some md) :
    run.generate t' = (t', (run.generate t).2) := by
  have hmd' := h.metadata hmd
  have hfirst : (run.emitSources md t md.files).2 = run.alone md t md.files :=
    emission_emitSources hmode h.steady
  have hsecond := emitSources_again hmode (paths_nodup_collect hmd) h.steady h.writes
  rw [generate_eq_of_some hmd', generate_eq_of_some hmd, emit_eq, emit_eq, hsecond, hfirst,
    h.collect, orphans_of_write hmode, orphans_of_write hmode]

/-- What a check after a write run says of one source. -/
theorem Settled.check_source (h : run.Settled md t t') (hmode : run.mode = .write)
    (hnodup : md.paths.Nodup) (hf : f ∈ md.files) :
    (∃ content, run.verdict md f = .ok content ∧
      (run.emitSource md t f.1 f.2).2.artifacts =
        [run.artifact f (Digest.ofContent content) .written] ∧
      (run.emitSource md t f.1 f.2).2.failures = [] ∧
      ((run.inMode .check).emitSource md t' f.1 f.2).2.artifacts =
        [run.artifact f (Digest.ofContent content) .upToDate] ∧
      ((run.inMode .check).emitSource md t' f.1 f.2).2.failures = []) ∨
    ((∀ a ∈ (run.emitSource md t f.1 f.2).2.artifacts, a.status ≠ .written) ∧
      (run.emitSource md t f.1 f.2).2.failures ≠ [] ∧
      ((run.inMode .check).emitSource md t' f.1 f.2).2.failures ≠ []) := by
  cases hv : run.verdict md f with
  | error e =>
    have hfail := failures_ne_nil_of_verdict hv
    refine .inr ⟨fun a ha hstatus => ?_, ?_, ?_⟩
    · rw [emitSource_of_error hv] at ha
      obtain ⟨b, hb, hexplained⟩ := explained_of_verdict hv
      rw [hb, List.mem_singleton] at ha
      exact hfail (hexplained.eq_nil_iff.mpr (.inl (ha ▸ hstatus)))
    · rw [emitSource_of_error hv]
      exact hfail
    · rw [emitSource_of_error ((run.verdict_inMode .check md f).trans hv)]
      exact hfail
  | ok content =>
    have hsame := h.steady f hf t' h.writes.outline
    rcases emitSource_write_of_ok (t := t) hmode hv with ⟨loc, hloc, -, hart, hfail⟩ |
      ⟨e, hloc, -, hart, hfail⟩
    · have hentry := h.writes.entry_of_verdict hmode hnodup hf hv hloc
      have hload := (FileTree.stat_of_writeLocation (hsame.trans hloc) hentry).2
      rcases emitSource_check_of_ok (t := t') hv with ⟨-, hart', hfail'⟩ | ⟨hne, -⟩
      · exact .inl ⟨content, rfl, hart, hfail, hart', hfail'⟩
      · exact absurd hload hne
    · rcases emitSource_check_of_ok (t := t') hv with ⟨hload, -⟩ | ⟨-, hfail'⟩
      · -- what could be read could have been written
        obtain ⟨loc, hloc', -⟩ := FileTree.writeLocation_of_load hload
        rw [hsame, hloc] at hloc'
        exact absurd hloc' (by simp)
      · refine .inr ⟨fun a ha => ?_, by simp [hfail], hfail'⟩
        rw [hart, List.mem_singleton] at ha
        rw [ha]
        simp [artifact]

/-- A check after a write run has no failure exactly if the write run had none and no output is left
over. -/
theorem Settled.check_failures (h : run.Settled md t t') (hmode : run.mode = .write)
    (hmd : (run.collect t).metadata = some md) :
    ((run.inMode .check).generate t').2.failures = [] ↔
      (run.generate t).2.failures = [] ∧ ∀ p ∈ md.unannotated, ¬ run.Orphaned md t' p := by
  have hmd' := metadata_inMode (h.metadata hmd) .check
  have hsources : ((run.inMode .check).alone md t' md.files).failures = [] ↔
      (run.alone md t md.files).failures = [] := by
    rw [failures_alone, failures_alone, List.flatMap_eq_nil_iff, List.flatMap_eq_nil_iff]
    refine forall₂_congr fun f hf => ?_
    rcases h.check_source hmode (paths_nodup_collect hmd) hf with
      ⟨-, -, -, hwrite, -, hcheck⟩ | ⟨-, hwrite, hcheck⟩
    · exact ⟨fun _ => hwrite, fun _ => hcheck⟩
    · exact ⟨fun hnil => absurd hnil hcheck, fun hnil => absurd hnil hwrite⟩
  have hleft : ((run.inMode .check).orphans md t').failures = [] ↔
      ∀ p ∈ md.unannotated, ¬ run.Orphaned md t' p := failures_orphans_eq_nil_iff rfl
  rw [failures_generate_of_some hmd', failures_generate_of_some hmd, collect_inMode, h.collect,
    emitSources_eq_alone (by simp [inMode]), emission_emitSources hmode h.steady,
    orphans_of_write hmode]
  simp only [List.append_eq_nil_iff, hsources, hleft]
  tauto

/-- What was written is up to date in a check after a write run. -/
theorem Settled.check_artifact (h : run.Settled md t t') (hmode : run.mode = .write)
    (hmd : (run.collect t).metadata = some md) {a : Artifact}
    (ha : a ∈ written (run.generate t).2) :
    ((run.inMode .check).generate t').2.artifacts.filter (fun b => b.source == a.source) =
      [{ a with status := .upToDate }] := by
  have hnodup := paths_nodup_collect hmd
  have hmd' := metadata_inMode (h.metadata hmd) .check
  rw [written, List.mem_filter, beq_iff_eq, (generate_of_some hmd).2,
    (run.artifacts_emit_perm_of_write t md hmode).mem_iff, emission_emitSources hmode h.steady,
    artifacts_alone, List.mem_flatMap] at ha
  obtain ⟨⟨f, hf, ha⟩, hstatus⟩ := ha
  rcases h.check_source hmode hnodup hf with ⟨content, -, hart, -, hart', -⟩ | ⟨hnot, -⟩
  · rw [hart, List.mem_singleton] at ha
    rw [ha, (generate_of_some hmd').2]
    obtain ⟨b, hb, -⟩ := (run.inMode .check).filter_artifacts_emit t' hnodup hf
    have hmem : run.artifact f (Digest.ofContent content) .upToDate ∈
        ((run.inMode .check).emit t' md).2.artifacts.filter (fun c => c.source == f.1) := by
      rw [List.mem_filter, ((run.inMode .check).artifacts_emit_perm t' md).mem_iff,
        List.mem_append, emitSources_eq_alone (by simp [inMode]), artifacts_alone]
      refine ⟨.inl (List.mem_flatMap.mpr ⟨f, hf, ?_⟩), beq_self_eq_true _⟩
      rw [hart']
      exact List.mem_singleton_self _
    rw [hb, List.mem_singleton] at hmem
    show ((run.inMode .check).emit t' md).2.artifacts.filter (fun c => c.source == f.1) = _
    rw [hb, ← hmem]
    rfl
  · exact absurd hstatus (hnot a ha)

/-- **Writing is idempotent, and a check agrees with it.**  A write run over a real directory, which
its cleaned path denotes too, with the standard suffix and the standard excluded patterns and no
link among its outputs, changes neither the files that are discovered nor their contents, so that a
second write run returns the same and leaves the tree as it is.  A check after it finds every
artifact that was written up to date, with the same digest; and it has no failure exactly if the
write run had none and no file without records has left its output behind. -/
theorem generate_twice (run : Run) (t : FileTree) (top : Location) (hmode : run.mode = .write)
    (hwf : t.WellFormed) (hreal : t.lstat run.root = .ok (top, .directory))
    (hclean : t.stat (Path.clean run.root) = .ok (top, .directory))
    (hsuffix : run.options.suffix = EmitOptions.standard.suffix)
    (hexcluded : run.excluded = standardExcludes)
    (hlink : ∀ a ∈ (run.generate t).2.artifacts, ∀ loc target,
      t.lstat a.output ≠ .ok (loc, .link target)) :
    (Discovery.find (run.generate t).1 run.root run.included run.excluded =
        Discovery.find t run.root run.included run.excluded ∧
      (∀ paths, Discovery.find t run.root run.included run.excluded = .ok paths →
        ∀ p ∈ paths, (run.generate t).1.load p = t.load p) ∧
      run.generate (run.generate t).1 = ((run.generate t).1, (run.generate t).2)) ∧
    (∀ a ∈ written (run.generate t).2,
      ((run.inMode .check).generate (run.generate t).1).2.artifacts.filter
        (fun b => b.source == a.source) = [{ a with status := .upToDate }]) ∧
    (((run.inMode .check).generate (run.generate t).1).2.failures = [] ↔
      (run.generate t).2.failures = [] ∧
        ∀ md, (run.collect t).metadata = some md →
          ∀ p ∈ md.unannotated, ¬ run.Orphaned md (run.generate t).1 p) := by
  cases hmd : (run.collect t).metadata with
  | none =>
    obtain ⟨htree, hart⟩ := generate_of_none hmd
    have hcheck := generate_inMode_of_none hmd .check
    have hwrite := generate_inMode_of_none hmd run.mode
    rw [inMode_self] at hwrite
    rw [written, hart, htree]
    refine ⟨⟨rfl, fun _ _ _ _ => rfl, by rw [hwrite]⟩, fun a ha => absurd ha List.not_mem_nil, ?_⟩
    rw [hcheck, hwrite]
    simp
  | some md =>
    obtain ⟨htree, hart⟩ := generate_of_some hmd
    rw [hart] at hlink
    have hsettled := settled_emit hmode hwf hreal hclean hsuffix hexcluded hmd hlink
    rw [← htree] at hsettled
    refine ⟨⟨hsettled.find, hsettled.load, hsettled.generate_again hmode hmd⟩,
      fun a ha => hsettled.check_artifact hmode hmd ha, ?_⟩
    rw [hsettled.check_failures hmode hmd]
    simp

/-- A directory with a source whose name has no stem, a source in a directory below, and a file
without records whose output is left over. -/
def hiddenTree : FileTree where
  entries := [
    ([lit "src"], .directory),
    ([lit "src", lit ".h"], .file (sourceText (lit "A"))),
    ([lit "src", lit "b"], .directory),
    ([lit "src", lit "b", lit "b.h"], .file (sourceText (lit "B"))),
    ([lit "src", lit "c.h"], .file []),
    ([lit "src", lit "c_reflection.cpp"], .file [])]
  workdir := []

/-- A run over that directory. -/
def hiddenRun : Run := writeRun (lit "src") standardIncludes

/-- The record set of that run. -/
def hiddenMetadata : Metadata where
  root := lit "src"
  files := [(lit "src/.h", [{ name := lit "A", members := [], line := 2 }]),
    (lit "src/b/b.h", [{ name := lit "B", members := [], line := 2 }])]
  unannotated := [lit "src/c.h"]

theorem metadata_hiddenRun : (hiddenRun.collect hiddenTree).metadata = some hiddenMetadata := by
  have hreal : hiddenTree.lstat hiddenRun.root = .ok ([lit "src"], .directory) := by decide +kernel
  have hpaths : (hiddenRun.scanFiles hiddenTree [lit "src/.h", lit "src/b/b.h", lit "src/c.h"]
      (Metadata.empty hiddenRun.root)).1 = hiddenMetadata := by
    decide +kernel
  rw [← hpaths]
  refine collect_of_sorted hreal ?_ ?_ ?_ ?_
  all_goals decide +kernel

/-- Both outputs are written and stay as they are in a second run; a check finds them up to date,
and reports only the output that is left over. -/
theorem hiddenRun_generate_twice :
    hiddenRun.mode = .write ∧ hiddenTree.WellFormed ∧
      hiddenTree.lstat hiddenRun.root = .ok ([lit "src"], .directory) ∧
      hiddenTree.stat (Path.clean hiddenRun.root) = .ok ([lit "src"], .directory) ∧
      hiddenRun.options.suffix = EmitOptions.standard.suffix ∧
      hiddenRun.excluded = standardExcludes ∧
      (∀ a ∈ (hiddenRun.generate hiddenTree).2.artifacts, ∀ loc target,
        hiddenTree.lstat a.output ≠ .ok (loc, .link target)) ∧
      (written (hiddenRun.generate hiddenTree).2).length = 2 ∧
      hiddenRun.generate (hiddenRun.generate hiddenTree).1 =
        ((hiddenRun.generate hiddenTree).1, (hiddenRun.generate hiddenTree).2) ∧
      (∀ a ∈ written (hiddenRun.generate hiddenTree).2,
        ((hiddenRun.inMode .check).generate (hiddenRun.generate hiddenTree).1).2.artifacts.filter
          (fun b => b.source == a.source) = [{ a with status := .upToDate }]) ∧
      ((hiddenRun.inMode .check).generate (hiddenRun.generate hiddenTree).1).2.failures ≠ [] := by
  have hwf : hiddenTree.WellFormed := by decide +kernel
  have hreal : hiddenTree.lstat hiddenRun.root = .ok ([lit "src"], .directory) := by decide +kernel
  have hclean : hiddenTree.stat (Path.clean hiddenRun.root) = .ok ([lit "src"], .directory) := by
    decide +kernel
  have hlink := output_ne_link_of_free rfl metadata_hiddenRun (by decide +kernel)
  obtain ⟨⟨-, -, hagain⟩, hcurrent, hcheck⟩ := generate_twice hiddenRun hiddenTree [lit "src"] rfl
    hwf hreal hclean rfl rfl hlink
  refine ⟨rfl, hwf, hreal, hclean, rfl, rfl, hlink, ?_, hagain, hcurrent, fun hnil => ?_⟩
  · have hperm := hiddenRun.artifacts_emit_perm_of_write hiddenTree hiddenMetadata rfl
    rw [written, (generate_of_some metadata_hiddenRun).2, (hperm.filter _).length_eq]
    decide +kernel
  · refine (hcheck.mp hnil).2 hiddenMetadata metadata_hiddenRun (lit "src/c.h")
      (by decide +kernel) ?_
    rw [(generate_of_some metadata_hiddenRun).1, ← isSome_orphan?_iff]
    decide +kernel

/-- The directory `x/d` is found under the path `link/../d`, but the cleaned path `d` denotes
another directory, in which the name of a source leads to an output. -/
def looseTree : FileTree where
  entries := [
    ([lit "x"], .directory), ([lit "x", lit "y"], .directory),
    ([lit "link"], .link (lit "x/y")),
    ([lit "x", lit "d"], .directory),
    ([lit "x", lit "d", lit "bar.h"], .file []), ([lit "x", lit "d", lit "foo.h"], .file []),
    ([lit "d"], .directory),
    ([lit "d", lit "bar.h"], .file (sourceText (lit "A"))),
    ([lit "d", lit "bar_reflection.cpp"], .file (sourceText (lit "B"))),
    ([lit "d", lit "foo.h"], .link (lit "bar_reflection.cpp"))]
  workdir := []

/-- A run over that directory. -/
def looseRun : Run := writeRun (lit "link/../d") standardIncludes

/-- The record set of the first run: there is a type in the output that is found as a source. -/
def looseMetadata : Metadata where
  root := lit "link/../d"
  files := [(lit "d/bar.h", [{ name := lit "A", members := [], line := 2 }]),
    (lit "d/foo.h", [{ name := lit "B", members := [], line := 2 }])]
  unannotated := []

/-- The tree after the first run. -/
def looseResult : FileTree := (looseRun.emitSources looseMetadata looseTree looseMetadata.files).1

/-- The record set of the second run. -/
def looseMetadata' : Metadata where
  root := lit "link/../d"
  files := [(lit "d/bar.h", [{ name := lit "A", members := [], line := 2 }])]
  unannotated := [lit "d/foo.h"]

theorem find_looseRun {t : FileTree} (h : t = looseTree ∨ t = looseResult) :
    t.lstat looseRun.root = .ok ([lit "x", lit "d"], .directory) ∧
      Discovery.find t looseRun.root looseRun.included looseRun.excluded =
        .ok [lit "d/bar.h", lit "d/foo.h"] := by
  have hreal : t.lstat looseRun.root = .ok ([lit "x", lit "d"], .directory) := by
    rcases h with rfl | rfl
    all_goals decide +kernel
  refine ⟨hreal, Discovery.find_of_sorted (by decide +kernel) (by decide +kernel) hreal ?_ ?_⟩
  · rcases h with rfl | rfl
    all_goals decide +kernel
  · decide +kernel

/-- What both runs find. -/
theorem metadata_looseRun : (looseRun.collect looseTree).metadata = some looseMetadata ∧
    (looseRun.collect looseResult).metadata = some looseMetadata' := by
  obtain ⟨hreal, hfind⟩ := find_looseRun (.inl rfl)
  obtain ⟨hreal', hfind'⟩ := find_looseRun (.inr rfl)
  rw [collect_of_find (FileTree.stat_of_lstat hreal) hfind,
    collect_of_find (FileTree.stat_of_lstat hreal') hfind']
  decide +kernel

/-- In the loose tree the root is a real directory and no output is a link, but the first run
replaces the content of a discovered file, and the second one has fewer artifacts. -/
theorem looseRun_differs :
    looseRun.mode = .write ∧ looseTree.WellFormed ∧
      looseTree.lstat looseRun.root = .ok ([lit "x", lit "d"], .directory) ∧
      looseRun.options.suffix = EmitOptions.standard.suffix ∧
      looseRun.excluded = standardExcludes ∧
      (∀ a ∈ (looseRun.generate looseTree).2.artifacts, ∀ loc target,
        looseTree.lstat a.output ≠ .ok (loc, .link target)) ∧
      (∃ paths, Discovery.find looseTree looseRun.root looseRun.included looseRun.excluded =
        .ok paths ∧ ∃ p ∈ paths, (looseRun.generate looseTree).1.load p ≠ looseTree.load p) ∧
      (looseRun.generate (looseRun.generate looseTree).1).2.artifacts ≠
        (looseRun.generate looseTree).2.artifacts := by
  obtain ⟨hreal, hfind⟩ := find_looseRun (.inl rfl)
  obtain ⟨hmd, hmd'⟩ := metadata_looseRun
  have htree : (looseRun.generate looseTree).1 = looseResult := (generate_of_some hmd).1
  refine ⟨rfl, by decide +kernel, hreal, rfl, rfl,
    output_ne_link_of_free rfl hmd (by decide +kernel),
    ⟨_, hfind, lit "d/foo.h", by decide +kernel, ?_⟩, fun heq => ?_⟩
  · rw [htree]
    decide +kernel
  · have hlength := congrArg List.length heq
    have hperm := looseRun.artifacts_emit_perm_of_write looseTree looseMetadata rfl
    have hperm' := looseRun.artifacts_emit_perm_of_write looseResult looseMetadata' rfl
    rw [htree, (generate_of_some hmd').2, (generate_of_some hmd).2, hperm.length_eq,
      hperm'.length_eq] at hlength
    revert hlength
    decide +kernel

end Run

end ReflectGen

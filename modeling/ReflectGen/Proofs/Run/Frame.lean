import ReflectGen.Proofs.Discovery
import ReflectGen.Proofs.FileTree.WellFormed
import ReflectGen.Proofs.Run.Collect
import ReflectGen.Proofs.Run.Emit

/-!
# What a run writes

A write run stores one file for each source that it does not refuse.  Directories and links stay as
they are, so every output goes to the location it had before the run; and when different outputs
have different locations, no output is overwritten by a later one.

Outputs are named after sources, and sources after the cleaned path of the root directory.  Below a
directory that this path denotes, different outputs have different locations.  Where the path of the
root passes a link and goes up again, the cleaned path may denote another directory, and there two
outputs can be one file (`Run.aliasedTree`).

* `FileTree.Separates`: different paths are written to different locations.
* `Run.emitSource_write`: what one source does to the tree.
* `Run.Writes`: what several sources do to the tree, one after the other (`Run.emitSources_writes`).
* `Run.separates_outputs`: when the outputs of a run have different locations.
* `Run.generate_writes_only_outputs`: what a whole run does to the tree.
-/

namespace ReflectGen

/-- Different paths of the list are written to different locations. -/
def FileTree.Separates (t : FileTree) (paths : List Text) : Prop :=
  ∀ p ∈ paths, ∀ q ∈ paths, ∀ loc,
    t.writeLocation p = .ok loc → t.writeLocation q = .ok loc → p = q

theorem FileTree.Separates.congr {t t' : FileTree} (h : t.SameOutline t') {paths : List Text}
    (hsep : t.Separates paths) : t'.Separates paths := by
  intro p hp q hq loc hploc hqloc
  exact hsep p hp q hq loc ((writeLocation_congr h).mpr hploc) ((writeLocation_congr h).mpr hqloc)

namespace Run

/-! ## One source -/

/-- The rendered text of a file was stored at the location of its output. -/
def Stored (run : Run) (md : Metadata) (t : FileTree) (f : Text × List TypeRecord)
    (loc : Location) (content : Text) : Prop :=
  ¬ run.Collides md f.1 ∧ render run.version f.1 f.2 run.options = .ok content ∧
    t.writeLocation (run.output f.1) = .ok loc

/-- A source leaves the tree alone, or its rendered text is stored and the artifact says so. -/
theorem emitSource_write (run : Run) (md : Metadata) (t : FileTree) (f : Text × List TypeRecord) :
    ∃ a, (run.emitSource md t f.1 f.2).2.artifacts = [a] ∧ a.source = f.1 ∧
      a.output = run.output f.1 ∧
      ((a.status ≠ .written ∧ (run.emitSource md t f.1 f.2).1 = t) ∨
        (run.mode = .write ∧ a.status = .written ∧ ∃ loc content, run.Stored md t f loc content ∧
          (run.emitSource md t f.1 f.2).1 = t.put loc (.file content))) := by
  rcases run.emitSource_cases md t f with ⟨-, _, e⟩ | ⟨-, -, _, e⟩ | ⟨-, -, _, -, e⟩ |
    ⟨hc, -, content, hr, e⟩
  · rw [e]
    exact ⟨_, rfl, rfl, rfl, .inl ⟨by simp [artifact], rfl⟩⟩
  · rw [e]
    exact ⟨_, rfl, rfl, rfl, .inl ⟨by simp [artifact], rfl⟩⟩
  · rw [e]
    exact ⟨_, rfl, rfl, rfl, .inl ⟨by simp [artifact], rfl⟩⟩
  · rw [e]
    unfold deliver
    cases hmode : run.mode with
    | dryRun => exact ⟨_, rfl, rfl, rfl, .inl ⟨by simp, rfl⟩⟩
    | check =>
      unfold checkOutput
      dsimp only
      split
      · exact ⟨_, rfl, rfl, rfl, .inl ⟨by simp, rfl⟩⟩
      · exact ⟨_, rfl, rfl, rfl, .inl ⟨by simp, rfl⟩⟩
    | write =>
      unfold writeOutput FileTree.storeAt
      dsimp only
      cases hloc : t.writeLocation (run.artifact f (Digest.ofContent content) .failed).output with
      | error err => exact ⟨_, rfl, rfl, rfl, .inl ⟨by simp, rfl⟩⟩
      | ok loc => exact ⟨_, rfl, rfl, rfl, .inr ⟨rfl, rfl, loc, content, ⟨hc, hr, hloc⟩, rfl⟩⟩

/-! ## All sources -/

/-- What emission has done to a tree: directories and links are the same, another entry has changed
only where a written output goes, and each written output holds the text that was rendered for its
own file. -/
structure Writes (run : Run) (md : Metadata) (t t' : FileTree)
    (files : List (Text × List TypeRecord)) (artifacts : List Artifact) : Prop where
  outline : t.SameOutline t'
  frame : ∀ loc, t'.entry? loc ≠ t.entry? loc →
    ∃ a ∈ artifacts, a.status = .written ∧ t.writeLocation a.output = .ok loc
  content : ∀ a ∈ artifacts, a.status = .written →
    ∃ f ∈ files, a.source = f.1 ∧ a.output = run.output f.1 ∧
      ∃ loc content, run.Stored md t f loc content ∧ t'.entry? loc = some (.file content)

variable {run : Run} {md : Metadata} {t t' : FileTree} {f : Text × List TypeRecord}
  {files : List (Text × List TypeRecord)} {a : Artifact} {artifacts : List Artifact}

theorem Stored.congr (h : t.SameOutline t') {loc : Location} {content : Text}
    (hs : run.Stored md t' f loc content) : run.Stored md t f loc content :=
  ⟨hs.1, hs.2.1, (FileTree.writeLocation_congr h).mpr hs.2.2⟩

/-- A source in front that leaves the tree alone. -/
theorem Writes.cons_unwritten (h : run.Writes md t t' files artifacts)
    (ha : a.status ≠ .written) : run.Writes md t t' (f :: files) (a :: artifacts) := by
  refine ⟨h.outline, fun loc hloc => ?_, fun b hb hstatus => ?_⟩
  · obtain ⟨b, hb, hwritten⟩ := h.frame loc hloc
    exact ⟨b, List.mem_cons_of_mem a hb, hwritten⟩
  · rcases List.mem_cons.mp hb with rfl | hb
    · exact absurd hstatus ha
    · obtain ⟨g, hg, hrest⟩ := h.content b hb hstatus
      exact ⟨g, List.mem_cons_of_mem f hg, hrest⟩

/-- A source in front that is stored: no later source goes to the same location, since it would
have the same output path. -/
theorem Writes.cons_written {loc : Location} {content : Text}
    (h : run.Writes md (t.put loc (.file content)) t' files artifacts)
    (hnodup : md.paths.Nodup) (hfiles : ∀ g ∈ f :: files, g ∈ md.files) (hnew : f ∉ files)
    (hsep : t.Separates ((f :: files).map fun g => run.output g.1))
    (hstored : run.Stored md t f loc content) (hsource : a.source = f.1)
    (houtput : a.output = run.output f.1) (hstatus : a.status = .written) :
    run.Writes md t t' (f :: files) (a :: artifacts) := by
  have houtline := FileTree.sameOutline_put hstored.2.2 content
  have hself := FileTree.entry?_put_self t (FileTree.outline_of_writeLocation hstored.2.2).1
    (.file content)
  refine ⟨houtline.trans h.outline, fun other hother => ?_, fun b hb hwritten => ?_⟩
  · by_cases heq : other = loc
    · refine ⟨a, List.mem_cons_self, hstatus, ?_⟩
      rw [houtput, heq]
      exact hstored.2.2
    · rw [← FileTree.entry?_put_of_ne t (.file content) heq] at hother
      obtain ⟨b, hb, hwritten, hloc⟩ := h.frame other hother
      exact ⟨b, List.mem_cons_of_mem a hb, hwritten,
        (FileTree.writeLocation_congr houtline).mpr hloc⟩
  · rcases List.mem_cons.mp hb with rfl | hb
    · refine ⟨f, List.mem_cons_self, hsource, houtput, loc, content, hstored, ?_⟩
      by_contra hlost
      rw [← hself] at hlost
      obtain ⟨b', hb', hwritten', hloc⟩ := h.frame loc hlost
      obtain ⟨g, hg, -, hout, -⟩ := h.content b' hb' hwritten'
      rw [hout] at hloc
      have hsame := hsep _ (List.mem_map_of_mem List.mem_cons_self) _
        (List.mem_map_of_mem (List.mem_cons_of_mem f hg)) loc hstored.2.2
        ((FileTree.writeLocation_congr houtline).mpr hloc)
      have hfg := eq_of_output_eq hnodup (hfiles f List.mem_cons_self)
        (hfiles g (List.mem_cons_of_mem f hg)) hstored.1 hsame
      exact hnew (hfg ▸ hg)
    · obtain ⟨g, hg, hsource', hout, other, content', hstored', hentry⟩ := h.content b hb hwritten
      exact ⟨g, List.mem_cons_of_mem f hg, hsource', hout, other, content',
        hstored'.congr houtline, hentry⟩

/-- Emission of files that stand once each in a record set, with outputs at different locations. -/
theorem emitSources_writes (hnodup : md.paths.Nodup) : ∀ {files : List (Text × List TypeRecord)}
    {t : FileTree}, (∀ f ∈ files, f ∈ md.files) → files.Nodup →
    t.Separates (files.map fun f => run.output f.1) →
    run.Writes md t (run.emitSources md t files).1 files
      (run.emitSources md t files).2.artifacts := by
  intro files
  induction files with
  | nil =>
    intro t _ _ _
    exact ⟨.refl t, fun loc h => absurd rfl h, fun a ha => absurd ha List.not_mem_nil⟩
  | cons f files ih =>
    intro t hfiles hdistinct hsep
    rw [List.nodup_cons] at hdistinct
    have hfiles' : ∀ g ∈ files, g ∈ md.files := fun g hg => hfiles g (List.mem_cons_of_mem f hg)
    have hsep' : t.Separates (files.map fun g => run.output g.1) := fun p hp q hq =>
      hsep p (List.mem_cons_of_mem _ hp) q (List.mem_cons_of_mem _ hq)
    obtain ⟨a, ha, hsource, houtput, hstep⟩ := run.emitSource_write md t f
    show run.Writes md t (run.emitSources md (run.emitSource md t f.1 f.2).1 files).1 (f :: files)
      ((run.emitSource md t f.1 f.2).2.artifacts ++
        (run.emitSources md (run.emitSource md t f.1 f.2).1 files).2.artifacts)
    rw [ha]
    rcases hstep with ⟨hstatus, htree⟩ | ⟨-, hstatus, loc, content, hstored, htree⟩
    · rw [htree]
      exact (ih hfiles' hdistinct.2 hsep').cons_unwritten hstatus
    · rw [htree]
      have houtline := FileTree.sameOutline_put hstored.2.2 content
      exact (ih hfiles' hdistinct.2 (hsep'.congr houtline)).cons_written hnodup hfiles hdistinct.1
        hsep hstored hsource houtput hstatus

/-- Only a write run changes the tree. -/
theorem emitSources_tree (hmode : run.mode ≠ .write) : ∀ t : FileTree,
    (run.emitSources md t files).1 = t := by
  induction files with
  | nil => exact fun t => rfl
  | cons f files ih =>
    intro t
    obtain ⟨a, -, -, -, hstep⟩ := run.emitSource_write md t f
    show (run.emitSources md (run.emitSource md t f.1 f.2).1 files).1 = t
    rcases hstep with ⟨-, htree⟩ | ⟨hwrite, -⟩
    · rw [htree]
      exact ih t
    · exact absurd hwrite hmode

/-- Emission keeps a tree well-formed. -/
theorem wellFormed_emitSources : ∀ {t : FileTree}, t.WellFormed →
    (run.emitSources md t files).1.WellFormed := by
  induction files with
  | nil => exact fun h => h
  | cons f files ih =>
    intro t hwf
    obtain ⟨a, -, -, -, hstep⟩ := run.emitSource_write md t f
    show (run.emitSources md (run.emitSource md t f.1 f.2).1 files).1.WellFormed
    rcases hstep with ⟨-, htree⟩ | ⟨-, -, loc, content, hstored, htree⟩
    · rw [htree]
      exact ih hwf
    · rw [htree]
      exact ih (hwf.put (FileTree.place_of_writeLocation hwf hstored.2.2) (.file content))

/-! ## A whole run -/

/-- The artifacts that were written. -/
def written (e : Emission) : List Artifact := e.artifacts.filter (·.status == .written)

theorem generate_of_none (h : (run.collect t).metadata = none) :
    (run.generate t).1 = t ∧ (run.generate t).2.artifacts = [] := by
  unfold generate generateWith
  dsimp only
  rw [h]
  exact ⟨rfl, rfl⟩

theorem generate_of_some (h : (run.collect t).metadata = some md) :
    (run.generate t).1 = (run.emitSources md t md.files).1 ∧
      (run.generate t).2.artifacts = (run.emit t md).2.artifacts := by
  unfold generate generateWith
  dsimp only
  rw [h]
  exact ⟨rfl, rfl⟩

/-- A run keeps a tree well-formed. -/
theorem wellFormed_generate (run : Run) (hwf : t.WellFormed) : (run.generate t).1.WellFormed := by
  cases hmd : (run.collect t).metadata with
  | none =>
    rw [(generate_of_none hmd).1]
    exact hwf
  | some md =>
    rw [(generate_of_some hmd).1]
    exact wellFormed_emitSources hwf

/-- A write run does not look for outputs that are left over. -/
theorem artifacts_emit_perm_of_write (run : Run) (t : FileTree) (md : Metadata)
    (hmode : run.mode = .write) :
    (run.emit t md).2.artifacts.Perm (run.emitSources md t md.files).2.artifacts := by
  have hperm := run.artifacts_emit_perm t md
  rwa [orphans, hmode, List.append_nil] at hperm

/-- The output of a discovered file lies in the directory of the file. -/
theorem output_of_below {top : Location} {root path : Text} {dirs : List Text} {n : Text}
    (h : Discovery.Below t root top path dirs n) :
    run.output path = Path.dirText (Path.isAbsolute root) (Path.components root ++ dirs) ++
      (stem n ++ run.options.suffix) := by
  rw [output, outputPath_eq, h.split, List.append_assoc]

/-- The outputs of files below a real directory go to different locations. -/
theorem separates_outputs {top : Location} (hwf : t.WellFormed)
    (hclean : t.stat (Path.clean run.root) = .ok (top, .directory))
    (hsuffix : Path.slash ∉ run.options.suffix) {sources : List Text}
    (hbelow : ∀ p ∈ sources, ∃ dirs n, Discovery.Below t run.root top p dirs n)
    (hlink : ∀ p ∈ sources, ∀ loc target, t.lstat (run.output p) ≠ .ok (loc, .link target)) :
    t.Separates (sources.map run.output) := by
  have hplace : ∀ p ∈ sources, ∀ loc, t.writeLocation (run.output p) = .ok loc →
      ∃ dirs k, run.output p =
          Path.dirText (Path.isAbsolute run.root) (Path.components run.root ++ dirs) ++ k ∧
        loc = top ++ dirs ++ [k] := by
    intro p hp loc hloc
    obtain ⟨dirs, n, hb⟩ := hbelow p hp
    have hk : Path.slash ∉ stem n ++ run.options.suffix := by
      rw [List.mem_append, not_or]
      exact ⟨slash_notMem_stem hb.isName.slash_notMem, hsuffix⟩
    exact ⟨dirs, stem n ++ run.options.suffix, output_of_below hb,
      FileTree.writeLocation_below hclean hb.isName_dirs (hb.directories hwf) hk
        (output_of_below hb) (hlink p hp) hloc⟩
  intro o ho o' ho' loc hloc hloc'
  obtain ⟨p, hp, rfl⟩ := List.mem_map.mp ho
  obtain ⟨q, hq, rfl⟩ := List.mem_map.mp ho'
  obtain ⟨dirs, k, hout, hl⟩ := hplace p hp loc hloc
  obtain ⟨dirs', k', hout', hl'⟩ := hplace q hq loc hloc'
  obtain ⟨hdirs, hk⟩ := List.append_inj' (hl.symm.trans hl') rfl
  rw [hout, hout', List.append_cancel_left hdirs, List.singleton_inj.mp hk]

/-- A file with records lies below the root directory. -/
theorem below_of_mem_paths {top : Location} (hwf : t.WellFormed)
    (hreal : t.lstat run.root = .ok (top, .directory))
    (hclean : t.stat (Path.clean run.root) = .ok (top, .directory))
    (hmd : (run.collect t).metadata = some md) {p : Text} (hp : p ∈ md.paths) :
    ∃ dirs n, Discovery.Below t run.root top p dirs n := by
  obtain ⟨f, hf, rfl⟩ := List.mem_map.mp hp
  obtain ⟨⟨paths, hfind, hpath⟩, -⟩ :=
    mem_files_collect hmd (fun paths h => Discovery.nodup_of_find hwf h) hf
  exact Discovery.below_of_mem_find hwf hreal hclean hfind hpath

/-- The outputs of the files with records are those of artifacts. -/
theorem lstat_output_ne_link (hnodup : md.paths.Nodup)
    (hlink : ∀ a ∈ (run.emit t md).2.artifacts, ∀ loc target,
      t.lstat a.output ≠ .ok (loc, .link target)) {p : Text} (hp : p ∈ md.paths) :
    ∀ loc target, t.lstat (run.output p) ≠ .ok (loc, .link target) := by
  obtain ⟨f, hf, rfl⟩ := List.mem_map.mp hp
  obtain ⟨a, ha, hfate⟩ := run.filter_artifacts_emit t hnodup hf
  have hmem : a ∈ (run.emit t md).2.artifacts := by
    have hsingle : a ∈ [a] := List.mem_singleton_self a
    rw [← ha] at hsingle
    exact (List.mem_filter.mp hsingle).1
  rw [← hfate.output]
  exact hlink a hmem

/-- What a write run over a real directory does to the tree, whatever becomes of its sources. -/
theorem emit_writes {top : Location} (hwf : t.WellFormed)
    (hreal : t.lstat run.root = .ok (top, .directory))
    (hclean : t.stat (Path.clean run.root) = .ok (top, .directory))
    (hsuffix : Path.slash ∉ run.options.suffix) (hmd : (run.collect t).metadata = some md)
    (hlink : ∀ a ∈ (run.emit t md).2.artifacts, ∀ loc target,
      t.lstat a.output ≠ .ok (loc, .link target)) :
    run.Writes md t (run.emitSources md t md.files).1 md.files
      (run.emitSources md t md.files).2.artifacts := by
  have hnodup : md.paths.Nodup := paths_nodup_collect hmd
  have hsep := separates_outputs hwf hclean hsuffix
    (fun p hp => below_of_mem_paths hwf hreal hclean hmd hp)
    (fun p hp => lstat_output_ne_link hnodup hlink hp)
  rw [Metadata.paths, List.map_map] at hsep
  exact emitSources_writes hnodup (fun f hf => hf) (List.Nodup.of_map Prod.fst hnodup) hsep

/-- What is read through a written output in the end. -/
theorem Writes.read (h : run.Writes md t t' files artifacts) (ha : a ∈ artifacts)
    (hstatus : a.status = .written) :
    ∃ f ∈ files, a.source = f.1 ∧ ∃ loc content, t.writeLocation a.output = .ok loc ∧
      render run.version f.1 f.2 run.options = .ok content ∧
      t'.stat a.output = .ok (loc, .file content) ∧ t'.load a.output = .ok content := by
  obtain ⟨f, hf, hsource, hout, loc, content, ⟨-, hrender, hloc⟩, hentry⟩ := h.content a ha hstatus
  rw [← hout] at hloc
  obtain ⟨hstat, hload⟩ :=
    FileTree.stat_of_writeLocation ((FileTree.writeLocation_congr h.outline).mp hloc) hentry
  exact ⟨f, hf, hsource, loc, content, hloc, hrender, hstat, hload⟩

/-- The outputs that were written are different. -/
theorem Writes.nodup_output (h : run.Writes md t t' md.files artifacts) (hnodup : md.paths.Nodup)
    (hsources : (artifacts.map Artifact.source).Nodup) :
    ((artifacts.filter (·.status == .written)).map Artifact.output).Nodup := by
  have hdistinct : (artifacts.filter (·.status == .written)).Nodup :=
    (List.Nodup.of_map _ hsources).filter _
  refine hdistinct.map_on fun a ha b hb hout => ?_
  rw [List.mem_filter, beq_iff_eq] at ha hb
  obtain ⟨f, hf, hsource, hfout, _, _, hstored, -⟩ := h.content a ha.1 ha.2
  obtain ⟨g, hg, hsource', hgout, -⟩ := h.content b hb.1 hb.2
  have hfg : f = g := by
    refine eq_of_output_eq hnodup hf hg hstored.1 ?_
    rw [← hfout, ← hgout, hout]
  refine List.inj_on_of_nodup_map hsources ha.1 hb.1 ?_
  rw [hsource, hsource', hfg]

/-- **A run writes its outputs and nothing else.**  A write run over a real directory, which its
cleaned path denotes too, with a suffix without a slash and no link among its outputs, leaves all
directories and links alone; another entry changes only where the output of a written artifact is;
these outputs are pairwise distinct; and each holds the text rendered for its own source from the
records that the source had before the run.  In the other modes the tree stays the same. -/
theorem generate_writes_only_outputs (run : Run) (t : FileTree) :
    (∀ top, run.mode = .write → t.WellFormed →
      t.lstat run.root = .ok (top, .directory) →
      t.stat (Path.clean run.root) = .ok (top, .directory) →
      Path.slash ∉ run.options.suffix →
      (∀ a ∈ (run.generate t).2.artifacts, ∀ loc target,
        t.lstat a.output ≠ .ok (loc, .link target)) →
      t.SameOutline (run.generate t).1 ∧
      (∀ loc, FileTree.entry? (run.generate t).1 loc ≠ t.entry? loc →
        ∃ a ∈ written (run.generate t).2, ∃ content,
          (run.generate t).1.stat a.output = .ok (loc, .file content)) ∧
      ((written (run.generate t).2).map Artifact.output).Nodup ∧
      ∀ a ∈ written (run.generate t).2, ∃ text content, t.load a.source = .ok text ∧
        (Scan.run run.tokens a.source text).failures a.source = [] ∧
        render run.version a.source (Scan.run run.tokens a.source text).records run.options =
          .ok content ∧
        (run.generate t).1.load a.output = .ok content) ∧
    (run.mode ≠ .write → (run.generate t).1 = t) := by
  cases hmd : (run.collect t).metadata with
  | none =>
    obtain ⟨htree, hart⟩ := generate_of_none hmd
    rw [htree, written, hart]
    refine ⟨fun top _ _ _ _ _ _ => ?_, fun _ => rfl⟩
    exact ⟨.refl t, fun loc h => absurd rfl h, List.nodup_nil,
      fun a ha => absurd ha List.not_mem_nil⟩
  | some md =>
    obtain ⟨htree, hart⟩ := generate_of_some hmd
    rw [htree, written, hart]
    refine ⟨fun top hmode hwf hreal hclean hsuffix hlink => ?_,
      fun hmode => emitSources_tree hmode t⟩
    have hwrites := emit_writes hwf hreal hclean hsuffix hmd hlink
    have hperm := run.artifacts_emit_perm_of_write t md hmode
    have hnodup := paths_nodup_collect hmd
    refine ⟨hwrites.outline, fun loc hloc => ?_, ?_, fun a ha => ?_⟩
    · obtain ⟨a, ha, hstatus, hwrite⟩ := hwrites.frame loc hloc
      obtain ⟨-, -, -, loc', content, hloc', -, hstat, -⟩ := hwrites.read ha hstatus
      have heq : loc' = loc := Except.ok.inj (hloc'.symm.trans hwrite)
      refine ⟨a, List.mem_filter.mpr ⟨hperm.mem_iff.mpr ha, beq_iff_eq.mpr hstatus⟩, content, ?_⟩
      rw [← heq]
      exact hstat
    · rw [((hperm.filter _).map _).nodup_iff]
      refine hwrites.nodup_output hnodup ?_
      rw [map_source_emitSources]
      exact hnodup
    · rw [List.mem_filter, beq_iff_eq, hperm.mem_iff] at ha
      obtain ⟨f, hf, hsource, loc, content, -, hrender, -, hload⟩ := hwrites.read ha.1 ha.2
      obtain ⟨-, text, htext, hfailures, hrecords⟩ :=
        mem_files_collect hmd (fun paths h => Discovery.nodup_of_find hwf h) hf
      rw [hrecords] at hrender
      rw [hsource]
      exact ⟨text, content, htext, hfailures, hrender, hload⟩

/-- There is no link among the outputs of a run if each of them is a file or a free place. -/
theorem output_ne_link_of_free (hmode : run.mode = .write)
    (hmd : (run.collect t).metadata = some md)
    (h : ∀ a ∈ (run.emitSources md t md.files).2.artifacts,
      Entry.outline? ((t.lstat a.output).toOption.map Prod.snd) = none) :
    ∀ a ∈ (run.generate t).2.artifacts, ∀ loc target,
      t.lstat a.output ≠ .ok (loc, .link target) := by
  intro a ha loc target hlink
  rw [(generate_of_some hmd).2, (run.artifacts_emit_perm_of_write t md hmode).mem_iff] at ha
  have hfree := h a ha
  rw [hlink] at hfree
  exact absurd hfree (by simp [Except.toOption, Entry.outline?])

/-- There is no link among the outputs of a run if there is nothing at them yet. -/
theorem output_ne_link_of_missing (hmode : run.mode = .write)
    (hmd : (run.collect t).metadata = some md)
    (h : ∀ a ∈ (run.emitSources md t md.files).2.artifacts,
      (t.lstat a.output).toOption = none) :
    ∀ a ∈ (run.generate t).2.artifacts, ∀ loc target,
      t.lstat a.output ≠ .ok (loc, .link target) := by
  refine output_ne_link_of_free hmode hmd fun a ha => ?_
  rw [h a ha]
  rfl

/-- The text of a source with one type. -/
def sourceText (name : Text) : Text :=
  lit "VX_RF_DATA_BEGIN(" ++ name ++ lit ")\nVX_RF_DATA_END(" ++ name ++ lit ")\n"

/-- A write run with standard tokens and options. -/
def writeRun (root : Text) (included : List Text) : Run where
  root := root
  included := included
  excluded := standardExcludes
  tokens := Tokens.standard
  options := EmitOptions.standard
  mode := .write
  version := lit "1.2.3"

/-- A directory with two sources. -/
def plainTree : FileTree where
  entries := [
    ([lit "src"], .directory),
    ([lit "src", lit "a.h"], .file (sourceText (lit "A"))),
    ([lit "src", lit "b.h"], .file (sourceText (lit "B")))]
  workdir := []

/-- A run over both sources. -/
def plainRun : Run := writeRun (lit "src/") standardIncludes

/-- The record set of that run. -/
def plainMetadata : Metadata :=
  (plainRun.scanFiles plainTree [lit "src/a.h", lit "src/b.h"] (Metadata.empty plainRun.root)).1

/-- Both sources are found. -/
theorem metadata_plainRun : (plainRun.collect plainTree).metadata =
    some plainMetadata := by
  have hreal : plainTree.lstat plainRun.root = .ok ([lit "src"], .directory) := by decide +kernel
  refine collect_of_sorted hreal ?_ ?_ ?_ ?_
  all_goals decide +kernel

/-- The run over two sources writes two outputs, each with what is rendered for its own source. -/
theorem plainRun_writes_only_outputs :
    plainTree.WellFormed ∧ plainTree.lstat plainRun.root = .ok ([lit "src"], .directory) ∧
      plainTree.stat (Path.clean plainRun.root) = .ok ([lit "src"], .directory) ∧
      Path.slash ∉ plainRun.options.suffix ∧
      (∀ a ∈ (plainRun.generate plainTree).2.artifacts, ∀ loc target,
        plainTree.lstat a.output ≠ .ok (loc, .link target)) ∧
      (written (plainRun.generate plainTree).2).length = 2 ∧
      ∀ a ∈ written (plainRun.generate plainTree).2, ∃ text content,
        plainTree.load a.source = .ok text ∧
        render plainRun.version a.source (Scan.run plainRun.tokens a.source text).records
          plainRun.options = .ok content ∧
        (plainRun.generate plainTree).1.load a.output = .ok content := by
  have hwf : plainTree.WellFormed := by decide +kernel
  have hreal : plainTree.lstat plainRun.root = .ok ([lit "src"], .directory) := by decide +kernel
  have hclean : plainTree.stat (Path.clean plainRun.root) = .ok ([lit "src"], .directory) := by
    decide +kernel
  have hsuffix : Path.slash ∉ plainRun.options.suffix := by decide +kernel
  have hlink := output_ne_link_of_missing rfl metadata_plainRun (by decide +kernel)
  obtain ⟨-, -, -, hcontent⟩ := (generate_writes_only_outputs plainRun plainTree).1 [lit "src"] rfl
    hwf hreal hclean hsuffix hlink
  refine ⟨hwf, hreal, hclean, hsuffix, hlink, ?_, fun a ha => ?_⟩
  · have hperm := plainRun.artifacts_emit_perm_of_write plainTree plainMetadata rfl
    rw [written, (generate_of_some metadata_plainRun).2, (hperm.filter _).length_eq]
    decide +kernel
  · obtain ⟨text, content, hload, -, hrender, hout⟩ := hcontent a ha
    exact ⟨text, content, hload, hrender, hout⟩

/-- The directory `x/d` is found under the path `link/../d`, but the cleaned path `d` denotes
another directory, in which two names lead to one place. -/
def aliasedTree : FileTree where
  entries := [
    ([lit "x"], .directory), ([lit "x", lit "y"], .directory),
    ([lit "link"], .link (lit "x/y")),
    ([lit "x", lit "d"], .directory), ([lit "x", lit "d", lit "s1"], .directory),
    ([lit "x", lit "d", lit "s1", lit "foo.h"], .file []),
    ([lit "x", lit "d", lit "s2"], .directory),
    ([lit "x", lit "d", lit "s2", lit "foo.hpp"], .file []),
    ([lit "d"], .directory), ([lit "d", lit "s1"], .directory),
    ([lit "d", lit "s1", lit "foo.h"], .file (sourceText (lit "A"))),
    ([lit "d", lit "s1", lit "foo.hpp"], .file (sourceText (lit "B"))),
    ([lit "d", lit "s2"], .link (lit "s1"))]
  workdir := []

/-- A run over one source of each of the two names. -/
def aliasedRun : Run := writeRun (lit "link/../d") [lit "s1/foo.h", lit "s2/foo.hpp"]

/-- The record set of that run. -/
def aliasedMetadata : Metadata :=
  (aliasedRun.scanFiles aliasedTree [lit "d/s1/foo.h", lit "d/s2/foo.hpp"]
    (Metadata.empty aliasedRun.root)).1

/-- A source of each name is found in the aliased tree. -/
theorem metadata_aliasedRun : (aliasedRun.collect aliasedTree).metadata =
    some aliasedMetadata := by
  have hreal : aliasedTree.lstat aliasedRun.root = .ok ([lit "x", lit "d"], .directory) := by
    decide +kernel
  refine collect_of_sorted hreal ?_ ?_ ?_ ?_
  all_goals decide +kernel

/-- In the aliased tree the root is a real directory and no output is a link, but the two outputs
are one file, and the first one does not hold the text rendered for its source. -/
theorem aliasedRun_loses_output :
    aliasedRun.mode = .write ∧ aliasedTree.WellFormed ∧
      aliasedTree.lstat aliasedRun.root = .ok ([lit "x", lit "d"], .directory) ∧
      Path.slash ∉ aliasedRun.options.suffix ∧
      (∀ a ∈ (aliasedRun.generate aliasedTree).2.artifacts, ∀ loc target,
        aliasedTree.lstat a.output ≠ .ok (loc, .link target)) ∧
      ∃ a ∈ written (aliasedRun.generate aliasedTree).2, ¬ ∃ text content,
        aliasedTree.load a.source = .ok text ∧
        (Scan.run aliasedRun.tokens a.source text).failures a.source = [] ∧
        render aliasedRun.version a.source (Scan.run aliasedRun.tokens a.source text).records
          aliasedRun.options = .ok content ∧
        (aliasedRun.generate aliasedTree).1.load a.output = .ok content := by
  refine ⟨rfl, by decide +kernel, by decide +kernel, by decide +kernel,
    output_ne_link_of_missing rfl metadata_aliasedRun (by decide +kernel), ?_⟩
  obtain ⟨htree, hart⟩ := generate_of_some metadata_aliasedRun
  have hperm := aliasedRun.artifacts_emit_perm_of_write aliasedTree aliasedMetadata rfl
  rw [htree, written, hart]
  have hmem : ∃ a ∈ (aliasedRun.emitSources aliasedMetadata aliasedTree
      aliasedMetadata.files).2.artifacts, a.status = .written ∧ a.source = lit "d/s1/foo.h" ∧
        a.output = lit "d/s1/foo_reflection.cpp" := by
    decide +kernel
  obtain ⟨a, ha, hstatus, hsource, houtput⟩ := hmem
  refine ⟨a, List.mem_filter.mpr ⟨hperm.mem_iff.mpr ha, beq_iff_eq.mpr hstatus⟩, ?_⟩
  rw [hsource, houtput]
  rintro ⟨text, content, hload, -, hrender, hout⟩
  have htext : aliasedTree.load (lit "d/s1/foo.h") = .ok (sourceText (lit "A")) := by
    decide +kernel
  rw [← Except.ok.inj (htext.symm.trans hload)] at hrender
  have hne : (render aliasedRun.version (lit "d/s1/foo.h") (Scan.run aliasedRun.tokens
      (lit "d/s1/foo.h") (sourceText (lit "A"))).records aliasedRun.options).toOption ≠
      ((aliasedRun.emitSources aliasedMetadata aliasedTree aliasedMetadata.files).1.load
        (lit "d/s1/foo_reflection.cpp")).toOption := by
    decide +kernel
  rw [hrender, hout] at hne
  exact hne rfl

end Run

end ReflectGen

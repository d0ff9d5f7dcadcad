import Mathlib.Data.List.Flatten
import ReflectGen.Proofs.Run.Emit

/-!
# Which sources are refused

A source is refused exactly if it clashes: its output path is that of another source, or a variable
of its records is that of another occurrence.  The first reason goes before the second, and every
other source is rendered.  Because the refusals are exact, nothing that is rendered in a run shares
an output path, a type name or a variable with anything else that is rendered.

* `Run.renderedFiles`: the files that a run goes on to render.
* `Render.Declares`: the variables that a rendered text declares, with what stands between them.
* `Run.emit_refuses_exactly`: the statuses of a run, and what is distinct among its rendered
  sources.
-/

namespace ReflectGen

namespace Render

/-- The text declares these variables, one for each record, and nothing else: it is the preamble of
the source, and then for each record in turn the declaration of its variable with the descriptor of
the record behind it. -/
def Declares (version source : Text) (records : List TypeRecord) (o : EmitOptions) (content : Text)
    (variableNames : List Text) : Prop :=
  variableNames.length = records.length ∧
    content = renderPreamble version source o ++ (List.zipWith
      (fun v r => renderDeclaration v ++ renderDescriptor o r) variableNames records).flatten

theorem declares_renderSource (version source : Text) (records : List TypeRecord)
    (o : EmitOptions) :
    Declares version source records o (renderSource version source records o)
      (records.map fun r => descriptorName o.globalPrefix r.name) := by
  refine ⟨List.length_map _, ?_⟩
  rw [renderSource, List.append_cancel_left_eq, List.zipWith_map_left, List.zipWith_self,
    List.flatMap_def]
  rfl

end Render

/-- A rendered source declares the variables of its records. -/
theorem declares_of_render {declared source : Text} {records : List TypeRecord} {o : EmitOptions}
    {content : Text} (h : render declared source records o = .ok content) :
    ∃ version, Version.resolve declared = .ok version ∧
      Render.Declares version source records o content
        (records.map fun r => descriptorName o.globalPrefix r.name) := by
  unfold render at h
  cases hv : Version.resolve declared with
  | error e =>
    rw [hv] at h
    exact absurd h (by simp [Except.map])
  | ok version =>
    rw [hv] at h
    have hc : Render.renderSource version source records o = content := Except.ok.inj h
    rw [← hc]
    exact ⟨version, rfl, Render.declares_renderSource version source records o⟩

namespace Run

/-- The files of a run that are not refused. -/
def renderedFiles (run : Run) (t : FileTree) (md : Metadata) : List (Text × List TypeRecord) :=
  md.files.filter fun f => (run.emit t md).2.artifacts.any fun a =>
    a.source == f.1 && a.status != .collision && a.status != .duplicate

variable {run : Run} {t : FileTree} {md : Metadata}

/-- A rendered file clashes with nothing. -/
theorem no_clash_of_mem_renderedFiles (hnodup : md.paths.Nodup) {f : Text × List TypeRecord}
    (h : f ∈ run.renderedFiles t md) :
    f ∈ md.files ∧ ¬ md.SharesOutput f.1 ∧ ¬ md.SharesVariable run.options.globalPrefix f.1 := by
  obtain ⟨hf, hany⟩ := List.mem_filter.mp h
  obtain ⟨b, hb, hstatus⟩ := List.any_eq_true.mp hany
  simp only [Bool.and_eq_true, beq_iff_eq, bne_iff_ne] at hstatus
  obtain ⟨⟨hsource, hnc⟩, hnd⟩ := hstatus
  obtain ⟨a, ha, hfate⟩ := run.filter_artifacts_emit t hnodup hf
  -- the artifact that keeps the file from being refused is the only one it has
  have hab : b = a := by
    have hmem : b ∈ (run.emit t md).2.artifacts.filter (fun c => c.source == f.1) :=
      List.mem_filter.mpr ⟨hb, beq_iff_eq.mpr hsource⟩
    rw [ha] at hmem
    exact List.mem_singleton.mp hmem
  subst hab
  have hcollide : ¬ run.Collides md f.1 := fun hc => hnc (hfate.collision.mpr hc)
  refine ⟨hf, fun hc => hcollide ((collides_iff hnodup hf).mpr hc), fun hv => hnd ?_⟩
  exact hfate.duplicate.mpr ⟨hcollide, (duplicates_iff hnodup).mpr hv⟩

theorem renderedFiles_sublist (run : Run) (t : FileTree) (md : Metadata) :
    (run.renderedFiles t md).Sublist md.files := List.filter_sublist

/-- Rendered files have different output paths. -/
theorem nodup_output_renderedFiles (hnodup : md.paths.Nodup) :
    ((run.renderedFiles t md).map fun f => run.output f.1).Nodup := by
  have hfiles : (run.renderedFiles t md).Nodup :=
    (List.Nodup.of_map Prod.fst hnodup).sublist (run.renderedFiles_sublist t md)
  refine hfiles.map_on fun f hf g hg hout => ?_
  obtain ⟨hf', hshares, -⟩ := no_clash_of_mem_renderedFiles hnodup hf
  obtain ⟨hg', -, -⟩ := no_clash_of_mem_renderedFiles hnodup hg
  exact eq_of_output_eq hnodup hf' hg' (mt (collides_iff hnodup hf').mp hshares) hout

/-- Rendered files have different variables. -/
theorem nodup_descriptors_renderedFiles (hnodup : md.paths.Nodup) :
    ((run.renderedFiles t md).flatMap fun f =>
      f.2.map fun r => descriptorName run.options.globalPrefix r.name).Nodup := by
  rw [List.nodup_iff_count_le_one]
  intro v
  by_cases hv : v ∈ (run.renderedFiles t md).flatMap fun f =>
      f.2.map fun r => descriptorName run.options.globalPrefix r.name
  · obtain ⟨f, hf, hvf⟩ := List.mem_flatMap.mp hv
    obtain ⟨r, hr, rfl⟩ := List.mem_map.mp hvf
    obtain ⟨hf', -, hshares⟩ := no_clash_of_mem_renderedFiles hnodup hf
    have hsub := (run.renderedFiles_sublist t md).flatMap fun f : Text × List TypeRecord =>
      f.2.map fun r => descriptorName run.options.globalPrefix r.name
    exact (hsub.count_le _).trans (Metadata.count_descriptors_le_one hnodup hf' hshares hr)
  · rw [List.count_eq_zero_of_not_mem hv]
    exact Nat.zero_le 1

/-- Rendered files have different type names, because different variables come from different
names. -/
theorem nodup_names_renderedFiles (hnodup : md.paths.Nodup) :
    ((run.renderedFiles t md).flatMap fun f => f.2.map TypeRecord.name).Nodup := by
  refine List.Nodup.of_map (descriptorName run.options.globalPrefix) ?_
  rw [List.map_flatMap]
  simp only [List.map_map]
  exact nodup_descriptors_renderedFiles hnodup

/-- Two files with one output, and a file whose two types have one variable. -/
def clashingFiles : List (Text × List TypeRecord) :=
  [(lit "a/x.h", [{ name := lit "A", line := 2, members := [] }]),
    (lit "a/x.inl.h", [{ name := lit "B", line := 2, members := [] }]),
    (lit "y.h", [{ name := lit "n::C", line := 2, members := [] },
      { name := lit "n__C", line := 4, members := [] }])]

/-- The record set of the clashing files. -/
def clashingMetadata : Metadata := (Metadata.empty (lit ".")).addAll clashingFiles

/-- A run with standard tokens and options over the working directory. -/
def standardRun (mode : Mode) : Run where
  root := lit "."
  included := standardIncludes
  excluded := standardExcludes
  tokens := Tokens.standard
  options := EmitOptions.standard
  mode := mode
  version := []

end Run

end ReflectGen

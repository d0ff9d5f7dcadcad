import ReflectGen.Proofs.Run.Frame

/-!
# What is decided before the tree is looked at

Whether a source is refused, and what is rendered for it otherwise, depends on the record set and on
the options, but neither on the tree nor on the mode.  Only the delivery of a rendered text looks at
the tree, and it looks at one place: where the output of the source is.

A run delivers its sources one after the other, each in the tree that the one before it has left.
When every source leaves the tree alone, the run is the same as each of its sources on its own.

* `Run.verdict`, `Run.emitSource_eq`: the decision, and what follows from it;
  `Run.verdict_error_cases`: why a source has no text.
* `Run.inMode`: the same run in another mode; the verdicts are the same.
* `Emission.concat`: emissions in a row; `Run.alone`: every source on its own.
* `Run.emitSources_of_fixed`: a run that leaves the tree alone.
-/

namespace ReflectGen

/-! ## Emissions in a row -/

namespace Emission

/-- Emissions one behind the other. -/
def concat (es : List Emission) : Emission := es.foldr append {}

@[simp] theorem artifacts_append (a b : Emission) :
    (a.append b).artifacts = a.artifacts ++ b.artifacts := rfl

@[simp] theorem failures_append (a b : Emission) :
    (a.append b).failures = a.failures ++ b.failures := rfl

@[simp] theorem events_append (a b : Emission) :
    (a.append b).events = a.events ++ b.events := rfl

@[simp] theorem concat_nil : concat [] = {} := rfl

@[simp] theorem concat_cons (e : Emission) (es : List Emission) :
    concat (e :: es) = e.append (concat es) := rfl

theorem artifacts_concat (es : List Emission) :
    (concat es).artifacts = es.flatMap Emission.artifacts := by
  induction es with
  | nil => rfl
  | cons e es ih => rw [concat_cons, artifacts_append, ih, List.flatMap_cons]

theorem failures_concat (es : List Emission) :
    (concat es).failures = es.flatMap Emission.failures := by
  induction es with
  | nil => rfl
  | cons e es ih => rw [concat_cons, failures_append, ih, List.flatMap_cons]

theorem events_concat (es : List Emission) :
    (concat es).events = es.flatMap Emission.events := by
  induction es with
  | nil => rfl
  | cons e es ih => rw [concat_cons, events_append, ih, List.flatMap_cons]

end Emission

namespace Run

/-! ## Verdicts -/

/-- What is decided about a source: what is emitted for it if it is refused or cannot be rendered,
or else its text. -/
def verdict (run : Run) (md : Metadata) (f : Text × List TypeRecord) : Except Emission Text :=
  if 2 ≤ (md.claimants run.options.suffix (run.output f.1)).length then
    .error (refuse (run.artifact f [] .collision)
      (.collision (run.output f.1) (md.claimants run.options.suffix (run.output f.1))))
  else if !(Clash.messages run.options.globalPrefix md.sites f.1).isEmpty then
    .error (refuse (run.artifact f [] .duplicate)
      (.duplicate f.1 (Clash.messages run.options.globalPrefix md.sites f.1)))
  else
    match render run.version f.1 f.2 run.options with
    | .error e =>
      .error { artifacts := [run.artifact f [] .failed], failures := [.unversioned e] }
    | .ok content => .ok content

/-- A source is delivered if the verdict is a text. -/
theorem emitSource_eq (run : Run) (md : Metadata) (t : FileTree) (f : Text × List TypeRecord) :
    run.emitSource md t f.1 f.2 =
      match run.verdict md f with
      | .error e => (t, e)
      | .ok content =>
        run.deliver t (run.artifact f (Digest.ofContent content) .failed) content := by
  unfold emitSource verdict
  dsimp only
  split
  · rfl
  · split
    · rfl
    · cases render run.version f.1 f.2 run.options <;> rfl

variable {run : Run} {md : Metadata} {t : FileTree} {f : Text × List TypeRecord}

theorem emitSource_of_error {e : Emission} (h : run.verdict md f = .error e) (t : FileTree) :
    run.emitSource md t f.1 f.2 = (t, e) := by
  rw [emitSource_eq, h]

theorem emitSource_of_ok {content : Text} (h : run.verdict md f = .ok content) (t : FileTree) :
    run.emitSource md t f.1 f.2 =
      run.deliver t (run.artifact f (Digest.ofContent content) .failed) content := by
  rw [emitSource_eq, h]

/-- The three reasons why a source has no text, each with what is emitted for it. -/
theorem verdict_error_cases {e : Emission} (h : run.verdict md f = .error e) :
    (∃ sources, e = refuse (run.artifact f [] .collision) (.collision (run.output f.1) sources)) ∨
    (∃ details, e = refuse (run.artifact f [] .duplicate) (.duplicate f.1 details)) ∨
    ∃ reason, e = { artifacts := [run.artifact f [] .failed], failures := [.unversioned reason] } := by
  unfold verdict at h
  split at h
  · exact .inl ⟨_, (Except.error.inj h).symm⟩
  · split at h
    · exact .inr (.inl ⟨_, (Except.error.inj h).symm⟩)
    · split at h
      · next reason _ => exact .inr (.inr ⟨reason, (Except.error.inj h).symm⟩)
      · exact absurd h (by simp)

/-- A text that is delivered was rendered. -/
theorem render_of_verdict {content : Text} (h : run.verdict md f = .ok content) :
    render run.version f.1 f.2 run.options = .ok content := by
  unfold verdict at h
  split at h
  · exact absurd h (by simp)
  · split at h
    · exact absurd h (by simp)
    · cases hr : render run.version f.1 f.2 run.options with
      | error e =>
        rw [hr] at h
        exact absurd h (by simp)
      | ok content' =>
        rw [hr] at h
        rw [Except.ok.inj h]

/-! ## Modes -/

/-- The same run in another mode. -/
def inMode (run : Run) (mode : Mode) : Run := { run with mode := mode }

@[simp] theorem inMode_self (run : Run) : run.inMode run.mode = run := rfl

@[simp] theorem verdict_inMode (run : Run) (mode : Mode) (md : Metadata)
    (f : Text × List TypeRecord) : (run.inMode mode).verdict md f = run.verdict md f := rfl

theorem scanFiles_inMode (run : Run) (mode : Mode) (t : FileTree) (paths : List Text) :
    ∀ md : Metadata, (run.inMode mode).scanFiles t paths md = run.scanFiles t paths md := by
  induction paths with
  | nil => exact fun _ => rfl
  | cons p paths ih =>
    intro md
    rw [scanFiles, scanFiles, ih]
    rfl

@[simp] theorem collect_inMode (run : Run) (mode : Mode) (t : FileTree) :
    (run.inMode mode).collect t = run.collect t := by
  unfold collect
  simp only [scanFiles_inMode]
  rfl

theorem metadata_inMode (hmd : (run.collect t).metadata = some md) (mode : Mode) :
    ((run.inMode mode).collect t).metadata = some md := by
  rw [collect_inMode]
  exact hmd

/-! ## Sources on their own -/

/-- What is emitted when every source finds the same tree. -/
def alone (run : Run) (md : Metadata) (t : FileTree) (files : List (Text × List TypeRecord)) :
    Emission :=
  Emission.concat (files.map fun f => (run.emitSource md t f.1 f.2).2)

theorem emitSources_cons (run : Run) (md : Metadata) (t : FileTree) (f : Text × List TypeRecord)
    (files : List (Text × List TypeRecord)) :
    run.emitSources md t (f :: files) =
      ((run.emitSources md (run.emitSource md t f.1 f.2).1 files).1,
        (run.emitSource md t f.1 f.2).2.append
          (run.emitSources md (run.emitSource md t f.1 f.2).1 files).2) := rfl

/-- A run in which every source leaves the tree alone. -/
theorem emitSources_of_fixed {files : List (Text × List TypeRecord)}
    (h : ∀ f ∈ files, (run.emitSource md t f.1 f.2).1 = t) :
    run.emitSources md t files = (t, run.alone md t files) := by
  induction files with
  | nil => rfl
  | cons f files ih =>
    have hf := h f List.mem_cons_self
    rw [emitSources_cons, hf, ih fun g hg => h g (List.mem_cons_of_mem f hg)]
    rfl

/-- A run that writes nothing is each of its sources on its own. -/
theorem emitSources_eq_alone (hmode : run.mode ≠ .write) (md : Metadata) (t : FileTree)
    (files : List (Text × List TypeRecord)) :
    run.emitSources md t files = (t, run.alone md t files) := by
  refine emitSources_of_fixed fun f _ => ?_
  obtain ⟨a, -, -, -, hstep⟩ := run.emitSource_write md t f
  rcases hstep with ⟨-, htree⟩ | ⟨hwrite, -⟩
  · exact htree
  · exact absurd hwrite hmode

theorem artifacts_alone (run : Run) (md : Metadata) (t : FileTree)
    (files : List (Text × List TypeRecord)) :
    (run.alone md t files).artifacts =
      files.flatMap fun f => (run.emitSource md t f.1 f.2).2.artifacts := by
  rw [alone, Emission.artifacts_concat, List.flatMap_map]

theorem failures_alone (run : Run) (md : Metadata) (t : FileTree)
    (files : List (Text × List TypeRecord)) :
    (run.alone md t files).failures =
      files.flatMap fun f => (run.emitSource md t f.1 f.2).2.failures := by
  rw [alone, Emission.failures_concat, List.flatMap_map]

end Run

end ReflectGen

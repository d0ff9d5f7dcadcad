import Mathlib.Data.List.Perm.Basic
import ReflectGen.Proofs.Run.Rerun

/-!
# The order of files

Files are added to a record set one after the other, and their sources are emitted in that order.
What is decided about a source does not depend on the order, and when different outputs go to
different locations, neither does the tree: each output is written as if it were the only one.  The
artifacts are sorted, so they come out the same.

The order shows in what is told.  Failures and events come in the order of the files, and so do the
sources and sites that a message lists.  And one failure may have another reason: an output below a
path that is itself an output cannot be written, whether that path is missing or has become a file
by then (`Run.nestedRun_differs`).

* `PermBy`: the same entries up to a relation, in some order.
* `Metadata.Rearranged`: the same files in another order.
* `Failure.Alike`, `Event.Alike`, `Emission.Alike`: the same but for the order inside of messages,
  and for a file in the place of a missing directory.
* `Run.verdict_rearranged`, `Run.alike_deliver`: what is decided and done about one source.
* `Run.exists_parts`, `Run.exists_alike_parts`: the parts of an emission, in both orders.
* `Run.permBy_emit`, `Run.artifacts_emit_rearranged`, `Run.sameEntries_emit`: what is told, the
  artifacts, and the tree.
* `Run.emit_order`: emission in both orders.
-/

namespace ReflectGen

/-! ## Lists that agree up to order -/

/-- The lists have the same entries up to `R`, in some order. -/
def PermBy {α β : Type} (R : α → β → Prop) (l : List α) (l' : List β) : Prop :=
  ∃ m, l.Perm m ∧ List.Forall₂ R m l'

namespace PermBy

variable {α β γ δ : Type} {R : α → β → Prop} {S : γ → δ → Prop}

theorem of_perm {R : α → α → Prop} (hR : ∀ a, R a a) {l l' : List α} (h : l.Perm l') :
    PermBy R l l' := ⟨l', h, List.forall₂_same.mpr fun a _ => hR a⟩

theorem perm {l l' : List α} (h : PermBy Eq l l') : l.Perm l' := by
  obtain ⟨m, hperm, hrel⟩ := h
  rw [List.forall₂_eq_eq_eq] at hrel
  exact hrel ▸ hperm

theorem length_eq {l : List α} {l' : List β} (h : PermBy R l l') : l.length = l'.length := by
  obtain ⟨m, hperm, hrel⟩ := h
  exact hperm.length_eq.trans hrel.length_eq

theorem trans_perm {l : List α} {l' l'' : List β} (h : PermBy R l l') (hperm : l'.Perm l'') :
    PermBy R l l'' := by
  obtain ⟨m, hm, hrel⟩ := h
  obtain ⟨m', hrel', hm'⟩ := List.perm_comp_forall₂ hperm.symm hrel.flip
  exact ⟨m', hm.trans hm'.symm, hrel'.flip⟩

theorem append {l k : List α} {l' k' : List β} (h : PermBy R l l') (h' : PermBy R k k') :
    PermBy R (l ++ k) (l' ++ k') := by
  obtain ⟨m, hm, hrel⟩ := h
  obtain ⟨m', hm', hrel'⟩ := h'
  exact ⟨m ++ m', hm.append hm', List.rel_append hrel hrel'⟩

/-- Entries that agree up to `R` are written as rows that agree up to `S`. -/
theorem flatMap {l : List α} {l' : List β} (h : PermBy R l l') {g : α → List γ} {g' : β → List δ}
    (hg : ∀ a b, R a b → List.Forall₂ S (g a) (g' b)) :
    PermBy S (l.flatMap g) (l'.flatMap g') := by
  obtain ⟨m, hm, hrel⟩ := h
  refine ⟨m.flatMap g, hm.flatMap_right g, ?_⟩
  induction hrel generalizing l with
  | nil => exact .nil
  | cons hab hrel ih =>
    rw [List.flatMap_cons, List.flatMap_cons]
    exact List.rel_append (hg _ _ hab) (ih (List.Perm.refl _))

end PermBy

theorem forall₂_trans {α β γ : Type} {R : α → β → Prop} {S : β → γ → Prop} {T : α → γ → Prop}
    (h : ∀ a b c, R a b → S b c → T a c) {l : List α} {m : List β} {k : List γ}
    (hR : List.Forall₂ R l m) : List.Forall₂ S m k → List.Forall₂ T l k := by
  induction hR generalizing k with
  | nil =>
    intro hS
    cases hS
    exact .nil
  | cons hab _ ih =>
    intro hS
    cases hS with
    | cons hbc hS => exact .cons (h _ _ _ hab hbc) (ih hS)

theorem forall₂_filterMap {α β : Type} {R : β → β → Prop} {g g' : α → Option β}
    (h : ∀ a, Option.Rel R (g a) (g' a)) (l : List α) :
    List.Forall₂ R (l.filterMap g) (l.filterMap g') := by
  induction l with
  | nil => exact .nil
  | cons a l ih =>
    have ha := h a
    rw [List.filterMap_cons, List.filterMap_cons]
    generalize g a = b at ha
    generalize g' a = b' at ha
    cases ha with
    | none => exact ih
    | some hb => exact .cons hb ih

theorem isEmpty_eq_of_length_eq {α : Type} {l l' : List α} (h : l.length = l'.length) :
    l.isEmpty = l'.isEmpty := by
  rw [Bool.eq_iff_iff, List.isEmpty_iff_length_eq_zero, List.isEmpty_iff_length_eq_zero, h]

theorem perm_eraseDups {l l' : List Text} (h : l.Perm l') : l.eraseDups.Perm l'.eraseDups := by
  refine (List.perm_ext_iff_of_nodup (nodup_eraseDups l) (nodup_eraseDups l')).mpr ?_
  intro a
  rw [List.mem_eraseDups, List.mem_eraseDups, h.mem_iff]

/-! ## What is told in another order -/

/-- The messages list the same sites in another order. -/
def Clash.Rearranged (m m' : Text) : Prop :=
  ∃ (front : Text) (sites sites' : List Text), sites.Perm sites' ∧
    m = front ++ Text.join (lit " ") sites ++ lit "]" ∧
    m' = front ++ Text.join (lit " ") sites' ++ lit "]"

/-- The failures are the same but for the order of what they list, and for a file in the place of a
missing directory in the reason why an output cannot be written. -/
inductive Failure.Alike : Failure → Failure → Prop where
  | same (f : Failure) : Failure.Alike f f
  | collision (output : Text) {sources sources' : List Text} (h : sources.Perm sources') :
      Failure.Alike (.collision output sources) (.collision output sources')
  | duplicate (source : Text) {details details' : List Text}
      (h : PermBy Clash.Rearranged details details') :
      Failure.Alike (.duplicate source details) (.duplicate source details')
  | unwritten (output : Text) {e e' : AccessError} (h : e.outline = e'.outline) :
      Failure.Alike (.unwritten output e) (.unwritten output e')

/-- The events are the same but for the text of a failure. -/
inductive Event.Alike : Event → Event → Prop where
  | same (e : Event) : Event.Alike e e
  | told (severity : Int) (message : String) (attrs : List LogAttr) {f f' : Failure}
      (h : f.Alike f') :
      Event.Alike (Event.record severity message (attrs ++ [Event.text "error" f.message]))
        (Event.record severity message (attrs ++ [Event.text "error" f'.message]))

/-- The emissions have the same artifacts, and what they tell is alike. -/
structure Emission.Alike (e e' : Emission) : Prop where
  artifacts : e.artifacts = e'.artifacts
  failures : List.Forall₂ Failure.Alike e.failures e'.failures
  events : List.Forall₂ Event.Alike e.events e'.events

theorem Emission.Alike.refl (e : Emission) : e.Alike e where
  artifacts := rfl
  failures := List.forall₂_same.mpr fun f _ => .same f
  events := List.forall₂_same.mpr fun ev _ => .same ev

theorem Run.alike_refuse (a : Artifact) {f f' : Failure} (h : f.Alike f') :
    (Run.refuse a f).Alike (Run.refuse a f') where
  artifacts := rfl
  failures := .cons h .nil
  events := .cons (.told Severity.error "Refusing to generate file"
    [Event.text "source" a.source] h) .nil

/-- The trees have the same entries, in whatever order they hold them. -/
structure FileTree.SameEntries (t t' : FileTree) : Prop where
  workdir : t.workdir = t'.workdir
  entry : ∀ loc, t.entry? loc = t'.entry? loc

instance FileTree.decidableSeparates (t : FileTree) (paths : List Text) :
    Decidable (t.Separates paths) :=
  decidable_of_iff (∀ p ∈ paths, ∀ q ∈ paths, (t.writeLocation p).isOk = true →
    t.writeLocation p = t.writeLocation q → p = q) <| by
      constructor
      · intro h p hp q hq loc hloc hloc'
        exact h p hp q hq (by rw [hloc]; rfl) (hloc.trans hloc'.symm)
      · intro h p hp q hq hok heq
        cases hloc : t.writeLocation p with
        | ok loc => exact h p hp q hq loc hloc (heq ▸ hloc)
        | error e =>
          rw [hloc] at hok
          exact absurd hok Bool.false_ne_true

/-! ## Record sets in another order -/

/-- The record sets have the same files in another order. -/
structure Metadata.Rearranged (md md' : Metadata) : Prop where
  files : md.files.Perm md'.files
  unannotated : md.unannotated.Perm md'.unannotated

/-- Files with different paths may be added in any order. -/
theorem Metadata.rearranged_addAll {files files' : List (Text × List TypeRecord)}
    (hperm : files.Perm files') (hnodup : (files.map Prod.fst).Nodup) (root : Text) :
    Rearranged ((empty root).addAll files) ((empty root).addAll files') := by
  rw [addAll_empty hnodup, addAll_empty ((hperm.map Prod.fst).nodup_iff.mp hnodup)]
  exact ⟨hperm.filter _, (hperm.filter _).map _⟩

namespace Metadata.Rearranged

variable {md md' : Metadata}

theorem paths (h : md.Rearranged md') : md.paths.Perm md'.paths := h.files.map Prod.fst

theorem sites (h : md.Rearranged md') : md.sites.Perm md'.sites := h.files.flatMap_right _

theorem claimants (h : md.Rearranged md') (suffix output : Text) :
    (md.claimants suffix output).Perm (md'.claimants suffix output) := h.paths.filter _

end Metadata.Rearranged

namespace Clash

variable {sites sites' : List Site}

theorem rel_nameMessage? (h : sites.Perm sites') (source name : Text) :
    Option.Rel Rearranged (nameMessage? sites source name) (nameMessage? sites' source name) := by
  have hgroup : (sitesOfName sites name).Perm (sitesOfName sites' name) := h.filter _
  have hany := hgroup.any_eq (f := fun s : Site => s.source == source)
  unfold nameMessage?
  dsimp only
  rw [hgroup.length_eq, hany]
  split
  · exact .some ⟨_, _, _, hgroup.map Site.text, rfl, rfl⟩
  · exact .none

theorem rel_variableMessage? (h : sites.Perm sites') (lead source variableName : Text) :
    Option.Rel Rearranged (variableMessage? lead sites source variableName)
      (variableMessage? lead sites' source variableName) := by
  have hgroup : (sitesOfVariable lead sites variableName).Perm
      (sitesOfVariable lead sites' variableName) := h.filter _
  have hany := hgroup.any_eq (f := fun s : Site => s.source == source)
  have hnames := (perm_eraseDups (hgroup.map Site.name)).length_eq
  unfold variableMessage?
  dsimp only
  rw [hnames, hany]
  split
  · exact .some ⟨_, _, _, hgroup.map Site.text, rfl, rfl⟩
  · exact .none

/-- A source is told the same when the sites come in another order, up to order. -/
theorem permBy_messages (h : sites.Perm sites') (lead source : Text) :
    PermBy Rearranged (messages lead sites source) (messages lead sites' source) := by
  have hown : (sites.filter (·.source == source)).Perm (sites'.filter (·.source == source)) :=
    h.filter _
  have hnames := (perm_eraseDups (hown.map Site.name)).filterMap (nameMessage? sites source)
  have hvariables := (perm_eraseDups (hown.map fun s => descriptorName lead s.name)).filterMap
    (variableMessage? lead sites source)
  unfold messages messagesInOrder Text.sort
  refine PermBy.trans_perm ⟨_, (List.mergeSort_perm _ _).trans (hnames.append hvariables), ?_⟩
    (List.mergeSort_perm _ _).symm
  exact List.rel_append (forall₂_filterMap (rel_nameMessage? h source) _)
    (forall₂_filterMap (rel_variableMessage? h lead source) _)

end Clash

namespace Run

variable {run : Run} {md md' : Metadata} {t t' : FileTree} {f : Text × List TypeRecord}

/-! ## One source -/

/-- What is decided about a source does not depend on the order of files, up to the order in the
text of a refusal. -/
theorem verdict_rearranged (h : md.Rearranged md') (run : Run) (f : Text × List TypeRecord) :
    run.verdict md f = run.verdict md' f ∨
      ∃ a failure failure', Failure.Alike failure failure' ∧
        run.verdict md f = .error (refuse a failure) ∧
        run.verdict md' f = .error (refuse a failure') := by
  have hclaim := h.claimants run.options.suffix (run.output f.1)
  have hmessages := Clash.permBy_messages h.sites run.options.globalPrefix f.1
  unfold verdict
  rw [hclaim.length_eq]
  split
  · exact .inr ⟨_, _, _, .collision (run.output f.1) hclaim, rfl, rfl⟩
  · rw [isEmpty_eq_of_length_eq hmessages.length_eq]
    split
    · exact .inr ⟨_, _, _, .duplicate f.1 hmessages, rfl, rfl⟩
    · exact .inl rfl

/-- Writing a rendered source looks at directories and links only. -/
theorem alike_writeOutput (h : t.SameOutline t') (a : Artifact) (content : Text) :
    (writeOutput t a content).2.Alike (writeOutput t' a content).2 := by
  have hlocation := FileTree.mapError_writeLocation h a.output
  unfold writeOutput FileTree.storeAt
  cases hloc : t.writeLocation a.output with
  | ok loc =>
    rw [hloc] at hlocation
    cases hloc' : t'.writeLocation a.output with
    | ok loc' =>
      rw [hloc'] at hlocation
      obtain rfl : loc = loc' := Except.ok.inj hlocation
      exact .refl _
    | error e' =>
      rw [hloc'] at hlocation
      exact absurd hlocation (by simp [Except.mapError])
  | error e =>
    rw [hloc] at hlocation
    cases hloc' : t'.writeLocation a.output with
    | ok loc' =>
      rw [hloc'] at hlocation
      exact absurd hlocation (by simp [Except.mapError])
    | error e' =>
      rw [hloc'] at hlocation
      have hreason : Failure.Alike (.unwritten a.output e) (.unwritten a.output e') :=
        .unwritten a.output (Except.error.inj hlocation)
      exact ⟨rfl, .cons hreason .nil, .cons (.told Severity.error
        "Failed to write reflection source" [Event.text "output" a.output] hreason) .nil⟩

/-- What is done with a rendered source depends on directories and links, and for a check on the
whole tree. -/
theorem alike_deliver (h : t.SameOutline t') (hcheck : run.mode = .check → t = t') (a : Artifact)
    (content : Text) : (run.deliver t a content).2.Alike (run.deliver t' a content).2 := by
  unfold deliver
  cases hmode : run.mode with
  | dryRun => exact .refl _
  | check =>
    obtain rfl := hcheck hmode
    exact .refl _
  | write => exact alike_writeOutput h a content

/-- The emission for a source when a run that started with the tree `t` has come to it. -/
def Emits (run : Run) (md : Metadata) (t : FileTree) (f : Text × List TypeRecord) (e : Emission) :
    Prop :=
  ∃ s, t.SameOutline s ∧ (run.mode = .check → t = s) ∧ e = (run.emitSource md s f.1 f.2).2

/-- The emissions for a source in two orders of the files. -/
theorem alike_of_emits (h : md.Rearranged md') {e e' : Emission} (he : run.Emits md t f e)
    (he' : run.Emits md' t f e') : e.Alike e' := by
  obtain ⟨s, hsame, hcheck, rfl⟩ := he
  obtain ⟨s', hsame', hcheck', rfl⟩ := he'
  rcases verdict_rearranged h run f with heq | ⟨a, failure, failure', halike, hv, hv'⟩
  · cases hv : run.verdict md f with
    | error e =>
      rw [emitSource_of_error hv, emitSource_of_error (heq ▸ hv)]
      exact .refl e
    | ok content =>
      rw [emitSource_of_ok hv, emitSource_of_ok (heq ▸ hv)]
      exact alike_deliver (hsame.symm.trans hsame')
        (fun hmode => (hcheck hmode).symm.trans (hcheck' hmode)) _ content
  · rw [emitSource_of_error hv, emitSource_of_error hv']
    exact alike_refuse a halike

/-! ## All sources -/

/-- An emission is made of one part for each file. -/
theorem exists_parts (run : Run) (md : Metadata) (t : FileTree)
    (files : List (Text × List TypeRecord)) :
    ∃ parts, (run.emitSources md t files).2 = Emission.concat parts ∧
      List.Forall₂ (run.Emits md t) files parts := by
  -- the induction goes through the trees that the files before have left
  have key : ∀ s, t.SameOutline s → (run.mode = .check → t = s) →
      ∃ parts, (run.emitSources md s files).2 = Emission.concat parts ∧
        List.Forall₂ (run.Emits md t) files parts := by
    induction files with
    | nil => exact fun s _ _ => ⟨[], rfl, .nil⟩
    | cons f files ih =>
      intro s hsame hcheck
      have hkept : run.mode = .check → s = (run.emitSource md s f.1 f.2).1 := by
        intro hmode
        obtain ⟨-, -, -, -, ⟨-, htree⟩ | ⟨hwrite, -⟩⟩ := run.emitSource_write md s f
        · exact htree.symm
        · exact absurd (hmode.symm.trans hwrite) (by simp)
      obtain ⟨parts, hparts, hemits⟩ := ih (run.emitSource md s f.1 f.2).1
        (hsame.trans (run.sameOutline_emitSource md s f))
        fun hmode => (hcheck hmode).trans (hkept hmode)
      refine ⟨(run.emitSource md s f.1 f.2).2 :: parts, ?_, .cons ⟨s, hsame, hcheck, rfl⟩ hemits⟩
      rw [emitSources_cons, hparts]
      rfl
  exact key t (.refl t) fun _ => rfl

/-- The parts of the emissions for two orders of the files are alike, up to order. -/
theorem exists_alike_parts (h : md.Rearranged md') (run : Run) (t : FileTree) :
    ∃ parts parts', PermBy Emission.Alike parts parts' ∧
      (run.emitSources md t md.files).2 = Emission.concat parts ∧
      (run.emitSources md' t md'.files).2 = Emission.concat parts' := by
  obtain ⟨parts, hconcat, hparts⟩ := run.exists_parts md t md.files
  obtain ⟨parts', hconcat', hparts'⟩ := run.exists_parts md' t md'.files
  have hfiles : PermBy (fun e f => run.Emits md t f e) parts md.files :=
    ⟨parts, .refl parts, hparts.flip⟩
  obtain ⟨m, hm, hrel⟩ := hfiles.trans_perm h.files
  have halike : ∀ e f e', run.Emits md t f e → run.Emits md' t f e' → e.Alike e' :=
    fun _ _ _ he he' => alike_of_emits h he he'
  exact ⟨parts, parts', ⟨m, hm, forall₂_trans halike hrel hparts'⟩, hconcat, hconcat'⟩

/-- The artifacts of the files with records, in two orders. -/
theorem perm_artifacts_emitSources (h : md.Rearranged md') (run : Run) (t : FileTree) :
    (run.emitSources md t md.files).2.artifacts.Perm
      (run.emitSources md' t md'.files).2.artifacts := by
  obtain ⟨parts, parts', halike, hparts, hparts'⟩ := exists_alike_parts h run t
  rw [hparts, hparts', Emission.artifacts_concat, Emission.artifacts_concat]
  exact (halike.flatMap fun _ _ he => List.forall₂_eq_eq_eq ▸ he.artifacts).perm

/-- The reports on left-over outputs, one for each file that has one. -/
def orphanParts (run : Run) (md : Metadata) (t : FileTree) : List Emission :=
  if run.mode = .check then md.unannotated.filterMap (run.orphan? md t) else []

theorem orphans_eq_concat (run : Run) (md : Metadata) (t : FileTree) :
    run.orphans md t = Emission.concat (run.orphanParts md t) := by
  unfold orphans orphanParts
  cases hmode : run.mode <;> rfl

theorem perm_orphanParts (h : md.Rearranged md') (run : Run) (t : FileTree) :
    (run.orphanParts md t).Perm (run.orphanParts md' t) := by
  have horphan : run.orphan? md t = run.orphan? md' t := by
    funext p
    have hclaim := h.claimants run.options.suffix (run.output p)
    unfold orphan?
    dsimp only
    rw [isEmpty_eq_of_length_eq hclaim.length_eq]
  unfold orphanParts
  split
  · rw [horphan]
    exact h.unannotated.filterMap _
  · exact .nil

/-- Emissions for two orders of the files tell the same, up to order. -/
theorem permBy_emit (h : md.Rearranged md') (run : Run) (t : FileTree) :
    PermBy Failure.Alike (run.emit t md).2.failures (run.emit t md').2.failures ∧
      PermBy Event.Alike (run.emit t md).2.events (run.emit t md').2.events := by
  obtain ⟨parts, parts', halike, hparts, hparts'⟩ := exists_alike_parts h run t
  have hall : PermBy Emission.Alike (parts ++ run.orphanParts md t)
      (parts' ++ run.orphanParts md' t) :=
    halike.append (.of_perm Emission.Alike.refl (perm_orphanParts h run t))
  have hfailures := hall.flatMap fun _ _ he => he.failures
  have hevents := hall.flatMap fun _ _ he => he.events
  rw [List.flatMap_append, List.flatMap_append] at hfailures hevents
  rw [emit_eq, emit_eq, hparts, hparts', orphans_eq_concat, orphans_eq_concat]
  simp only [← Emission.failures_concat, ← Emission.events_concat] at hfailures hevents
  exact ⟨hfailures, hevents⟩

/-- Emissions for two orders of the files have the same artifacts: they are sorted by their sources,
and no two have the same source. -/
theorem artifacts_emit_rearranged (h : md.Rearranged md') (run : Run) (t : FileTree)
    (hpaths : md.paths.Nodup) (hbare : md.unannotated.Nodup) :
    (run.emit t md).2.artifacts = (run.emit t md').2.artifacts := by
  have hsources := run.nodup_source_emit t (h.paths.nodup_iff.mp hpaths)
    (h.unannotated.nodup_iff.mp hbare)
  have horphans : (run.orphans md t).artifacts.Perm (run.orphans md' t).artifacts := by
    rw [orphans_eq_concat, orphans_eq_concat, Emission.artifacts_concat, Emission.artifacts_concat]
    exact (perm_orphanParts h run t).flatMap_right _
  have hperm : (run.emit t md).2.artifacts.Perm (run.emit t md').2.artifacts := by
    refine (run.artifacts_emit_perm t md).trans (.trans ?_ (run.artifacts_emit_perm t md').symm)
    rw [orphans_emitSources, orphans_emitSources]
    exact (perm_artifacts_emitSources h run t).append horphans
  refine Text.eq_of_perm_of_key hsources hperm ?_ ?_
  · exact Text.pairwise_mergeSort_key Artifact.source _
  · exact Text.pairwise_mergeSort_key Artifact.source _

/-! ## The tree -/

/-- Two runs that have written the same artifacts leave the same entries behind. -/
theorem sameEntries_of_writes {s s' : FileTree} {artifacts artifacts' : List Artifact}
    (h : md.Rearranged md') (hnodup : md.paths.Nodup) (hperm : artifacts.Perm artifacts')
    (hwrites : run.Writes md t s md.files artifacts)
    (hwrites' : run.Writes md' t s' md'.files artifacts') : s.SameEntries s' := by
  refine ⟨hwrites.outline.workdir.symm.trans hwrites'.outline.workdir, fun loc => ?_⟩
  by_cases hwritten : ∃ a ∈ artifacts, a.status = .written ∧ t.writeLocation a.output = .ok loc
  · obtain ⟨a, ha, hstatus, hloc⟩ := hwritten
    obtain ⟨f, hf, hsource, houtput, place, content, hstored, hentry⟩ :=
      hwrites.content a ha hstatus
    obtain ⟨f', hf', hsource', houtput', place', content', hstored', hentry'⟩ :=
      hwrites'.content a (hperm.mem_iff.mp ha) hstatus
    -- both texts were rendered for the one file that the artifact is about
    obtain rfl : f = f' := List.inj_on_of_nodup_map hnodup hf (h.files.mem_iff.mpr hf')
      (hsource.symm.trans hsource')
    rw [houtput] at hloc
    obtain rfl : place = loc := Except.ok.inj (hstored.2.2.symm.trans hloc)
    obtain rfl : place' = place := Except.ok.inj (hstored'.2.2.symm.trans hloc)
    rw [hentry, hentry', Except.ok.inj (hstored.2.1.symm.trans hstored'.2.1)]
  · have hkept : s.entry? loc = t.entry? loc := by
      by_contra hchanged
      exact hwritten (hwrites.frame loc hchanged)
    have hkept' : s'.entry? loc = t.entry? loc := by
      by_contra hchanged
      obtain ⟨a, ha, hrest⟩ := hwrites'.frame loc hchanged
      exact hwritten ⟨a, hperm.mem_iff.mpr ha, hrest⟩
    rw [hkept, hkept']

/-- Emissions for two orders of the files leave the same tree behind. -/
theorem sameEntries_emit (h : md.Rearranged md') (hpaths : md.paths.Nodup)
    (hsep : t.Separates (md.paths.map run.output)) :
    (run.emit t md).1.SameEntries (run.emit t md').1 := by
  have hpaths' : md'.paths.Nodup := h.paths.nodup_iff.mp hpaths
  have houtputs : ∀ p, p ∈ md'.paths.map run.output → p ∈ md.paths.map run.output :=
    fun p hp => (h.paths.map run.output).mem_iff.mpr hp
  have hsep' : t.Separates (md'.paths.map run.output) :=
    fun p hp q hq => hsep p (houtputs p hp) q (houtputs q hq)
  unfold Metadata.paths at hsep hsep'
  rw [List.map_map] at hsep hsep'
  have hwrites := emitSources_writes hpaths (fun f hf => hf) (.of_map _ hpaths) hsep
  have hwrites' := emitSources_writes hpaths' (fun f hf => hf) (.of_map _ hpaths') hsep'
  rw [emit_eq, emit_eq]
  exact sameEntries_of_writes h hpaths (perm_artifacts_emitSources h run t) hwrites hwrites'

/-- **The order of files does not matter.**  Files with different paths are added to a record set in
two orders.  If no two different output paths are written to the same location, emission gives the
same artifacts and leaves the same tree behind, in every mode and with all options.  Failures and
events are the same up to order, up to the order of what their texts list, and up to the reason why
an output cannot be written: where it lies below a path that is no directory, there may be a file or
nothing at that path. -/
theorem emit_order (run : Run) (t : FileTree) (root : Text)
    (files files' : List (Text × List TypeRecord)) (hperm : files.Perm files')
    (hnodup : (files.map Prod.fst).Nodup)
    (hsep : t.Separates (((Metadata.empty root).addAll files).paths.map run.output)) :
    let result := run.emit t ((Metadata.empty root).addAll files)
    let result' := run.emit t ((Metadata.empty root).addAll files')
    result.2.artifacts = result'.2.artifacts ∧
    result.1.SameEntries result'.1 ∧
    PermBy Failure.Alike result.2.failures result'.2.failures ∧
    PermBy Event.Alike result.2.events result'.2.events := by
  have h := Metadata.rearranged_addAll hperm hnodup root
  have hmd := Metadata.addAll_empty hnodup root
  have hpaths : ((Metadata.empty root).addAll files).paths.Nodup :=
    Metadata.paths_nodup_addAll files List.nodup_nil
  have hbare : ((Metadata.empty root).addAll files).unannotated.Nodup := by
    rw [hmd]
    exact (List.filter_sublist.map Prod.fst).nodup hnodup
  obtain ⟨hfailures, hevents⟩ := permBy_emit h run t
  exact ⟨artifacts_emit_rearranged h run t hpaths hbare, sameEntries_emit h hpaths hsep,
    hfailures, hevents⟩

/-- Two files, the second of which has its output below the output of the first. -/
def nestedFiles : List (Text × List TypeRecord) :=
  [(lit "a.h", [{ name := lit "P", line := 2, members := [] }]),
    (lit "a.cpp/x.h", [{ name := lit "Q", line := 2, members := [] }])]

/-- A run whose outputs have the names of source files. -/
def nestedRun : Run :=
  { writeRun (lit ".") standardIncludes with
    options := { EmitOptions.standard with suffix := lit ".cpp" } }

/-- The record set of files over the working directory. -/
def recordSet (files : List (Text × List TypeRecord)) : Metadata :=
  (Metadata.empty (lit ".")).addAll files

/-- Nested outputs, two files with a common output, and a file with two types of one variable. -/
def variousFiles : List (Text × List TypeRecord) :=
  nestedFiles ++ [
    (lit "d/y.h", [{ name := lit "R", line := 2, members := [] }]),
    (lit "d/y.hpp", [{ name := lit "S", line := 2, members := [] }]),
    (lit "z.h", [{ name := lit "n::T", line := 2, members := [] },
      { name := lit "n__T", line := 4, members := [] }])]

/-- Four of the five files fail, in both orders, and the other one is written. -/
theorem emit_order_variousFiles :
    let result := nestedRun.emit (.empty []) (recordSet variousFiles)
    let result' := nestedRun.emit (.empty []) (recordSet variousFiles.reverse)
    variousFiles.Perm variousFiles.reverse ∧ (variousFiles.map Prod.fst).Nodup ∧
      (FileTree.empty []).Separates ((recordSet variousFiles).paths.map nestedRun.output) ∧
      (result.2.artifacts = result'.2.artifacts ∧ result.1.SameEntries result'.1 ∧
        PermBy Failure.Alike result.2.failures result'.2.failures ∧
        PermBy Event.Alike result.2.events result'.2.events) ∧
      result.2.failures.length = 4 ∧ (result.1.stat (lit "a.cpp")).isOk = true := by
  have hperm := (List.reverse_perm variousFiles).symm
  have hnodup : (variousFiles.map Prod.fst).Nodup := by decide +kernel
  have hsep : (FileTree.empty []).Separates
      ((recordSet variousFiles).paths.map nestedRun.output) := by decide +kernel
  refine ⟨hperm, hnodup, hsep, ?_, ?_, ?_⟩
  · exact emit_order nestedRun (.empty []) (lit ".") variousFiles _ hperm hnodup hsep
  · decide +kernel
  · decide +kernel

/-- The order of nested outputs shows in more than the order of the failures: one text is not even a
rearrangement of the other. -/
theorem nestedRun_differs :
    let t := FileTree.empty []
    nestedFiles.Perm nestedFiles.reverse ∧ (nestedFiles.map Prod.fst).Nodup ∧
      t.Separates ((recordSet nestedFiles).paths.map nestedRun.output) ∧
      ¬ ((nestedRun.emit t (recordSet nestedFiles)).2.failures.flatMap Failure.message).Perm
        ((nestedRun.emit t (recordSet nestedFiles.reverse)).2.failures.flatMap
          Failure.message) := by
  refine ⟨(List.reverse_perm nestedFiles).symm, ?_, ?_, ?_⟩
  all_goals decide +kernel

end Run

end ReflectGen

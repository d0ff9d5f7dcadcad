import ReflectGen.Command
import ReflectGen.Proofs.Run.Modes

/-!
# Two commands describe the same run

One command prints the record set of a tree, the other one generates sources from it, and each of
them fills in what it was not told.  Here it is shown that they agree: asked about the same sources
and the same suffix, the printed record set lists the files, outputs and numbers of types that the
artifacts of a dry run have, in the same order, and the same files fail to be scanned.

The orders are made in different ways.  The record set lists files as they were discovered, and the
artifacts are sorted at the end; but files are discovered in byte order, so there is nothing left to
sort.

* `SameSources`, `SameSources.prepare_cases`: both commands are refused alike, or they set up runs
  that collect the same.
* `Document.fileList?`, `Document.Encodes`: the files that a record set lists, read off the document,
  and the texts of the document.
* `Run.listing_generate`: the artifacts of a dry run.
* `ScanCommand.PutsDocument`, `ScanCommand.run_cases`: what becomes of the printed record set.
* `Failure.isOfScan`, `Event.isOfScan`: failures of scans among all that a command reports.
* `scan_lists_dry_run`: the two commands.
-/

namespace ReflectGen

/-! ## What both commands ask for -/

/-- The commands are asked about the same sources, with the same suffix. -/
structure SameSources (s : ScanCommand) (g : GenerateCommand) : Prop where
  root : g.root = s.root
  included : g.included = s.included
  excluded : g.excluded = s.excluded
  tokens : g.tokens = s.tokens
  suffix : g.options.suffix = s.suffix

namespace Run

/-- The runs look at the same files for the same markers. -/
structure ScansAlike (run run' : Run) : Prop where
  root : run'.root = run.root
  included : run'.included = run.included
  excluded : run'.excluded = run.excluded
  tokens : run'.tokens = run.tokens

variable {run run' : Run} {md : Metadata} {t : FileTree}

theorem ScansAlike.scanFiles (h : run.ScansAlike run') (t : FileTree) (paths : List Text) :
    ∀ md : Metadata, run'.scanFiles t paths md = run.scanFiles t paths md := by
  induction paths with
  | nil => exact fun _ => rfl
  | cons p paths ih =>
    intro md
    rw [Run.scanFiles, Run.scanFiles, h.tokens]
    simp only [ih]

/-- Such runs collect the same. -/
theorem ScansAlike.collect (h : run.ScansAlike run') (t : FileTree) :
    run'.collect t = run.collect t := by
  unfold Run.collect
  simp only [h.root, h.included, h.excluded, h.scanFiles]

/-- What a request is made into, or why it is refused. -/
theorem prepare_eq (request : Run) :
    request.prepare =
      if (normalizeRoot request.root).isEmpty then .error .rootEmpty
      else
        match request.tokens.error? with
        | some e => .error (.badTokens e)
        | none => .ok { request with
            root := normalizeRoot request.root
            included := if request.included.isEmpty then standardIncludes else request.included
            options := { request.options with
              suffix := EmitOptions.orElse request.options.suffix EmitOptions.standard.suffix } } :=
  rfl

end Run

theorem EmitOptions.orElse_orElse (t fallback : Text) :
    orElse (orElse t fallback) fallback = orElse t fallback := by
  unfold orElse
  split <;> simp_all

/-- The commands are refused for the same reason, or their runs scan alike and have the same
suffix. -/
theorem SameSources.prepare_cases {s : ScanCommand} {g : GenerateCommand} (h : SameSources s g)
    (version : Text) :
    (∃ failure, (s.request version).prepare = .error failure ∧
      (g.request version).prepare = .error failure) ∨
    ∃ run run', (s.request version).prepare = .ok run ∧ (g.request version).prepare = .ok run' ∧
      run.ScansAlike run' ∧ run'.options.suffix = s.outputSuffix ∧ run'.mode = g.mode := by
  have hroot : (g.request version).root = (s.request version).root := h.root
  have htokens : (g.request version).tokens = (s.request version).tokens := by
    rw [GenerateCommand.request, ScanCommand.request, h.tokens]
  rw [Run.prepare_eq, Run.prepare_eq, hroot, htokens]
  split
  · exact .inl ⟨_, rfl, rfl⟩
  · split
    · exact .inl ⟨_, rfl, rfl⟩
    · refine .inr ⟨_, _, rfl, rfl, ⟨rfl, ?_, h.excluded, rfl⟩, ?_, rfl⟩
      · show (if g.included.isEmpty then standardIncludes else g.included) =
          if s.included.isEmpty then standardIncludes else s.included
        rw [h.included]
      · show EmitOptions.orElse (EmitOptions.orElse g.options.suffix EmitOptions.standard.suffix)
          EmitOptions.standard.suffix = EmitOptions.orElse s.suffix EmitOptions.standard.suffix
        rw [EmitOptions.orElse_orElse, h.suffix]

/-! ## The files that a record set lists -/

namespace Document

/-- The value of a field of an object. -/
def field? (d : Document) (name : Text) : Option Document :=
  match d with
  | .object fields => fields.lookup name
  | _ => none

/-- The path, the output and the number of types of a file. -/
def fileRow? (d : Document) : Option (Text × Text × Nat) :=
  match d.field? (lit "path"), d.field? (lit "output"), d.field? (lit "types") with
  | some (.text path), some (.text output), some (.table types) => some (path, output, types.length)
  | _, _, _ => none

/-- The files that a record set lists. -/
def fileList? (d : Document) : Option (List (Text × Text × Nat)) :=
  match d.field? (lit "files") with
  | some (.table rows) => rows.mapM fileRow?
  | _ => none

/-- The texts of a document as a record set: in JSON, too, the last line ends with a line feed. -/
inductive Encodes (d : Document) : Format → Text → Prop where
  | json : d.Encodes .json (d.toJson ++ [0x0A])
  | yaml : d.Encodes .yaml d.toYaml
  | toml : d.Encodes .toml d.toToml

end Document

namespace Metadata

/-- What is dumped is the document of the record set. -/
theorem encodes_dump (md : Metadata) (suffix : Text) (format : Format) :
    (md.document suffix).Encodes format (md.dump suffix format) := by
  cases format with
  | json => exact .json
  | yaml => exact .yaml
  | toml => exact .toml

theorem fileRow?_fileDocument (suffix : Text) (f : Text × List TypeRecord) :
    (fileDocument suffix f).fileRow? = some (f.1, outputPath f.1 suffix, f.2.length) := by
  have hpath : (fileDocument suffix f).field? (lit "path") = some (.text f.1) := rfl
  have houtput : (fileDocument suffix f).field? (lit "output") =
      some (.text (outputPath f.1 suffix)) := rfl
  have htypes : (fileDocument suffix f).field? (lit "types") =
      some (.table (f.2.map TypeRecord.document)) := rfl
  rw [Document.fileRow?, hpath, houtput, htypes]
  simp

/-- The document of a record set lists its files. -/
theorem fileList?_document (md : Metadata) (suffix : Text) :
    (md.document suffix).fileList? =
      some (md.files.map fun f => (f.1, outputPath f.1 suffix, f.2.length)) := by
  have hfiles : (md.document suffix).field? (lit "files") =
      some (.table (md.files.map (fileDocument suffix))) := rfl
  rw [Document.fileList?, hfiles]
  dsimp only
  generalize md.files = files
  induction files with
  | nil => rfl
  | cons f files ih =>
    rw [List.map_cons, List.mapM_cons, fileRow?_fileDocument, ih]
    rfl

end Metadata

/-! ## The artifacts of a dry run -/

/-- What an artifact says about its file. -/
def Artifact.listing (a : Artifact) : Text × Text × Nat := (a.source, a.output, a.types)

namespace Run

variable {run : Run} {md : Metadata} {t : FileTree}

/-- The files with records come in byte order. -/
theorem pairwise_paths_collect (hwf : t.WellFormed) (hmd : (run.collect t).metadata = some md) :
    md.paths.Pairwise fun p q => Text.le p q = true := by
  obtain ⟨paths, hfind, -, hfiles, -⟩ := exists_paths_of_collect hwf hmd
  rw [Metadata.paths, hfiles, List.pairwise_map, List.pairwise_filterMap]
  refine (Discovery.pairwise_find hfind).imp fun hle f hf g hg => ?_
  rw [(scanned?_eq_some hf).1, (scanned?_eq_some hg).1]
  exact hle

theorem listing_emitSources (run : Run) (md : Metadata) (t : FileTree)
    (files : List (Text × List TypeRecord)) :
    (run.emitSources md t files).2.artifacts.map Artifact.listing =
      files.map fun f => (f.1, run.output f.1, f.2.length) := by
  have h := run.emitSources_fates md files t
  generalize (run.emitSources md t files).2.artifacts = as at h
  induction h with
  | nil => rfl
  | cons hfate _ ih =>
    rw [List.map_cons, List.map_cons, ih, Artifact.listing, hfate.source, hfate.output,
      hfate.types]

/-- A dry run has the artifacts of its files, which need no sorting. -/
theorem artifacts_emit_of_dryRun (hmode : run.mode = .dryRun)
    (hsorted : md.paths.Pairwise fun p q => Text.le p q = true) (t : FileTree) :
    (run.emit t md).2.artifacts = (run.emitSources md t md.files).2.artifacts := by
  have horphans : (run.orphans md t).artifacts = [] := by
    rw [artifacts_orphans, if_neg (by simp [hmode])]
  rw [emit_eq, Emission.artifacts_append, horphans, List.append_nil]
  refine List.mergeSort_of_pairwise ?_
  rw [Metadata.paths, ← map_source_emitSources run md t md.files, List.pairwise_map] at hsorted
  exact hsorted

/-- The artifacts of a dry run, file by file. -/
theorem listing_generate (hwf : t.WellFormed) (hmode : run.mode = .dryRun)
    (hmd : (run.collect t).metadata = some md) :
    (run.generate t).2.artifacts.map Artifact.listing =
      md.files.map fun f => (f.1, run.output f.1, f.2.length) := by
  rw [(generate_of_some hmd).2, artifacts_emit_of_dryRun hmode (pairwise_paths_collect hwf hmd),
    listing_emitSources]

end Run

/-! ## Failures of scans -/

/-- Is this the failure of a scan? -/
def Failure.isOfScan : Failure → Bool
  | .diagnostic _ | .lineTooLong _ | .unreadable _ _ => true
  | _ => false

/-- Is this the log record of a failed scan? -/
def Event.isOfScan : Event → Bool
  | .log r => r.message == lit "Failed to scan file"
  | _ => false

namespace Run

variable {run : Run} {md : Metadata} {t : FileTree}

theorem isOfScan_scanFile (tokens : Tokens) (t : FileTree) (path : Text) :
    ∀ failure ∈ (scanFile tokens t path).failures, failure.isOfScan = true := by
  intro failure h
  unfold scanFile at h
  split at h
  · rw [List.mem_singleton.mp h]
    rfl
  · dsimp only [Scan.failures] at h
    split at h
    · rw [List.mem_singleton.mp h]
      rfl
    · obtain ⟨d, -, rfl⟩ := List.mem_map.mp h
      rfl

/-- All failures of a collection are failures of scans. -/
theorem isOfScan_collect (hwf : t.WellFormed) (hmd : (run.collect t).metadata = some md) :
    ∀ failure ∈ (run.collect t).failures, failure.isOfScan = true := by
  obtain ⟨paths, -, -, -, -, hfailures⟩ := exists_paths_of_collect hwf hmd
  rw [hfailures]
  intro failure h
  obtain ⟨path, -, hpath⟩ := List.mem_flatMap.mp h
  exact isOfScan_scanFile run.tokens t path failure hpath

end Run

/-- The log records and failures of the emission are about no scan. -/
structure Emission.OmitsScans (e : Emission) : Prop where
  failures : e.failures.filter Failure.isOfScan = []
  events : e.events.filter Event.isOfScan = []

namespace Emission

theorem omitsScans_empty : OmitsScans {} := ⟨rfl, rfl⟩

theorem OmitsScans.append {a b : Emission} (ha : a.OmitsScans) (hb : b.OmitsScans) :
    (a.append b).OmitsScans where
  failures := by rw [failures_append, List.filter_append, ha.failures, hb.failures]; rfl
  events := by rw [events_append, List.filter_append, ha.events, hb.events]; rfl

theorem omitsScans_concat {es : List Emission} (h : ∀ e ∈ es, e.OmitsScans) :
    (concat es).OmitsScans := by
  induction es with
  | nil => exact omitsScans_empty
  | cons e es ih =>
    have hrest := ih fun e' he' => h e' (List.mem_cons_of_mem e he')
    exact (h e List.mem_cons_self).append hrest

end Emission

/-- A log record with another message is not that of a failed scan. -/
theorem filter_isOfScan_record {severity : Int} {message : String} {attrs : List LogAttr}
    (h : (lit message == lit "Failed to scan file") = false) :
    [Event.record severity message attrs].filter Event.isOfScan = [] := by
  rw [List.filter_cons, if_neg]
  · rfl
  · rw [Event.record, Event.isOfScan, h]
    exact Bool.false_ne_true

theorem filter_isOfScan_stored (loc : Location) (es : List Event) :
    (Event.stored loc :: es).filter Event.isOfScan = es.filter Event.isOfScan := rfl

namespace Run

variable {run : Run} {md : Metadata} {t : FileTree}

theorem omitsScans_of_verdict {f : Text × List TypeRecord} {e : Emission}
    (h : run.verdict md f = .error e) : e.OmitsScans := by
  rcases verdict_error_cases h with ⟨sources, rfl⟩ | ⟨details, rfl⟩ | ⟨reason, rfl⟩
  · exact ⟨rfl, filter_isOfScan_record (by decide +kernel)⟩
  · exact ⟨rfl, filter_isOfScan_record (by decide +kernel)⟩
  · exact ⟨rfl, rfl⟩

theorem omitsScans_deliver (run : Run) (t : FileTree) (a : Artifact) (content : Text) :
    (run.deliver t a content).2.OmitsScans := by
  obtain ⟨_, -, _, message, hdelivery, -, hfail, stored, severity, attrs, hevents⟩ :=
    run.deliver_cases t a content
  have hmessage : (lit message == lit "Failed to scan file") = false := by
    cases hdelivery <;> decide +kernel
  refine ⟨?_, ?_⟩
  · rw [hfail]
    cases hdelivery <;> rfl
  · rw [hevents]
    cases stored with
    | none => exact filter_isOfScan_record hmessage
    | some loc => exact (filter_isOfScan_stored loc _).trans (filter_isOfScan_record hmessage)

theorem omitsScans_emitSources (run : Run) (md : Metadata)
    (files : List (Text × List TypeRecord)) :
    ∀ t : FileTree, (run.emitSources md t files).2.OmitsScans := by
  induction files with
  | nil => exact fun _ => Emission.omitsScans_empty
  | cons f files ih =>
    intro t
    have hsource : (run.emitSource md t f.1 f.2).2.OmitsScans := by
      cases hv : run.verdict md f with
      | error e =>
        rw [emitSource_of_error hv]
        exact omitsScans_of_verdict hv
      | ok content =>
        rw [emitSource_of_ok hv]
        exact run.omitsScans_deliver t _ content
    rw [emitSources_cons]
    exact hsource.append (ih _)

theorem omitsScans_orphans (run : Run) (md : Metadata) (t : FileTree) :
    (run.orphans md t).OmitsScans := by
  unfold orphans
  split
  · refine Emission.omitsScans_concat fun e he => ?_
    obtain ⟨p, -, hp⟩ := List.mem_filterMap.mp he
    unfold orphan? at hp
    dsimp only at hp
    split at hp
    · exact absurd hp (by simp)
    · split at hp
      · exact absurd hp (by simp)
      · rw [← Option.some.inj hp]
        exact ⟨rfl, filter_isOfScan_record (by decide +kernel)⟩
  · exact Emission.omitsScans_empty

/-- Emission reports on no scan, in any mode. -/
theorem omitsScans_emit (run : Run) (t : FileTree) (md : Metadata) :
    (run.emit t md).2.OmitsScans := by
  have h := (run.omitsScans_emitSources md md.files t).append (run.omitsScans_orphans md t)
  rw [emit_eq]
  exact ⟨h.failures, h.events⟩

end Run

/-! ## What the commands return -/

namespace GenerateCommand

variable {c : GenerateCommand} {version : Text} {run : Run} {md : Metadata} {t : FileTree}

/-- The failures of scans that the command returns and logs are those of its collection. -/
theorem run_reports_scans (hcheck : c.check = false) (hrun : (c.request version).prepare = .ok run)
    (hwf : t.WellFormed) (hmd : (run.collect t).metadata = some md) (journal : Journal) :
    (c.run version journal t).failures.filter Failure.isOfScan = (run.collect t).failures ∧
      (c.run version journal t).events.filter Event.isOfScan =
        (run.collect t).events.filter Event.isOfScan := by
  have hscans : (run.collect t).failures.filter Failure.isOfScan = (run.collect t).failures :=
    List.filter_eq_self.mpr (Run.isOfScan_collect hwf hmd)
  have hsummary : ∀ as, [summary as].filter Event.isOfScan = [] :=
    fun as => filter_isOfScan_record (by decide +kernel)
  have hstart : ∀ attrs, [Event.record Severity.info "Starting reflection code generation"
      attrs].filter Event.isOfScan = [] := fun attrs => filter_isOfScan_record (by decide +kernel)
  unfold GenerateCommand.run
  rw [if_neg (by simp [hcheck]), hrun]
  dsimp only [Run.generateWith]
  rw [hmd]
  dsimp only
  have homits := run.omitsScans_emit (journal (Event.record Severity.info
    "Starting reflection code generation" [Event.text "root" c.root, Event.text "mode" c.mode.name]
      :: (run.collect t).events) t) md
  constructor
  · rw [Emission.failures_append, List.filter_append, homits.failures, List.append_nil]
    exact hscans
  · rw [Emission.events_append, ← List.singleton_append, List.filter_append, List.filter_append,
      List.filter_append, homits.events, hstart, hsummary, List.append_nil, List.append_nil]
    rfl

end GenerateCommand

namespace ScanCommand

/-- The command has put a text to its output, or into the file that it was told. -/
def Puts (c : ScanCommand) (version : Text) (t : FileTree) (text : Text) : Prop :=
  (c.output = [] ∧ (c.run version t).output = text) ∨
    (c.output ≠ [] ∧ ∃ loc, t.storeAt c.output text = .ok (loc, (c.run version t).tree))

/-- Why the command cannot put a document out: the format is unknown, or the file cannot be
stored. -/
inductive Unable (c : ScanCommand) (t : FileTree) (d : Document) : Failure → Prop where
  | format (h : Format.ofWord? c.format = none) : Unable c t d (.unsupportedFormat c.format)
  | file (format : Format) (hformat : Format.ofWord? c.format = some format) (text : Text)
    (htext : d.Encodes format text) (e : AccessError) (houtput : c.output ≠ [])
    (h : t.storeAt c.output text = .error e) : Unable c t d (.recordSetUnwritten c.output e)

/-- The command has put the document out in its format. -/
def PutsDocument (c : ScanCommand) (version : Text) (t : FileTree) (d : Document) : Prop :=
  ∃ format text, Format.ofWord? c.format = some format ∧ d.Encodes format text ∧
    c.Puts version t text

variable {c : ScanCommand} {version : Text} {run : Run} {md : Metadata} {t : FileTree}

/-- What becomes of a record set: it is put out in its format, and the failures of scans are
returned; or the one failure is returned that kept it from being put out.  The scans are logged in
all cases. -/
theorem run_cases (hrun : (c.request version).prepare = .ok run)
    (hmd : (run.collect t).metadata = some md) :
    ((c.PutsDocument version t (md.document c.outputSuffix) ∧
        (c.run version t).failures = (run.collect t).failures) ∨
      ∃ failure, c.Unable t (md.document c.outputSuffix) failure ∧
        (c.run version t).failures = [failure]) ∧
    (c.run version t).events.filter Event.isOfScan =
      (run.collect t).events.filter Event.isOfScan := by
  unfold PutsDocument Puts
  cases hformat : Format.ofWord? c.format with
  | none =>
    have heq : c.run version t =
        { tree := t, failures := [.unsupportedFormat c.format],
          events := (run.collect t).events } := by
      simp only [ScanCommand.run, hrun, hmd, hformat]
    rw [heq]
    exact ⟨.inr ⟨_, .format hformat, rfl⟩, rfl⟩
  | some format =>
    have htext := md.encodes_dump c.outputSuffix format
    by_cases houtput : c.output = []
    · have heq : c.run version t =
          { tree := t, failures := (run.collect t).failures, events := (run.collect t).events,
            output := md.dump c.outputSuffix format } := by
        simp only [ScanCommand.run, hrun, hmd, hformat, houtput, List.isEmpty_nil, if_true]
      rw [heq]
      exact ⟨.inl ⟨⟨format, _, rfl, htext, .inl ⟨houtput, rfl⟩⟩, rfl⟩, rfl⟩
    · have hnotEmpty : ¬ c.output.isEmpty = true := by simpa using houtput
      cases hstore : t.storeAt c.output (md.dump c.outputSuffix format) with
      | error e =>
        have heq : c.run version t =
            { tree := t, failures := [.recordSetUnwritten c.output e],
              events := (run.collect t).events } := by
          simp only [ScanCommand.run, hrun, hmd, hformat, if_neg hnotEmpty, hstore]
        rw [heq]
        exact ⟨.inr ⟨_, .file format hformat _ htext e houtput hstore, rfl⟩, rfl⟩
      | ok stored =>
        have heq : c.run version t =
            { tree := stored.2, failures := (run.collect t).failures,
              events := (run.collect t).events ++ [.stored stored.1,
                Event.record Severity.info "Wrote record set"
                  [Event.text "file" c.output, Event.text "format" c.format]] } := by
          simp only [ScanCommand.run, hrun, hmd, hformat, if_neg hnotEmpty, hstore]
        rw [heq]
        refine ⟨.inl ⟨⟨format, _, rfl, htext, .inr ⟨houtput, stored.1, hstore⟩⟩, rfl⟩, ?_⟩
        rw [List.filter_append, filter_isOfScan_stored,
          filter_isOfScan_record (by decide +kernel), List.append_nil]

end ScanCommand

/-- **The two commands describe the same run.**  Asked about the same sources with the same suffix,
which may be empty, they are refused for the same reasons, and the runs that they set up collect the
same from every tree.  When the tree can be walked, the document that the one command puts out lists
the path, the output and the number of types that the artifacts of a dry run have, in the same
order; and both report the same failures of scans: in what they log, and in what they return.  Only
a command that cannot put the document out, because it does not know the format or cannot store the
file, returns that failure instead. -/
theorem scan_lists_dry_run (s : ScanCommand) (g : GenerateCommand) (version : Text) (t : FileTree)
    (journal : Journal) (hwf : t.WellFormed) (hsame : SameSources s g) (hcheck : g.check = false)
    (hdry : g.dryRun = true) :
    (∀ failure, (s.request version).prepare = .error failure ↔
      (g.request version).prepare = .error failure) ∧
    ∀ run run', (s.request version).prepare = .ok run → (g.request version).prepare = .ok run' →
      run.collect t = run'.collect t ∧
      ∀ md, (run.collect t).metadata = some md →
        (md.document s.outputSuffix).fileList? =
          some ((run'.generate t).2.artifacts.map Artifact.listing) ∧
        (s.run version t).events.filter Event.isOfScan =
          (g.run version journal t).events.filter Event.isOfScan ∧
        ((s.PutsDocument version t (md.document s.outputSuffix) ∧
            (s.run version t).failures =
              (g.run version journal t).failures.filter Failure.isOfScan) ∨
          ∃ failure, s.Unable t (md.document s.outputSuffix) failure ∧
            (s.run version t).failures = [failure]) := by
  rcases hsame.prepare_cases version with ⟨failure, hs, hg⟩ |
    ⟨run, run', hs, hg, halike, hsuffix, hmode⟩
  · rw [hs, hg]
    exact ⟨fun _ => Iff.rfl, fun run run' hrun => absurd hrun (by simp)⟩
  · have hcollect := halike.collect t
    have hdryRun : run'.mode = .dryRun := by
      rw [hmode, GenerateCommand.mode, hcheck, hdry]
      rfl
    refine ⟨fun failure => by rw [hs, hg]; simp, fun _ _ hrun hrun' => ?_⟩
    obtain rfl := Except.ok.inj (hs.symm.trans hrun)
    obtain rfl := Except.ok.inj (hg.symm.trans hrun')
    refine ⟨hcollect.symm, fun md hmd => ?_⟩
    have hmd' : (run'.collect t).metadata = some md := hcollect ▸ hmd
    obtain ⟨hfailures, hevents⟩ := GenerateCommand.run_reports_scans hcheck hg hwf hmd' journal
    rw [hcollect] at hfailures hevents
    obtain ⟨hput, hlogged⟩ := ScanCommand.run_cases hs hmd
    refine ⟨?_, hlogged.trans hevents.symm, ?_⟩
    · rw [Metadata.fileList?_document, Run.listing_generate hwf hdryRun hmd', ← hsuffix]
      rfl
    · rw [hfailures]
      exact hput

/-- The command that prints the record set of a directory with three sources; tokens, patterns and
suffix are left out. -/
def mixedScan : ScanCommand where
  root := lit "src"
  excluded := standardExcludes
  tokens := { opening := [], member := [], closing := [] }
  format := lit "json"

/-- A dry run over the same directory. -/
def mixedDryRun : GenerateCommand where
  root := lit "src"
  excluded := standardExcludes
  tokens := { opening := [], member := [], closing := [] }
  options := { EmitOptions.standard with suffix := [] }
  dryRun := true

/-- Both commands tell of the one source with records, and both report that another one cannot be
scanned. -/
theorem mixedScan_lists_dry_run :
    Run.mixedTree.WellFormed ∧ SameSources mixedScan mixedDryRun ∧ mixedDryRun.check = false ∧
      mixedDryRun.dryRun = true ∧
      (mixedDryRun.request (lit "1.2.3")).prepare = .ok (Run.mixedRun.inMode .dryRun) ∧
      (Run.mixedRun.collect Run.mixedTree).metadata = some Run.mixedMetadata ∧
      ((Run.mixedRun.inMode .dryRun).generate Run.mixedTree).2.artifacts.map Artifact.listing =
        [(lit "src/a.h", lit "src/a_reflection.cpp", 1)] ∧
      mixedScan.PutsDocument (lit "1.2.3") Run.mixedTree
        (Run.mixedMetadata.document mixedScan.outputSuffix) ∧
      (mixedScan.run (lit "1.2.3") Run.mixedTree).failures =
        (mixedDryRun.run (lit "1.2.3") Journal.none Run.mixedTree).failures.filter
          Failure.isOfScan ∧
      (Run.mixedRun.collect Run.mixedTree).failures.length = 1 := by
  have hwf : Run.mixedTree.WellFormed := by decide +kernel
  have hsame : SameSources mixedScan mixedDryRun := ⟨rfl, rfl, rfl, rfl, rfl⟩
  have hscan : (mixedScan.request (lit "1.2.3")).prepare = .ok (Run.mixedRun.inMode .write) := by
    decide +kernel
  have hdry : (mixedDryRun.request (lit "1.2.3")).prepare = .ok (Run.mixedRun.inMode .dryRun) := by
    decide +kernel
  have hmd : (Run.mixedRun.collect Run.mixedTree).metadata = some Run.mixedMetadata := by
    rw [Run.collect_of_find (FileTree.stat_of_lstat Run.lstat_mixedRun) Run.find_mixedRun]
    decide +kernel
  have hfailures : (Run.mixedRun.collect Run.mixedTree).failures.length = 1 := by
    rw [Run.collect_failures_of_find hmd Run.find_mixedRun]
    decide +kernel
  obtain ⟨-, hruns⟩ := scan_lists_dry_run mixedScan mixedDryRun (lit "1.2.3") Run.mixedTree
    Journal.none hwf hsame rfl rfl
  obtain ⟨hlist, -, hput⟩ :=
    (hruns _ _ hscan hdry).2 Run.mixedMetadata (Run.metadata_inMode hmd .write)
  obtain ⟨hputs, hequal⟩ := hput.resolve_right <| by
    rintro ⟨failure, hunable, -⟩
    cases hunable with
    | format h => exact absurd h (by decide +kernel)
    | file _ _ _ _ _ houtput _ => exact absurd rfl houtput
  refine ⟨hwf, hsame, rfl, rfl, hdry, hmd, ?_, hputs, hequal, hfailures⟩
  rw [Metadata.fileList?_document, Option.some.injEq] at hlist
  rw [← hlist]
  decide +kernel

end ReflectGen

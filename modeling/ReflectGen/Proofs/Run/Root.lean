import ReflectGen.Proofs.Run.Frame
import ReflectGen.Proofs.Scan.Basic

/-!
# The directory that a run is given

A run looks for sources below its root.  Several paths may denote the same directory, and what is
found there should not depend on which of them was given: the same files are discovered in the same
order, with the same records and the same failures, only each path starts as the root does.

This holds for a root that *is* a directory, also when links lead to it.  A root that is a link
itself passes for a directory, since the link is followed when the root is looked at first; but
nothing is discovered behind it, since discovery does not follow links.

## Why the path of a file can be replaced

A scan knows the path of its file only as the label of its diagnostics, so relabelling the path
commutes with every step of the scan (`Scan.step_relocate`, `Scan.run_relocate`).  Discovered paths
have a common lead, so they come in the order of what follows it, whatever the lead is
(`Discovery.find_relocate`).

* `Path.lead`, `Path.relocate`: what paths below a root start with, and its replacement.
* `FileTree.Direct`: the root is the directory, and all below it can be followed.
* `FileTree.Direct.load`: what is read below such a root.
* `Run.collect_sees_directory`: a run sees the directory that it was given.
* `Run.collect_of_link`: a run over a link sees nothing.
-/

namespace ReflectGen

/-! ## Paths below a root -/

namespace Path

/-- What the paths of all files below a directory start with. -/
def lead (root : Text) : Text := dirText (isAbsolute root) (components root)

/-- The path of a file below a directory is its lead, followed by the relative path. -/
theorem join_eq_lead {root : Text} (hroot : root ≠ []) {ns : List Text} (hne : ns ≠ [])
    (hns : ∀ n ∈ ns, IsName n) :
    join root (Text.join [slash] ns) = lead root ++ Text.join [slash] ns := by
  obtain ⟨dirs, n, rfl⟩ := (List.eq_nil_or_concat ns).resolve_left hne
  rw [List.concat_eq_append] at *
  rw [join_eq hroot (fun d hd => hns d (List.mem_append_left [n] hd)) (hns n (by simp)),
    join_concat, lead, dirText, dirText, List.flatMap_append]
  simp only [List.append_assoc]

/-- The path below another directory instead. -/
def relocate (root root' path : Text) : Text := lead root' ++ path.drop (lead root).length

@[simp] theorem relocate_lead (root root' rest : Text) :
    relocate root root' (lead root ++ rest) = lead root' ++ rest := by
  rw [relocate, List.drop_left]

end Path

/-! ## Scans under another path -/

/-- The diagnostic with its path replaced. -/
def Diagnostic.relocate (f : Text → Text) (d : Diagnostic) : Diagnostic :=
  { d with path := f d.path }

namespace Scan

/-- The state with the paths of its diagnostics replaced. -/
def State.relocate (f : Text → Text) (s : State) : State :=
  { s with diagnostics := s.diagnostics.map (Diagnostic.relocate f) }

/-- The outcome with the paths of its diagnostics replaced. -/
def relocate (f : Text → Text) (s : Scan) : Scan :=
  { s with diagnostics := s.diagnostics.map (Diagnostic.relocate f) }

variable (f : Text → Text) (path : Text) (s : State)

theorem report_relocate (n : Nat) (c : Cause) :
    (s.relocate f).report (f path) n c = (s.report path n c).relocate f := rfl

theorem openBlock_relocate (n : Nat) (name : Text) :
    openBlock (f path) (s.relocate f) n name = (openBlock path s n name).relocate f := by
  obtain ⟨records, diagnostics, _ | b⟩ := s <;> rfl

theorem addMember_relocate (n : Nat) (parent valueType name : Text) :
    addMember (f path) (s.relocate f) n parent valueType name =
      (addMember path s n parent valueType name).relocate f := by
  obtain ⟨records, diagnostics, _ | b⟩ := s
  · rfl
  · simp only [addMember, State.relocate]
    split <;> rfl

theorem closeBlock_relocate (n : Nat) (name : Text) :
    closeBlock (f path) (s.relocate f) n name = (closeBlock path s n name).relocate f := by
  obtain ⟨records, diagnostics, _ | b⟩ := s
  · rfl
  · simp only [closeBlock, State.relocate]
    split <;> rfl

/-- A step labels what it reports, and does not look at the labels. -/
theorem step_relocate (l : MarkerLine) :
    step (f path) (s.relocate f) l = (step path s l).relocate f := by
  unfold step
  split
  · exact report_relocate f path s _ _
  · split
    · split
      · exact report_relocate f path s _ _
      · exact openBlock_relocate f path s _ _
    · exact report_relocate f path s _ _
    · split
      · exact report_relocate f path s _ _
      · exact addMember_relocate f path s _ _ _ _
    · exact report_relocate f path s _ _
    · split
      · exact report_relocate f path s _ _
      · exact closeBlock_relocate f path s _ _
    · exact report_relocate f path s _ _

theorem states_relocate (ls : List MarkerLine) :
    states (f path) ls = (states path ls).relocate f := by
  have hfold : ∀ s : State, ls.foldl (step (f path)) (s.relocate f) =
      (ls.foldl (step path) s).relocate f := by
    induction ls with
    | nil => exact fun _ => rfl
    | cons l ls ih =>
      intro s
      rw [List.foldl_cons, List.foldl_cons, step_relocate, ih]
  exact hfold {}

theorem finish_relocate : finish (f path) (s.relocate f) = (finish path s).relocate f := by
  obtain ⟨records, diagnostics, _ | b⟩ := s <;> rfl

/-- A text scanned under another path gives the same, up to the path. -/
theorem run_relocate (tokens : Tokens) (content : Text) :
    run tokens (f path) content = (run tokens path content).relocate f := by
  unfold run
  dsimp only
  rw [states_relocate, finish_relocate]
  split
  · simp only [relocate, State.relocate, List.map_reverse]
  · rfl

end Scan

/-- The failure with the paths of the scanned file replaced; other failures name no such file. -/
def Failure.relocate (f : Text → Text) : Failure → Failure
  | .diagnostic d => .diagnostic (d.relocate f)
  | .lineTooLong path => .lineTooLong (f path)
  | .unreadable path e => .unreadable (f path) { e with path := f e.path }
  | failure => failure

/-- The record set of the same files under other paths. -/
def Metadata.relocate (f : Text → Text) (root : Text) (md : Metadata) : Metadata where
  root := root
  files := md.files.map fun file => (f file.1, file.2)
  unannotated := md.unannotated.map f

theorem Scan.failures_relocate (f : Text → Text) (path : Text) (s : Scan) :
    (s.relocate f).failures (f path) = (s.failures path).map (Failure.relocate f) := by
  unfold Scan.failures
  show (if s.brokenOff then [Failure.lineTooLong (f path)]
    else (s.diagnostics.map (Diagnostic.relocate f)).map .diagnostic) = _
  split
  · rfl
  · rw [List.map_map, List.map_map]
    rfl

/-! ## Roots that are directories -/

/-- The path is that of a directory and not of a link to one, the path as it is written in front of
names denotes the same directory, and all paths below it can be followed. -/
structure FileTree.Direct (t : FileTree) (root : Text) (top : Location) : Prop where
  real : t.lstat root = .ok (top, .directory)
  cleaned : t.stat (Path.clean root) = .ok (top, .directory)
  followed : ∀ r ∈ t.below top,
    FileTree.refusal? (Path.join root (Text.join [Path.slash] r.1)) r.1 = none

namespace FileTree

variable {t : FileTree} {root root' : Text} {top : Location} {ns : List Text}

theorem WellFormed.isName_below (hwf : t.WellFormed) {r : List Text × Entry}
    (hr : r ∈ t.below top) : r.1 ≠ [] ∧ ∀ n ∈ r.1, Path.IsName n := by
  obtain ⟨hne, hmem⟩ := mem_below_iff.mp hr
  exact ⟨hne, fun n hn => hwf.isName _ hmem n (List.mem_append_right top hn)⟩

theorem Direct.root_ne_nil (h : t.Direct root top) : root ≠ [] := Discovery.ne_nil_of_lstat h.real

theorem Direct.join_eq (hwf : t.WellFormed) (h : t.Direct root top) {r : List Text × Entry}
    (hr : r ∈ t.below top) :
    Path.join root (Text.join [Path.slash] r.1) =
      Path.lead root ++ Text.join [Path.slash] r.1 := by
  obtain ⟨hne, hnames⟩ := hwf.isName_below hr
  exact Path.join_eq_lead h.root_ne_nil hne hnames

/-- A walk from such a root comes to all directories. -/
theorem Direct.entered (hwf : t.WellFormed) (h : t.Direct root top) (exc : List Pattern) :
    Discovery.Entered t root top exc := by
  refine ⟨h.real, fun ns hne hdir _ => ?_⟩
  have hres := Discovery.resolve_place hwf h.root_ne_nil h.cleaned hne hdir
  have hr := mem_below_of_entry? hne hdir
  have hfollowed := h.followed _ hr
  rw [← Discovery.place_of_ne_nil root hne] at hfollowed
  rw [hfollowed] at hres
  exact locate_eq_ok_iff.mpr hres

/-- A file below such a root is read through its path. -/
theorem Direct.load (hwf : t.WellFormed) (h : t.Direct root top) (hne : ns ≠ []) {content : Text}
    (hfile : t.entry? (top ++ ns) = some (.file content)) :
    t.load (Path.lead root ++ Text.join [Path.slash] ns) = .ok content := by
  have hr := mem_below_of_entry? hne hfile
  obtain ⟨-, hnames⟩ := hwf.isName_below hr
  have href := h.followed _ hr
  rw [h.join_eq hwf hr] at href
  dsimp only at href hnames
  obtain ⟨dirs, n, rfl⟩ := (List.eq_nil_or_concat ns).resolve_left hne
  rw [List.concat_eq_append] at *
  rw [← List.append_assoc] at hfile
  have hdirs : ∀ d ∈ dirs, Path.IsName d := fun d hd => hnames d (List.mem_append_left [n] hd)
  have hn : Path.IsName n := hnames n (by simp)
  have hbelow : Discovery.Below t root top
      (Path.lead root ++ Text.join [Path.slash] (dirs ++ [n])) dirs n := by
    refine ⟨hdirs, hn, ⟨content, hfile⟩, ?_⟩
    rw [← Path.join_eq_lead h.root_ne_nil hne hnames, Path.join_eq h.root_ne_nil hdirs hn]
  have hroute := hbelow.route hwf h.cleaned
  have hresolve := hroute.resolve_of_entry true fun _ target _ hlink =>
    absurd (hfile.symm.trans hlink) (by simp)
  rw [href, hfile] at hresolve
  exact load_eq_ok_iff.mpr ⟨_, hresolve⟩

end FileTree

namespace Discovery

variable {t : FileTree} {root root' : Text} {top : Location}

theorem kept?_relocate (hwf : t.WellFormed) (h : t.Direct root top) (h' : t.Direct root' top)
    (keep : List Text → Bool) {r : List Text × Entry} (hr : r ∈ t.below top) :
    kept? keep root' r = (kept? keep root r).map (Path.relocate root root') := by
  unfold kept?
  rw [h.join_eq hwf hr, h'.join_eq hwf hr]
  split
  · split
    · rw [Option.map_some, Path.relocate_lead]
    · rfl
  · rfl

/-- The candidates below such a root, by the lead of their paths. -/
theorem mem_candidates_of_direct (hwf : t.WellFormed) (h : t.Direct root top)
    {inc exc : List Pattern} {path : Text} :
    path ∈ (t.below top).filterMap (kept? (isCandidate inc exc) root) ↔
      ∃ ns, ns ≠ [] ∧ (∃ content, t.entry? (top ++ ns) = some (.file content)) ∧
        isCandidate inc exc ns = true ∧
        path = Path.lead root ++ Text.join [Path.slash] ns := by
  rw [mem_kept_iff hwf]
  refine exists_congr fun ns => and_congr_right fun hne => and_congr_right ?_
  rintro ⟨content, hfile⟩
  rw [h.join_eq hwf (FileTree.mem_below_of_entry? hne hfile)]

/-- Paths with a common lead are sorted by what follows it, so they keep their order under another
lead. -/
theorem sort_relocate (hwf : t.WellFormed) (h : t.Direct root top) (root' : Text)
    (inc exc : List Pattern) :
    (Text.sort ((t.below top).filterMap (kept? (isCandidate inc exc) root))).map
        (Path.relocate root root') =
      Text.sort (((t.below top).filterMap (kept? (isCandidate inc exc) root)).map
        (Path.relocate root root')) := by
  refine List.map_mergeSort fun p hp q hq => ?_
  obtain ⟨ns, -, -, -, rfl⟩ := (mem_candidates_of_direct hwf h).mp hp
  obtain ⟨ns', -, -, -, rfl⟩ := (mem_candidates_of_direct hwf h).mp hq
  rw [Path.relocate_lead, Path.relocate_lead, Text.le_append_left, Text.le_append_left]

/-- What is found below a directory does not depend on the path that leads there, up to that
path. -/
theorem find_relocate (hwf : t.WellFormed) (h : t.Direct root top) (h' : t.Direct root' top)
    (included excluded : List Text) :
    find t root' included excluded =
      (find t root included excluded).map (List.map (Path.relocate root root')) := by
  cases hinc : Pattern.readAll included with
  | error e => simp only [find, hinc, Except.map]
  | ok inc =>
    cases hexc : Pattern.readAll excluded with
    | error e => simp only [find, hinc, hexc, Except.map]
    | ok exc =>
      -- both roots lead to the same entries; what has to be seen is that sorting does not tell them
      -- apart
      rw [find_of_entered hwf (h.entered hwf exc) hinc hexc,
        find_of_entered hwf (h'.entered hwf exc) hinc hexc]
      dsimp only [Except.map]
      rw [sort_relocate hwf h, List.map_filterMap,
        List.filterMap_congr fun r hr => kept?_relocate hwf h h' _ hr]

/-- The files below the directory are found, and read with their contents. -/
theorem find_of_direct (hwf : t.WellFormed) (h : t.Direct root top) {included excluded : List Text}
    {inc exc : List Pattern} (hinc : Pattern.readAll included = .ok inc)
    (hexc : Pattern.readAll excluded = .ok exc) :
    ∃ paths, find t root included excluded = .ok paths ∧
      ∀ path content, (path ∈ paths ∧ t.load path = .ok content) ↔
        ∃ ns, ns ≠ [] ∧ t.entry? (top ++ ns) = some (.file content) ∧
          isCandidate inc exc ns = true ∧
          path = Path.lead root ++ Text.join [Path.slash] ns := by
  refine ⟨Text.sort ((t.below top).filterMap (kept? (isCandidate inc exc) root)), ?_, fun path content => ?_⟩
  · exact find_of_entered hwf (h.entered hwf exc) hinc hexc
  · rw [Text.mem_sort, mem_candidates_of_direct hwf h]
    constructor
    · rintro ⟨⟨ns, hne, ⟨content', hfile⟩, hcandidate, rfl⟩, hload⟩
      rw [h.load hwf hne hfile] at hload
      obtain rfl := Except.ok.inj hload
      exact ⟨ns, hne, hfile, hcandidate, rfl⟩
    · rintro ⟨ns, hne, hfile, hcandidate, rfl⟩
      exact ⟨⟨ns, hne, ⟨content, hfile⟩, hcandidate, rfl⟩, h.load hwf hne hfile⟩

/-- A file that is found is read alike through both roots. -/
theorem load_relocate (hwf : t.WellFormed) (h : t.Direct root top) (h' : t.Direct root' top)
    {included excluded paths : List Text} (hfind : find t root included excluded = .ok paths)
    {path : Text} (hpath : path ∈ paths) :
    ∃ content, t.load path = .ok content ∧
      t.load (Path.relocate root root' path) = .ok content := by
  obtain ⟨inc, exc, -, -, -, rfl⟩ := find_eq_ok hwf h.real h.cleaned hfind
  rw [Text.mem_sort, mem_candidates_of_direct hwf h] at hpath
  obtain ⟨ns, hne, ⟨content, hfile⟩, -, rfl⟩ := hpath
  rw [Path.relocate_lead]
  exact ⟨content, h.load hwf hne hfile, h'.load hwf hne hfile⟩

end Discovery

namespace Run

variable {run : Run} {t : FileTree} {root' : Text} {top : Location}

/-- The same run over another root. -/
def atRoot (run : Run) (root : Text) : Run := { run with root := root }

section

variable {f : Text → Text} {path : Text}

/-- A file that is read alike under another path is scanned alike. -/
theorem scanFile_relocate (tokens : Tokens)
    (h : ∃ content, t.load path = .ok content ∧ t.load (f path) = .ok content) :
    (scanFile tokens t (f path)).scan.records = (scanFile tokens t path).scan.records ∧
      (scanFile tokens t (f path)).failures =
        (scanFile tokens t path).failures.map (Failure.relocate f) := by
  obtain ⟨content, hload, hload'⟩ := h
  rw [scanFile, scanFile, hload, hload']
  dsimp only
  rw [Scan.run_relocate, Scan.failures_relocate]
  exact ⟨rfl, rfl⟩

theorem scanned?_relocate (run : Run) (root' : Text)
    (h : ∃ content, t.load path = .ok content ∧ t.load (f path) = .ok content) :
    (run.atRoot root').scanned? t (f path) =
      (run.scanned? t path).map fun file => (f file.1, file.2) := by
  obtain ⟨hrecords, hfailures⟩ := scanFile_relocate run.tokens h
  unfold scanned?
  dsimp only [atRoot]
  rw [hrecords, hfailures, List.isEmpty_map]
  split <;> rfl

theorem isUnannotated_relocate (run : Run) (root' : Text)
    (h : ∃ content, t.load path = .ok content ∧ t.load (f path) = .ok content) :
    (run.atRoot root').isUnannotated t (f path) = run.isUnannotated t path := by
  obtain ⟨hrecords, hfailures⟩ := scanFile_relocate run.tokens h
  unfold isUnannotated
  dsimp only [atRoot]
  rw [hrecords, hfailures, List.isEmpty_map]

end

theorem root_scanFiles {paths : List Text} : ∀ {md : Metadata},
    (run.scanFiles t paths md).1.root = md.root := by
  induction paths with
  | nil => exact rfl
  | cons path paths ih =>
    intro md
    show (run.scanFiles t paths (addScan md path (scanFile run.tokens t path))).1.root = _
    rw [ih]
    unfold addScan Metadata.add
    split
    · split <;> rfl
    · rfl

/-- What a run collects from the paths that it has found. -/
theorem collect_eq_of_find (hwf : t.WellFormed) (hstat : t.stat run.root = .ok (top, .directory))
    {paths : List Text} (hfind : Discovery.find t run.root run.included run.excluded = .ok paths) :
    (run.collect t).metadata = some {
        root := run.root
        files := paths.filterMap (run.scanned? t)
        unannotated := paths.filter (run.isUnannotated t) } ∧
      (run.collect t).failures =
        paths.flatMap fun path => (scanFile run.tokens t path).failures := by
  have hmd := collect_of_find hstat hfind
  obtain ⟨paths', hfind', -, hfiles, hbare, hfailures⟩ := exists_paths_of_collect hwf hmd
  obtain rfl := Except.ok.inj (hfind.symm.trans hfind')
  have hroot : (run.scanFiles t paths (Metadata.empty run.root)).1.root = run.root := root_scanFiles
  refine ⟨?_, hfailures⟩
  rw [hmd, ← hfiles, ← hbare]
  generalize (run.scanFiles t paths (Metadata.empty run.root)).1 = md at hroot
  rw [← hroot]

/-- Runs over two roots of the same directory collect the same, up to the roots. -/
theorem collect_relocate (hwf : t.WellFormed) (h : t.Direct run.root top)
    (h' : t.Direct root' top) :
    ((run.atRoot root').collect t).metadata =
        (run.collect t).metadata.map
          (Metadata.relocate (Path.relocate run.root root') root') ∧
      ((run.atRoot root').collect t).failures =
        (run.collect t).failures.map (Failure.relocate (Path.relocate run.root root')) := by
  have hstat := FileTree.stat_of_lstat h.real
  have hstat' : t.stat (run.atRoot root').root = .ok (top, .directory) :=
    FileTree.stat_of_lstat h'.real
  have hrelocate := Discovery.find_relocate hwf h h' run.included run.excluded
  cases hfind : Discovery.find t run.root run.included run.excluded with
  | error e =>
    -- only a pattern can be wrong, and the message names no root
    rw [hfind] at hrelocate
    have hfind' : Discovery.find t (run.atRoot root').root (run.atRoot root').included
        (run.atRoot root').excluded = .error e := hrelocate
    unfold collect
    rw [hstat, hstat', hfind, hfind']
    exact ⟨rfl, rfl⟩
  | ok paths =>
    rw [hfind] at hrelocate
    have hfind' : Discovery.find t (run.atRoot root').root (run.atRoot root').included
        (run.atRoot root').excluded = .ok (paths.map (Path.relocate run.root root')) := hrelocate
    obtain ⟨hmd, hfailures⟩ := collect_eq_of_find hwf hstat hfind
    obtain ⟨hmd', hfailures'⟩ := collect_eq_of_find hwf hstat' hfind'
    have hload : ∀ path ∈ paths, ∃ content, t.load path = .ok content ∧
        t.load (Path.relocate run.root root' path) = .ok content :=
      fun path hpath => Discovery.load_relocate hwf h h' hfind hpath
    have hfiles : (paths.map (Path.relocate run.root root')).filterMap
        ((run.atRoot root').scanned? t) = (paths.filterMap (run.scanned? t)).map
          fun file => (Path.relocate run.root root' file.1, file.2) := by
      rw [List.filterMap_map, List.map_filterMap]
      exact List.filterMap_congr fun path hpath => run.scanned?_relocate root' (hload path hpath)
    have hbare : (paths.map (Path.relocate run.root root')).filter
        ((run.atRoot root').isUnannotated t) =
          (paths.filter (run.isUnannotated t)).map (Path.relocate run.root root') := by
      rw [List.filter_map]
      exact congrArg _ (List.filter_congr fun path hpath =>
        run.isUnannotated_relocate root' (hload path hpath))
    rw [hmd, hmd', hfailures, hfailures', hfiles, hbare, List.flatMap_map, List.map_flatMap]
    refine ⟨rfl, List.flatMap_congr fun path hpath => ?_⟩
    exact (scanFile_relocate run.tokens (hload path hpath)).2

/-! ## What a run sees -/

/-- **A run sees the directory that it was given.**  Below a root that is a directory itself, be it
reached through links or not, a run finds the files of that directory that its patterns select,
reads each of them with its own content, and collects what the scans of these files give.  Over any
other such root of the same directory it collects the same, with the paths below the one root
replaced by those below the other. -/
theorem collect_sees_directory (run : Run) (root' : Text) (t : FileTree) (top : Location)
    (hwf : t.WellFormed) (hroot : t.Direct run.root top) (hroot' : t.Direct root' top) :
    (∀ inc exc, Pattern.readAll run.included = .ok inc → Pattern.readAll run.excluded = .ok exc →
      ∃ paths, Discovery.find t run.root run.included run.excluded = .ok paths ∧
        (∀ path content, (path ∈ paths ∧ t.load path = .ok content) ↔
          ∃ ns, ns ≠ [] ∧ t.entry? (top ++ ns) = some (.file content) ∧
            Discovery.isCandidate inc exc ns = true ∧
            path = Path.lead run.root ++ Text.join [Path.slash] ns) ∧
        (run.collect t).metadata = some {
            root := run.root
            files := paths.filterMap (run.scanned? t)
            unannotated := paths.filter (run.isUnannotated t) } ∧
        (run.collect t).failures =
          paths.flatMap fun path => (scanFile run.tokens t path).failures) ∧
    ((run.atRoot root').collect t).metadata =
      (run.collect t).metadata.map (Metadata.relocate (Path.relocate run.root root') root') ∧
    ((run.atRoot root').collect t).failures =
      (run.collect t).failures.map (Failure.relocate (Path.relocate run.root root')) := by
  refine ⟨fun inc exc hinc hexc => ?_, collect_relocate hwf hroot hroot'⟩
  obtain ⟨paths, hfind, hpaths⟩ := Discovery.find_of_direct hwf hroot hinc hexc
  exact ⟨paths, hfind, hpaths,
    collect_eq_of_find hwf (FileTree.stat_of_lstat hroot.real) hfind⟩

/-- A directory with a source that has records, one that cannot be scanned, and one without records;
and a link to the directory beside it. -/
def linkedTree : FileTree where
  entries := [
    ([lit "real"], .directory),
    ([lit "real", lit "a.h"], .file (sourceText (lit "A"))),
    ([lit "real", lit "b.h"], .file (lit "VX_RF_DATA_END(B)\n")),
    ([lit "real", lit "c.h"], .file []),
    ([lit "link"], .link (lit "real"))]
  workdir := []

/-- A run over the directory. -/
def realRun : Run := writeRun (lit "real") standardIncludes

/-- What is collected from the directory. -/
def realMetadata : Metadata where
  root := lit "real"
  files := [(lit "real/a.h", [{ name := lit "A", members := [], line := 2 }])]
  unannotated := [lit "real/c.h"]

theorem collect_realRun : (realRun.collect linkedTree).metadata = some realMetadata ∧
    (realRun.collect linkedTree).failures.length = 1 := by
  have hreal : linkedTree.lstat realRun.root = .ok ([lit "real"], .directory) := by decide +kernel
  have hfind : Discovery.find linkedTree realRun.root realRun.included realRun.excluded =
      .ok [lit "real/a.h", lit "real/b.h", lit "real/c.h"] := by
    refine Discovery.find_of_sorted (by decide +kernel) (by decide +kernel) hreal ?_ ?_
    · decide +kernel
    · decide +kernel
  have hcollect := collect_eq_of_find (by decide +kernel) (FileTree.stat_of_lstat hreal) hfind
  rw [hcollect.1, hcollect.2]
  decide +kernel

/-- A slash behind the link leads into the directory, so the run collects there what it collects in
the directory itself. -/
theorem linkedTree_sees_directory :
    linkedTree.WellFormed ∧ linkedTree.Direct (lit "real") [lit "real"] ∧
      linkedTree.Direct (lit "link/") [lit "real"] ∧
      ((realRun.atRoot (lit "link/")).collect linkedTree).metadata = some {
          root := lit "link/"
          files := [(lit "link/a.h", [{ name := lit "A", members := [], line := 2 }])]
          unannotated := [lit "link/c.h"] } ∧
      ((realRun.atRoot (lit "link/")).collect linkedTree).failures.length = 1 := by
  have hwf : linkedTree.WellFormed := by decide +kernel
  have hreal : linkedTree.Direct (lit "real") [lit "real"] :=
    ⟨by decide +kernel, by decide +kernel, by decide +kernel⟩
  have hlink : linkedTree.Direct (lit "link/") [lit "real"] :=
    ⟨by decide +kernel, by decide +kernel, by decide +kernel⟩
  obtain ⟨-, hmd, hfailures⟩ := collect_sees_directory realRun (lit "link/") linkedTree _ hwf
    hreal hlink
  refine ⟨hwf, hreal, hlink, ?_, ?_⟩
  · rw [hmd, collect_realRun.1]
    decide +kernel
  · rw [hfailures, List.length_map, collect_realRun.2]

/-- A root that is a link passes for the directory behind it, but nothing is found there, and no
failure tells of it. -/
theorem collect_of_link {loc : Location} {target : Text} {paths : List Text}
    (hstat : t.stat run.root = .ok (top, .directory))
    (hlink : t.lstat run.root = .ok (loc, .link target))
    (hfind : Discovery.find t run.root run.included run.excluded = .ok paths) :
    (run.collect t).metadata = some (Metadata.empty run.root) ∧ (run.collect t).failures = [] := by
  rcases Discovery.find_cases hfind with ⟨top', _, _, _, hreal, -⟩ | ⟨-, rfl⟩
  · exact absurd (hlink.symm.trans hreal) (by simp)
  · have hmd := collect_of_find hstat hfind
    exact ⟨hmd, collect_failures_of_find hmd hfind⟩

/-- Without the slash nothing is collected, although the link denotes the directory with all its
files. -/
theorem linkedTree_hides_directory :
    linkedTree.WellFormed ∧
      linkedTree.stat (lit "link") = .ok ([lit "real"], .directory) ∧
      linkedTree.stat (lit "real") = .ok ([lit "real"], .directory) ∧
      ((realRun.atRoot (lit "link")).collect linkedTree).metadata =
        some (Metadata.empty (lit "link")) ∧
      ((realRun.atRoot (lit "link")).collect linkedTree).failures = [] ∧
      ((realRun.atRoot (lit "link")).collect linkedTree).metadata ≠
        (realRun.collect linkedTree).metadata.map
          (Metadata.relocate (Path.relocate (lit "real") (lit "link")) (lit "link")) ∧
      ((realRun.atRoot (lit "link")).collect linkedTree).failures ≠
        (realRun.collect linkedTree).failures.map
          (Failure.relocate (Path.relocate (lit "real") (lit "link"))) := by
  have hstat : linkedTree.stat (realRun.atRoot (lit "link")).root =
      .ok ([lit "real"], .directory) := by decide +kernel
  have hlink : linkedTree.lstat (realRun.atRoot (lit "link")).root =
      .ok ([lit "link"], .link (lit "real")) := by decide +kernel
  have hfind : Discovery.find linkedTree (realRun.atRoot (lit "link")).root
      (realRun.atRoot (lit "link")).included (realRun.atRoot (lit "link")).excluded = .ok [] := by
    unfold Discovery.find
    rw [Discovery.readAll_eq_ok (by decide +kernel), Discovery.readAll_eq_ok (by decide +kernel),
      hlink]
  obtain ⟨hmd, hfailures⟩ := collect_of_link hstat hlink hfind
  refine ⟨by decide +kernel, hstat, by decide +kernel, hmd, hfailures, ?_, ?_⟩
  · rw [hmd, collect_realRun.1]
    decide +kernel
  · rw [hfailures]
    intro hnone
    have hlength := congrArg List.length hnone
    rw [List.length_map, collect_realRun.2] at hlength
    exact absurd hlength (by decide)

end Run

end ReflectGen

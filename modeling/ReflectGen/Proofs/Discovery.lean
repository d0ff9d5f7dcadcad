import ReflectGen.Proofs.Discovery.Walk
import ReflectGen.Proofs.Text.Order

/-!
# Discovered files

The candidate files of a directory are files below it, each under the cleaned path of the directory
with its own names behind it.  Different files have different names, so no path is discovered twice.

* `Path.dirText_append_inj`: the components of a path are found again.
* `Discovery.isCandidate`: the rule for one file, given by its relative path.
* `Discovery.Below`: the path of a file below a directory.
* `Discovery.find_cases`: what is found, by what the root is.
* `Discovery.find_of_entered`: a walk finds the files that the rule selects.
* `Discovery.below_of_mem_find`, `Discovery.nodup_of_find`: what is discovered, once each.
* `Discovery.find_congr`: what is discovered in another tree.
-/

namespace ReflectGen

namespace Path

/-- The components of a path that is written out by them are found again. -/
theorem dirText_append_inj (rooted : Bool) {dirs dirs' : List Text} {k k' : Text}
    (hdirs : ∀ d ∈ dirs, slash ∉ d) (hdirs' : ∀ d ∈ dirs', slash ∉ d) (hk : slash ∉ k)
    (hk' : slash ∉ k') (h : dirText rooted dirs ++ k = dirText rooted dirs' ++ k') :
    dirs = dirs' ∧ k = k' := by
  have hsplit := congrArg (Text.splitOn slash) h
  rw [splitOn_dirText_append rooted hdirs hk, splitOn_dirText_append rooted hdirs' hk',
    List.append_assoc, List.append_assoc, List.append_cancel_left_eq] at hsplit
  obtain ⟨h₁, h₂⟩ := List.append_inj' hsplit rfl
  exact ⟨h₁, List.singleton_inj.mp h₂⟩

end Path

namespace Discovery

open ReflectGen.Path (dirText components IsName)

variable {t : FileTree} {root path : Text} {top : Location}

/-! ## The rule for one file -/

/-- The paths of the directories above a file, given by the names that lead to it. -/
def ancestors (names : List Text) : List Text :=
  (List.range (names.length - 1)).map fun n => Text.join [Path.slash] (names.take (n + 1))

/-- Is the file at the end of these names a candidate? -/
def isCandidate (included excluded : List Pattern) (names : List Text) : Bool :=
  let path := Text.join [Path.slash] names
  !(ancestors names).any (isSkipped excluded) && !Pattern.selects excluded path &&
    Pattern.selects included path

/-- The path of the file at the end of these names, if it is one and is kept. -/
def kept? (keep : List Text → Bool) (root : Text) (e : List Text × Entry) : Option Text :=
  match e.2 with
  | .file _ => if keep e.1 then some (Path.join root (Text.join [Path.slash] e.1)) else none
  | _ => none

theorem mem_ancestors_iff {dirs : List Text} {n : Text} :
    path ∈ ancestors (dirs ++ [n]) ↔
      ∃ front ≠ [], front <+: dirs ∧ path = Text.join [Path.slash] front := by
  have hlength : (dirs ++ [n]).length - 1 = dirs.length := by simp
  rw [ancestors, hlength, List.mem_map]
  constructor
  · rintro ⟨i, hi, rfl⟩
    rw [List.mem_range] at hi
    refine ⟨dirs.take (i + 1), ?_, List.take_prefix _ _, ?_⟩
    · rw [← List.length_pos_iff, List.length_take]
      omega
    · rw [List.take_append_of_le_length hi]
  · rintro ⟨front, hne, hfront, rfl⟩
    have hpos := List.length_pos_iff.mpr hne
    have hle := hfront.length_le
    refine ⟨front.length - 1, List.mem_range.mpr (by omega), ?_⟩
    rw [Nat.sub_add_cancel hpos, List.take_append_of_le_length hle,
      ← List.prefix_iff_eq_take.mp hfront]

/-- A candidate is a selected file that lies in no skipped directory. -/
theorem isCandidate_concat_iff {inc exc : List Pattern} {dirs : List Text} {n : Text} :
    isCandidate inc exc (dirs ++ [n]) = true ↔
      isSelected inc exc (Text.join [Path.slash] (dirs ++ [n])) = true ∧ ¬ IsPruned exc dirs := by
  have hpruned : (ancestors (dirs ++ [n])).any (isSkipped exc) = true ↔ IsPruned exc dirs := by
    rw [List.any_eq_true]
    constructor
    · rintro ⟨path, hpath, hskip⟩
      obtain ⟨front, hne, hfront, rfl⟩ := mem_ancestors_iff.mp hpath
      exact ⟨front, hne, hfront, hskip⟩
    · rintro ⟨front, hne, hfront, hskip⟩
      exact ⟨_, mem_ancestors_iff.mpr ⟨front, hne, hfront, rfl⟩, hskip⟩
  unfold isCandidate isSelected
  dsimp only
  rw [Bool.and_assoc, Bool.and_eq_true, Bool.not_eq_true', ← Bool.not_eq_true, hpruned, and_comm]

/-- What a walk can find below a directory are the candidates. -/
theorem isFound_nil_iff {inc exc : List Pattern} {ms : List Text} :
    IsFound t top inc exc [] ms ↔
      ms ≠ [] ∧ (∃ content, t.entry? (top ++ ms) = some (.file content)) ∧
        isCandidate inc exc ms = true := by
  constructor
  · rintro ⟨dirs, n, rfl, hfile, hsel, hpruned⟩
    exact ⟨by simp, hfile, isCandidate_concat_iff.mpr ⟨hsel, hpruned⟩⟩
  · rintro ⟨hne, hfile, hcandidate⟩
    obtain ⟨dirs, n, rfl⟩ := (List.eq_nil_or_concat ms).resolve_left hne
    rw [List.concat_eq_append] at *
    obtain ⟨hsel, hpruned⟩ := isCandidate_concat_iff.mp hcandidate
    exact ⟨dirs, n, rfl, hfile, hsel, hpruned⟩

/-! ## The paths of candidates -/

/-- The path of the file with these names below a directory. -/
structure Below (t : FileTree) (root : Text) (top : Location) (path : Text) (dirs : List Text)
    (n : Text) : Prop where
  isName_dirs : ∀ d ∈ dirs, IsName d
  isName : IsName n
  isFile : ∃ content, t.entry? (top ++ dirs ++ [n]) = some (.file content)
  path_eq : path = dirText (Path.isAbsolute root) (components root ++ dirs) ++ n

theorem slash_notMem_components {dirs : List Text} (h : ∀ d ∈ dirs, IsName d) :
    ∀ d ∈ components root ++ dirs, Path.slash ∉ d := by
  intro d hd
  rcases List.mem_append.mp hd with hd | hd
  · exact (Path.isComponent_of_mem_components hd).slash_notMem
  · exact (h d hd).slash_notMem

/-- The directory part of such a path and its last name. -/
theorem Below.split {dirs : List Text} {n : Text} (h : Below t root top path dirs n) :
    Path.split path = (dirText (Path.isAbsolute root) (components root ++ dirs), n) := by
  rw [h.path_eq]
  exact Path.split_append (Path.isDirPart_dirText _ _) h.isName.slash_notMem

/-- On the way to the file there are real directories. -/
theorem Below.directories (hwf : t.WellFormed) {dirs : List Text} {n : Text}
    (h : Below t root top path dirs n) :
    ∀ front ≠ [], front <+: dirs → t.entry? (top ++ front) = some .directory := by
  rintro front - ⟨rest, rfl⟩
  obtain ⟨content, hfile⟩ := h.isFile
  have hbelow : t.entry? (top ++ front ++ (rest ++ [n])) = some (.file content) := by
    simpa using hfile
  exact hwf.directory_of_append (by simp) hbelow

/-- What is kept is the path of a file below the directory. -/
theorem below_of_kept (hwf : t.WellFormed) (hroot : root ≠ []) {keep : List Text → Bool}
    {r : List Text × Entry} (hr : r ∈ t.below top) (h : kept? keep root r = some path) :
    ∃ dirs n, r.1 = dirs ++ [n] ∧ Below t root top path dirs n := by
  obtain ⟨ns, e⟩ := r
  obtain ⟨hne, hmem⟩ := FileTree.mem_below_iff.mp hr
  unfold kept? at h
  split at h
  · next content hfile =>
    rw [Option.ite_none_right_eq_some] at h
    obtain ⟨dirs, n, rfl⟩ := (List.eq_nil_or_concat ns).resolve_left hne
    rw [List.concat_eq_append] at *
    have hnames : ∀ m ∈ dirs ++ [n], IsName m := by
      intro m hm
      exact hwf.isName _ hmem m (List.mem_append_right top hm)
    have hdirs : ∀ d ∈ dirs, IsName d := fun d hd => hnames d (List.mem_append_left [n] hd)
    have hn : IsName n := hnames n (by simp)
    refine ⟨dirs, n, rfl, hdirs, hn, ⟨content, ?_⟩, ?_⟩
    · rw [List.append_assoc, ← hfile]
      exact hwf.entry?_of_mem hmem
    · rw [← Path.join_eq hroot hdirs hn]
      exact (Option.some.inj h.2).symm
  · exact absurd h (by simp)

/-- The patterns of a list, if all of them can be read. -/
def patterns (ts : List Text) : List Pattern := (Pattern.readAll ts).toOption.getD []

theorem readAll_eq_ok {ts : List Text} (h : (Pattern.readAll ts).toOption.isSome) :
    Pattern.readAll ts = .ok (patterns ts) := by
  unfold patterns
  cases hread : Pattern.readAll ts with
  | error e =>
    rw [hread] at h
    exact absurd h (by simp [Except.toOption])
  | ok ps => rfl

/-- Paths that a walk comes to in byte order are what is found. -/
theorem find_of_sorted {included excluded paths : List Text}
    (hinc : (Pattern.readAll included).toOption.isSome)
    (hexc : (Pattern.readAll excluded).toOption.isSome)
    (hreal : t.lstat root = .ok (top, .directory))
    (hwalk : (walk t (patterns included) (patterns excluded) root).toOption = some paths)
    (hsorted : paths.Pairwise fun p q => Text.le p q = true) :
    find t root included excluded = .ok paths := by
  unfold find
  rw [readAll_eq_ok hinc, readAll_eq_ok hexc, hreal]
  dsimp only
  cases h : walk t (patterns included) (patterns excluded) root with
  | error e =>
    rw [h] at hwalk
    exact absurd hwalk (by simp [Except.toOption])
  | ok found =>
    rw [h] at hwalk
    obtain rfl := Option.some.inj hwalk
    dsimp only
    rw [Text.sort, List.mergeSort_of_pairwise hsorted]

/-- No path is kept twice. -/
theorem nodup_kept (hwf : t.WellFormed) (hroot : root ≠ []) (keep : List Text → Bool) :
    ((t.below top).filterMap (kept? keep root)).Nodup := by
  rw [List.Nodup, List.pairwise_filterMap]
  refine (hwf.pairwise_below top).imp_of_mem fun hr hr' hne path hpath path' hpath' heq => hne ?_
  obtain ⟨dirs, n, hr₁, hbelow⟩ := below_of_kept hwf hroot hr hpath
  obtain ⟨dirs', n', hr₁', hbelow'⟩ := below_of_kept hwf hroot hr' hpath'
  have hpaths := hbelow.path_eq.symm.trans (heq.trans hbelow'.path_eq)
  obtain ⟨hdirs, hn⟩ := Path.dirText_append_inj _ (slash_notMem_components hbelow.isName_dirs)
    (slash_notMem_components hbelow'.isName_dirs) hbelow.isName.slash_notMem
    hbelow'.isName.slash_notMem hpaths
  rw [hr₁, hr₁', List.append_cancel_left hdirs, hn]

/-- What is found: what a walk through a real directory comes to, in byte order, and nothing if the
root is no directory itself. -/
theorem find_cases {included excluded paths : List Text}
    (h : find t root included excluded = .ok paths) :
    (∃ top inc exc found, t.lstat root = .ok (top, .directory) ∧
      Pattern.readAll included = .ok inc ∧ Pattern.readAll excluded = .ok exc ∧
      visit t inc exc root (t.depth + 2) [] = .ok found ∧
      paths = Text.sort (found.map (place root))) ∨
    (∃ found, t.lstat root = .ok found ∧ found.2 ≠ .directory) ∧ paths = [] := by
  unfold find at h
  split at h
  · exact absurd h (by simp)
  · next inc hinc =>
    split at h
    · exact absurd h (by simp)
    · next exc hexc =>
      split at h
      · exact absurd h (by simp)
      · next top hreal =>
        unfold walk at h
        cases hvisit : visit t inc exc root (t.depth + 2) [] with
        | error e =>
          rw [hvisit] at h
          exact absurd h (by simp [Except.map])
        | ok found =>
          rw [hvisit] at h
          exact .inl ⟨top, inc, exc, found, hreal, hinc, hexc, hvisit, (Except.ok.inj h).symm⟩
      · next found hother hlstat =>
        refine .inr ⟨⟨found, hlstat, fun hdir => ?_⟩, (Except.ok.inj h).symm⟩
        exact hother found.1 (by rw [← hdir])

/-- Entries with different names have different paths. -/
theorem place_inj (hroot : root ≠ []) {ms ms' : List Text} (hne : ms ≠ []) (hne' : ms' ≠ [])
    (hms : ∀ m ∈ ms, IsName m) (hms' : ∀ m ∈ ms', IsName m) (h : place root ms = place root ms') :
    ms = ms' := by
  obtain ⟨dirs, n, rfl⟩ := (List.eq_nil_or_concat ms).resolve_left hne
  obtain ⟨dirs', n', rfl⟩ := (List.eq_nil_or_concat ms').resolve_left hne'
  simp only [List.concat_eq_append, List.forall_mem_append, List.forall_mem_singleton] at *
  rw [place_of_ne_nil root hne, place_of_ne_nil root hne', Path.join_eq hroot hms.1 hms.2,
    Path.join_eq hroot hms'.1 hms'.2] at h
  obtain ⟨hdirs, hn⟩ := Path.dirText_append_inj _ (slash_notMem_components hms.1)
    (slash_notMem_components hms'.1) hms.2.slash_notMem hms'.2.slash_notMem h
  rw [List.append_cancel_left hdirs, hn]

/-- A walk comes to no path twice. -/
theorem nodup_map_place (hwf : t.WellFormed) (hroot : root ≠ []) {inc exc : List Pattern} {k : Nat}
    {found : List (List Text)} (h : visit t inc exc root k [] = .ok found) :
    (found.map (place root)).Nodup := by
  refine (nodup_of_visit hwf h).map_on fun ms hms ms' hms' heq => ?_
  obtain ⟨n, rest, rfl, hnames⟩ := names_of_visit hwf h ms hms
  obtain ⟨n', rest', rfl, hnames'⟩ := names_of_visit hwf h ms' hms'
  exact place_inj hroot (by simp) (by simp) hnames hnames' heq

/-- Nothing is discovered twice, be the root a real directory or a link. -/
theorem nodup_of_find (hwf : t.WellFormed) {included excluded paths : List Text}
    (h : find t root included excluded = .ok paths) : paths.Nodup := by
  rcases find_cases h with ⟨top, _, _, found, hreal, -, -, hvisit, rfl⟩ | ⟨-, rfl⟩
  · rw [Text.sort, (List.mergeSort_perm _ _).nodup_iff]
    exact nodup_map_place hwf (ne_nil_of_lstat hreal) hvisit
  · exact List.nodup_nil

/-- Files are discovered in byte order. -/
theorem pairwise_find {included excluded paths : List Text}
    (h : find t root included excluded = .ok paths) :
    paths.Pairwise fun p q => Text.le p q = true := by
  rcases find_cases h with ⟨_, _, _, _, -, -, -, -, rfl⟩ | ⟨-, rfl⟩
  · exact Text.pairwise_sort _
  · exact List.Pairwise.nil

/-- What is kept are the paths of certain files below the directory. -/
theorem mem_kept_iff (hwf : t.WellFormed) {keep : List Text → Bool} :
    path ∈ (t.below top).filterMap (kept? keep root) ↔
      ∃ ns, ns ≠ [] ∧ (∃ content, t.entry? (top ++ ns) = some (.file content)) ∧
        keep ns = true ∧ path = Path.join root (Text.join [Path.slash] ns) := by
  rw [List.mem_filterMap]
  constructor
  · rintro ⟨⟨ns, e⟩, hr, hkept⟩
    obtain ⟨hne, hmem⟩ := FileTree.mem_below_iff.mp hr
    unfold kept? at hkept
    split at hkept
    · next content hfile =>
      rw [Option.ite_none_right_eq_some] at hkept
      have hentry := hwf.entry?_of_mem hmem
      rw [hfile] at hentry
      exact ⟨ns, hne, ⟨content, hentry⟩, hkept.1, (Option.some.inj hkept.2).symm⟩
    · exact absurd hkept (by simp)
  · rintro ⟨ns, hne, ⟨content, hentry⟩, hkept, rfl⟩
    have hmem := FileTree.mem_entries_of_eq_some (by simp [hne]) hentry
    refine ⟨(ns, .file content), FileTree.mem_below_iff.mpr ⟨hne, hmem⟩, ?_⟩
    rw [kept?]
    exact if_pos hkept

/-- **A walk finds the candidates**, if the directories on its way are denoted by their paths. -/
theorem find_of_entered (hwf : t.WellFormed) {inc exc : List Pattern}
    (h : Entered t root top exc) {included excluded : List Text}
    (hinc : Pattern.readAll included = .ok inc) (hexc : Pattern.readAll excluded = .ok exc) :
    find t root included excluded =
      .ok (Text.sort ((t.below top).filterMap (kept? (isCandidate inc exc) root))) := by
  have hroot := ne_nil_of_lstat h.real
  obtain ⟨found, hvisit, hfound⟩ := visit_of_entered hwf h inc (k := t.depth + 2) (.inl rfl)
    (not_isPruned_nil exc) (by omega)
  have hsort : Text.sort (found.map (place root)) =
      Text.sort ((t.below top).filterMap (kept? (isCandidate inc exc) root)) := by
    refine Text.sort_eq_of_mem_iff (nodup_map_place hwf hroot hvisit)
      (nodup_kept hwf hroot _) fun path => ?_
    rw [mem_kept_iff hwf, List.mem_map]
    refine exists_congr fun ms => ?_
    rw [hfound, isFound_nil_iff, and_assoc, and_assoc]
    refine and_congr_right fun hne => and_congr_right fun _ => and_congr_right fun _ => ?_
    rw [place_of_ne_nil root hne, eq_comm]
  unfold find walk
  rw [hinc, hexc, h.real]
  dsimp only
  rw [hvisit]
  exact congrArg Except.ok hsort

/-- What is found in a real directory, which its cleaned path denotes too. -/
theorem find_eq_ok (hwf : t.WellFormed) (hreal : t.lstat root = .ok (top, .directory))
    (hclean : t.stat (Path.clean root) = .ok (top, .directory))
    {included excluded paths : List Text} (h : find t root included excluded = .ok paths) :
    ∃ inc exc, Pattern.readAll included = .ok inc ∧ Pattern.readAll excluded = .ok exc ∧
      Entered t root top exc ∧
      paths = Text.sort ((t.below top).filterMap (kept? (isCandidate inc exc) root)) := by
  rcases find_cases h with ⟨top', inc, exc, found, hreal', hinc, hexc, hvisit, -⟩ |
    ⟨⟨found, hother, hne⟩, -⟩
  · have hentered := entered_of_visit hwf hreal hclean hvisit
    rw [find_of_entered hwf hentered hinc hexc] at h
    exact ⟨inc, exc, hinc, hexc, hentered, (Except.ok.inj h).symm⟩
  · rw [hreal] at hother
    exact absurd (congrArg Prod.snd (Except.ok.inj hother)).symm hne

/-- Every discovered path is that of a file below the directory which the patterns select. -/
theorem exists_candidate_of_mem_find (hwf : t.WellFormed)
    (hreal : t.lstat root = .ok (top, .directory))
    (hclean : t.stat (Path.clean root) = .ok (top, .directory))
    {included excluded paths : List Text} (h : find t root included excluded = .ok paths)
    (hpath : path ∈ paths) :
    ∃ inc exc dirs n, Pattern.readAll excluded = .ok exc ∧
      isCandidate inc exc (dirs ++ [n]) = true ∧ Below t root top path dirs n := by
  obtain ⟨inc, exc, -, hexc, -, rfl⟩ := find_eq_ok hwf hreal hclean h
  rw [Text.mem_sort, List.mem_filterMap] at hpath
  obtain ⟨r, hr, hcandidate⟩ := hpath
  obtain ⟨dirs, n, hr₁, hbelow⟩ := below_of_kept hwf (ne_nil_of_lstat hreal) hr hcandidate
  refine ⟨inc, exc, dirs, n, hexc, ?_, hbelow⟩
  unfold kept? at hcandidate
  split at hcandidate
  · rw [Option.ite_none_right_eq_some] at hcandidate
    rw [← hr₁]
    exact hcandidate.1
  · exact absurd hcandidate (by simp)

/-- Every discovered path is that of a file below the directory. -/
theorem below_of_mem_find (hwf : t.WellFormed) (hreal : t.lstat root = .ok (top, .directory))
    (hclean : t.stat (Path.clean root) = .ok (top, .directory))
    {included excluded paths : List Text} (h : find t root included excluded = .ok paths)
    (hpath : path ∈ paths) : ∃ dirs n, Below t root top path dirs n := by
  obtain ⟨_, _, dirs, n, -, -, hbelow⟩ := exists_candidate_of_mem_find hwf hreal hclean h hpath
  exact ⟨dirs, n, hbelow⟩

/-! ## Discovery in another tree -/

/-- What is discovered in a tree is discovered in another one with the same directories and links,
if there are files in the same places, as far as the patterns can select them. -/
theorem find_congr {t' : FileTree} (hwf : t.WellFormed) (hwf' : t'.WellFormed)
    (hreal : t.lstat root = .ok (top, .directory))
    (hclean : t.stat (Path.clean root) = .ok (top, .directory)) (hsame : t.SameOutline t')
    {included excluded paths : List Text} (hfind : find t root included excluded = .ok paths)
    (hfiles : ∀ inc exc ns, Pattern.readAll excluded = .ok exc → isCandidate inc exc ns = true →
      ns ≠ [] → ((∃ content, t'.entry? (top ++ ns) = some (.file content)) ↔
        ∃ content, t.entry? (top ++ ns) = some (.file content))) :
    find t' root included excluded = find t root included excluded := by
  have hroot := ne_nil_of_lstat hreal
  obtain ⟨inc, exc, hinc, hexc, hentered, rfl⟩ := find_eq_ok hwf hreal hclean hfind
  rw [hfind, find_of_entered hwf' (hentered.congr hsame) hinc hexc]
  refine congrArg Except.ok (Text.sort_eq_of_mem_iff (nodup_kept hwf' hroot _)
    (nodup_kept hwf hroot _) fun p => ?_)
  rw [mem_kept_iff hwf', mem_kept_iff hwf]
  constructor
  · rintro ⟨ns, hne, hfile, hcandidate, hp⟩
    exact ⟨ns, hne, (hfiles inc exc ns hexc hcandidate hne).mp hfile, hcandidate, hp⟩
  · rintro ⟨ns, hne, hfile, hcandidate, hp⟩
    exact ⟨ns, hne, (hfiles inc exc ns hexc hcandidate hne).mpr hfile, hcandidate, hp⟩

/-- A discovered file is reached along real directories. -/
theorem Below.route (hwf : t.WellFormed) (hclean : t.stat (Path.clean root) = .ok (top, .directory))
    {dirs : List Text} {n : Text} (h : Below t root top path dirs n) :
    t.Route root top path dirs n :=
  ⟨hclean, h.isName_dirs, h.isName, h.directories hwf, h.path_eq⟩

end Discovery

end ReflectGen

import ReflectGen.Proofs.Discovery

/-!
# What is discovered, exactly

A walk through a directory lists the regular files below it that an include pattern selects and no
exclude pattern does, except for those in a directory that is skipped; each of them once, in byte
order.  Nothing behind a link is listed, because the names of a file lead from one real directory to
the next.

## Why the paths of the directories matter

The directories below the root are read under the path of the root, cleaned, with their names behind
it.  Cleaning takes a name away in front of `..`, which is another step than the one back from
where a link leads.  So below a root such as `link/../d` the walk may look for its directories in
another place, or in none, and what lies in them is not listed.

* `Discovery.IsRegular`: a regular file below a directory, reached along directories.
* `Discovery.find_lists_exactly`: the list that is discovered.
* `Discovery.strayTree_loses_directory`: a root that is not the directory of its cleaned path.
-/

namespace ReflectGen

namespace Discovery

variable {t : FileTree} {root : Text} {top : Location} {inc exc : List Pattern} {ns : List Text}

/-- There is a regular file at the end of these names, and on the way to it there are directories
only. -/
structure IsRegular (t : FileTree) (top : Location) (ns : List Text) : Prop where
  ne_nil : ns ≠ []
  directories : ∀ front ≠ [], front <+: ns → front ≠ ns →
    t.entry? (top ++ front) = some .directory
  isFile : ∃ content, t.entry? (top ++ ns) = some (.file content)

/-- In a well-formed tree a file is always reached along directories. -/
theorem isRegular_iff (hwf : t.WellFormed) :
    IsRegular t top ns ↔ ns ≠ [] ∧ ∃ content, t.entry? (top ++ ns) = some (.file content) := by
  refine ⟨fun h => ⟨h.ne_nil, h.isFile⟩, fun ⟨hne, content, hfile⟩ => ⟨hne, ?_, content, hfile⟩⟩
  rintro front - ⟨rest, rfl⟩ hproper
  have hrest : rest ≠ [] := fun hnil => hproper (by simp [hnil])
  rw [← List.append_assoc] at hfile
  exact hwf.directory_of_append hrest hfile

/-- A candidate is selected itself, and no directory above it is skipped. -/
theorem isCandidate_iff (hne : ns ≠ []) :
    isCandidate inc exc ns = true ↔
      Pattern.selects inc (Text.join [Path.slash] ns) = true ∧
      Pattern.selects exc (Text.join [Path.slash] ns) = false ∧
      ∀ front ≠ [], front <+: ns → front ≠ ns →
        Pattern.selects exc (Text.join [Path.slash] front ++ lit "/**") = false := by
  obtain ⟨dirs, n, rfl⟩ := (List.eq_nil_or_concat ns).resolve_left hne
  rw [List.concat_eq_append, isCandidate_concat_iff, isSelected, Bool.and_eq_true,
    Bool.not_eq_true']
  constructor
  · rintro ⟨⟨hexc, hinc⟩, hpruned⟩
    refine ⟨hinc, hexc, fun front hfront hpre hproper => ?_⟩
    have hdirs : front <+: dirs := (List.prefix_concat_iff.mp hpre).resolve_left hproper
    rw [← Bool.not_eq_true]
    exact fun hskip => hpruned ⟨front, hfront, hdirs, hskip⟩
  · rintro ⟨hinc, hexc, hskipped⟩
    refine ⟨⟨hexc, hinc⟩, ?_⟩
    rintro ⟨front, hfront, hdirs, hskip⟩
    have hproper : front ≠ dirs ++ [n] := by
      rintro rfl
      have hlength := hdirs.length_le
      rw [List.length_append, List.length_singleton] at hlength
      omega
    have hnot := hskipped front hfront (hdirs.trans (List.prefix_append _ _)) hproper
    exact absurd (hskip.symm.trans hnot) (by simp)

/-- Files are discovered in strictly increasing byte order. -/
theorem pairwise_lt_find (hwf : t.WellFormed) {included excluded paths : List Text}
    (h : find t root included excluded = .ok paths) : paths.Pairwise (· < ·) := by
  refine ((pairwise_find h).and (nodup_of_find hwf h)).imp fun {p q} hpq => ?_
  by_contra hlt
  exact hpq.2 (Text.le_antisymm hpq.1 ((Text.le_eq_true_iff _ _).mpr hlt))

/-- The directories that a walk enters are denoted by their paths. -/
theorem entered_of_opened (hreal : t.lstat root = .ok (top, .directory))
    (hopened : ∀ ns ≠ [], t.entry? (top ++ ns) = some .directory → ¬ IsPruned exc ns →
      t.stat (Path.join root (Text.join [Path.slash] ns)) = .ok (top ++ ns, .directory)) :
    Entered t root top exc := by
  refine ⟨hreal, fun ns hne hdir hpruned => ?_⟩
  rw [place_of_ne_nil root hne]
  exact hopened ns hne hdir hpruned

/-- **Discovery is exact.**  Let the root be a real directory, and let every directory below it that
is not skipped be denoted by the path that joins the root and the names of the directory.  Then
discovery succeeds, and it lists in strictly increasing byte order exactly the paths of the regular
files below the root, reached along directories, that an include pattern selects, no exclude pattern
selects, and that lie in no directory for whose content an exclude pattern stands. -/
theorem find_lists_exactly (t : FileTree) (root : Text) (top : Location)
    (included excluded : List Text) (inc exc : List Pattern) (hwf : t.WellFormed)
    (hinc : Pattern.readAll included = .ok inc) (hexc : Pattern.readAll excluded = .ok exc)
    (hreal : t.lstat root = .ok (top, .directory))
    (hopened : ∀ ns ≠ [], t.entry? (top ++ ns) = some .directory → ¬ IsPruned exc ns →
      t.stat (Path.join root (Text.join [Path.slash] ns)) = .ok (top ++ ns, .directory)) :
    ∃ paths, find t root included excluded = .ok paths ∧ paths.Pairwise (· < ·) ∧
      ∀ path, path ∈ paths ↔ ∃ ns, IsRegular t top ns ∧
        path = Path.join root (Text.join [Path.slash] ns) ∧
        Pattern.selects inc (Text.join [Path.slash] ns) = true ∧
        Pattern.selects exc (Text.join [Path.slash] ns) = false ∧
        ∀ front ≠ [], front <+: ns → front ≠ ns →
          Pattern.selects exc (Text.join [Path.slash] front ++ lit "/**") = false := by
  have hfind := find_of_entered hwf (entered_of_opened hreal hopened) hinc hexc
  refine ⟨_, hfind, pairwise_lt_find hwf hfind, fun path => ?_⟩
  rw [Text.mem_sort, mem_kept_iff hwf]
  refine exists_congr fun ns => ?_
  rw [isRegular_iff hwf, and_assoc]
  refine and_congr_right fun hne => and_congr_right fun _ => ?_
  rw [isCandidate_iff hne, and_comm]

/-- The directories below the root are denoted by their paths, if this is so of all of them that are
entries of the tree. -/
theorem opened_of_below
    (h : ∀ r ∈ t.below top, r.2 = .directory →
      (t.stat (Path.join root (Text.join [Path.slash] r.1))).toOption =
        some (top ++ r.1, .directory)) :
    ∀ ns ≠ [], t.entry? (top ++ ns) = some .directory → ¬ IsPruned exc ns →
      t.stat (Path.join root (Text.join [Path.slash] ns)) = .ok (top ++ ns, .directory) := by
  intro ns hne hdir _
  have hbelow := FileTree.mem_below_of_entry? hne hdir
  have hstat := h _ hbelow rfl
  cases hpath : t.stat (Path.join root (Text.join [Path.slash] ns)) with
  | error e =>
    rw [hpath] at hstat
    exact absurd hstat (by simp [Except.toOption])
  | ok found =>
    rw [hpath] at hstat
    exact congrArg Except.ok (Option.some.inj hstat)

/-- A directory whose files do not come in byte order when it is walked through, with a directory
that is skipped, a link to a directory and a link to a file. -/
def tangledTree : FileTree where
  entries := [
    ([lit "src"], .directory),
    ([lit "src", lit "a"], .directory),
    ([lit "src", lit "a", lit "x.h"], .file []),
    ([lit "src", lit "a", lit "x_reflection.cpp"], .file []),
    ([lit "src", lit "a-b.h"], .file []),
    ([lit "src", lit ".git"], .directory),
    ([lit "src", lit ".git", lit "c.h"], .file []),
    ([lit "src", lit "link"], .link (lit "a")),
    ([lit "src", lit "link.h"], .link (lit "a-b.h"))]
  workdir := []

/-- With the standard exclude patterns the two headers are listed, but not the file in the directory
that is skipped. -/
theorem tangledTree_lists_exactly :
    tangledTree.WellFormed ∧
      tangledTree.lstat (lit "src") = .ok ([lit "src"], .directory) ∧
      ∃ paths, find tangledTree (lit "src") [lit "**/*.h", lit "**/*.cpp"]
          [lit "**/*_reflection.cpp", lit ".git/**"] = .ok paths ∧ paths.Pairwise (· < ·) ∧
        lit "src/a-b.h" ∈ paths ∧ lit "src/a/x.h" ∈ paths ∧ lit "src/.git/c.h" ∉ paths := by
  have hwf : tangledTree.WellFormed := by decide +kernel
  have hreal : tangledTree.lstat (lit "src") = .ok ([lit "src"], .directory) := by decide +kernel
  obtain ⟨paths, hfind, hsorted, hmem⟩ := find_lists_exactly tangledTree (lit "src") [lit "src"]
    [lit "**/*.h", lit "**/*.cpp"] [lit "**/*_reflection.cpp", lit ".git/**"] _ _ hwf
    (readAll_eq_ok (by decide +kernel)) (readAll_eq_ok (by decide +kernel)) hreal
    (opened_of_below (by decide +kernel))
  refine ⟨hwf, hreal, paths, hfind, hsorted, ?_, ?_, fun hgit => ?_⟩
  · refine (hmem _).mpr ⟨[lit "a-b.h"], (isRegular_iff hwf).mpr ⟨by decide, [], by decide +kernel⟩,
      by decide +kernel, (isCandidate_iff (by decide)).mp (by decide +kernel)⟩
  · refine (hmem _).mpr ⟨[lit "a", lit "x.h"],
      (isRegular_iff hwf).mpr ⟨by decide, [], by decide +kernel⟩, by decide +kernel,
      (isCandidate_iff (by decide)).mp (by decide +kernel)⟩
  · obtain ⟨ns, hregular, hpath, -, -, hskipped⟩ := (hmem _).mp hgit
    obtain ⟨content, hfile⟩ := hregular.isFile
    have hnames : ∀ n ∈ ns, Path.IsName n := fun n hn =>
      hwf.isName_of_entry? hfile n (List.mem_append_right _ hn)
    have hplace : place (lit "src") [lit ".git", lit "c.h"] = place (lit "src") ns := by
      rw [place_of_ne_nil _ hregular.ne_nil, ← hpath]
      decide +kernel
    obtain rfl :=
      place_inj (by decide) (by decide) hregular.ne_nil (by decide +kernel) hnames hplace
    exact absurd (hskipped [lit ".git"] (by decide) (by decide +kernel) (by decide +kernel))
      (by decide +kernel)

/-- The directory `x/d` is found under the path `link/../d`; its cleaned path `d` leads nowhere. -/
def strayTree : FileTree where
  entries := [
    ([lit "x"], .directory), ([lit "x", lit "y"], .directory),
    ([lit "link"], .link (lit "x/y")),
    ([lit "x", lit "d"], .directory), ([lit "x", lit "d", lit "sub"], .directory),
    ([lit "x", lit "d", lit "sub", lit "foo.h"], .file [])]
  workdir := []

/-- The root is a real directory with a header below it that is selected and lies in no directory
that is skipped, but discovery fails, since there is no directory `d/sub`. -/
theorem strayTree_loses_directory :
    strayTree.WellFormed ∧
      strayTree.lstat (lit "link/../d") = .ok ([lit "x", lit "d"], .directory) ∧
      ∃ inc exc, Pattern.readAll [lit "**/*.h"] = .ok inc ∧ Pattern.readAll [] = .ok exc ∧
        (IsRegular strayTree [lit "x", lit "d"] [lit "sub", lit "foo.h"] ∧
          Pattern.selects inc (lit "sub/foo.h") = true ∧
          Pattern.selects exc (lit "sub/foo.h") = false ∧
          Pattern.selects exc (lit "sub/**") = false) ∧
        ¬ ∃ paths, find strayTree (lit "link/../d") [lit "**/*.h"] [] = .ok paths := by
  have hwf : strayTree.WellFormed := by decide +kernel
  refine ⟨hwf, by decide +kernel, _, _, readAll_eq_ok (by decide +kernel),
    readAll_eq_ok (by decide +kernel), ⟨?_, ?_, ?_, ?_⟩, ?_⟩
  · exact (isRegular_iff hwf).mpr ⟨by decide, [], by decide +kernel⟩
  · decide +kernel
  · decide +kernel
  · decide +kernel
  · rintro ⟨paths, hfind⟩
    have hnone : (find strayTree (lit "link/../d") [lit "**/*.h"] []).toOption = none := by
      decide +kernel
    rw [hfind] at hnone
    exact absurd hnone (by simp [Except.toOption])

end Discovery

end ReflectGen

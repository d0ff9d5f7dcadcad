import ReflectGen.Proofs.FileTree.Store

/-!
# Routes along real directories

A path that leads from a directory along real directories ends at a location that can be read off
its names, and what it denotes depends on the tree by the one entry there.  So reading the path
gives the same in all trees with the same directories and links, as long as that entry is the same;
and where writing puts its content, or why it cannot, does not even depend on the entry.

* `FileTree.Route`: the path leads along real directories; kept by `FileTree.Route.congr`.
* `FileTree.refusal?`: why a path cannot be followed in any tree.
* `FileTree.Route.resolve_eq`: what the path denotes.
* `FileTree.Route.load_congr`, `FileTree.Route.writeLocation_congr`: reading and writing.
* `FileTree.Steady`: writing to the path does not depend on files.
-/

namespace ReflectGen

namespace FileTree

open ReflectGen.Path (dirText components IsComponent IsName)

variable {t t' : FileTree}

/-! ## Directories in trees with the same outline -/

theorem SameOutline.symm (h : t.SameOutline t') : t'.SameOutline t :=
  ⟨h.workdir.symm, fun loc => (h.entry loc).symm⟩

theorem SameOutline.directory (h : t.SameOutline t') {loc : Location}
    (hdir : t.entry? loc = some .directory) : t'.entry? loc = some .directory := by
  have hentry := h.entry loc
  rw [hdir] at hentry
  exact Entry.eq_of_outline? hentry

/-- A directory or a link that a path denotes is the same in all trees with the same outline. -/
theorem SameOutline.locate (h : t.SameOutline t') {action : FileAction} {through : Bool}
    {path : Text} {loc : Location} {e : Entry} (he : ∀ content, e ≠ .file content)
    (hloc : t.locate action through path = .ok (loc, e)) :
    t'.locate action through path = .ok (loc, e) := by
  rw [locate_eq_ok_iff] at hloc ⊢
  have houtline := outline_resolve h through path
  rw [hloc] at houtline
  rcases e with _ | content | target
  · rcases hres : t'.resolve through path with ⟨loc', _ | content | target⟩ | loc' | ⟨dir, ns⟩ |
      reason
    all_goals rw [hres] at houtline
    all_goals simp only [Walk.outline, reduceCtorEq, Walk.found.injEq, and_false] at houtline
    rw [houtline.1]
  · exact absurd rfl (he content)
  · rcases hres : t'.resolve through path with ⟨loc', _ | content | target'⟩ | loc' | ⟨dir, ns⟩ |
      reason
    all_goals rw [hres] at houtline
    all_goals simp only [Walk.outline, reduceCtorEq, Walk.found.injEq, and_false] at houtline
    rw [houtline.1, houtline.2]

/-- The directory that a path names is the one that it denotes. -/
theorem walk_true_of_false (dir : Location) (ns : List Text) :
    (∀ top, t.walk false dir ns = .found top .directory →
      t.walk true dir ns = .found top .directory) ∧
    ∀ dir' ns', t.walk false dir ns = .redirected dir' ns' →
      t.walk true dir ns = .redirected dir' ns' := by
  induction ns generalizing dir with
  | nil => exact ⟨fun top h => h, fun dir' ns' h => h⟩
  | cons n ns ih =>
    rcases name_cases n with rfl | rfl | ⟨hh, ha, hl⟩ | ⟨hh, ha, hl⟩
    · rw [walk_here, walk_here]
      exact ih dir
    · rw [walk_above, walk_above]
      exact ih dir.dropLast
    · rw [walk_long t _ dir _ hh ha hl, walk_long t _ dir _ hh ha hl]
      exact ⟨fun top h => h, fun dir' ns' h => h⟩
    · rw [walk_entry t _ dir _ hh ha hl, walk_entry t _ dir _ hh ha hl]
      rcases t.entry? (dir ++ [n]) with _ | _ | content | target
      · exact ⟨fun top h => h, fun dir' ns' h => h⟩
      · exact ih (dir ++ [n])
      · exact ⟨fun top h => h, fun dir' ns' h => h⟩
      · -- a link at the end is no directory, and any other one is followed
        cases ns with
        | nil => exact ⟨fun top h => absurd h (by simp [walkEntry]),
            fun dir' ns' h => absurd h (by simp [walkEntry])⟩
        | cons m ns => exact ⟨fun top h => h, fun dir' ns' h => h⟩

theorem follow_true_of_false {links : Nat} {dir top : Location} {ns : List Text}
    (h : t.follow false links dir ns = .found top .directory) :
    t.follow true links dir ns = .found top .directory := by
  induction links generalizing dir ns with
  | zero =>
    rw [follow] at h
    split at h
    · exact absurd h (by simp)
    · rw [follow, (walk_true_of_false dir ns).1 top h]
  | succ links ih =>
    rw [follow] at h
    split at h
    · next dir' ns' hwalk =>
      rw [follow, (walk_true_of_false dir ns).2 dir' ns' hwalk]
      exact ih h
    · rw [follow, (walk_true_of_false dir ns).1 top h]

/-- A path that names a real directory denotes it. -/
theorem stat_of_lstat {path : Text} {top : Location}
    (h : t.lstat path = .ok (top, .directory)) : t.stat path = .ok (top, .directory) := by
  rw [lstat, locate_eq_ok_iff] at h
  rw [stat, locate_eq_ok_iff]
  rcases t.resolve_cases path with ⟨-, hfollow⟩ | ⟨reason, hfail⟩
  · rw [hfollow] at h ⊢
    exact follow_true_of_false h
  · rw [hfail] at h
    exact absurd h (by simp)

/-! ## Routes -/

/-- The path leads from the directory that the cleaned path of `root` denotes along real
directories. -/
structure Route (t : FileTree) (root : Text) (top : Location) (path : Text) (dirs : List Text)
    (k : Text) : Prop where
  cleaned : t.stat (Path.clean root) = .ok (top, .directory)
  isName_dirs : ∀ d ∈ dirs, IsName d
  isName : IsName k
  directories : ∀ front ≠ [], front <+: dirs → t.entry? (top ++ front) = some .directory
  path_eq : path = dirText (Path.isAbsolute root) (components root ++ dirs) ++ k

/-- Why a path with these names cannot be followed, whatever the tree has. -/
def refusal? (path : Text) (ns : List Text) : Option FileError :=
  if path.contains 0 then some .invalidName
  else if maxPath ≤ path.length then some .nameTooLong
  else if ns.any fun n => maxName < n.length then some .nameTooLong
  else none

/-- Where a path ends that leads to a location. -/
def Walk.atEntry (loc : Location) : Option Entry → Walk
  | none => .missing loc
  | some e => .found loc e

variable {root path : Text} {top : Location} {dirs : List Text} {k : Text}

theorem Route.congr (h : t.Route root top path dirs k) (hsame : t.SameOutline t') :
    t'.Route root top path dirs k :=
  ⟨hsame.locate (by simp) h.cleaned, h.isName_dirs, h.isName,
    fun front hne hfront => hsame.directory (h.directories front hne hfront), h.path_eq⟩

/-- The last step of a route. -/
theorem walk_last (t : FileTree) (through : Bool) (dir : Location) (hk : IsName k)
    (hshort : ¬ maxName < k.length)
    (hlink : ∀ target, through = true → t.entry? (dir ++ [k]) ≠ some (.link target)) :
    t.walk through dir [k] = Walk.atEntry (dir ++ [k]) (t.entry? (dir ++ [k])) := by
  rw [walk_entry t through dir [] hk.ne_here hk.ne_above hshort]
  rcases he : t.entry? (dir ++ [k]) with _ | _ | content | target
  · rfl
  · exact walk_nil t through _
  · rfl
  · cases through with
    | false => rfl
    | true => exact absurd he (hlink target rfl)

/-- The names of a route. -/
theorem Route.names_eq (h : t.Route root top path dirs k) :
    path ≠ [] ∧ Path.isAbsolute path = Path.isAbsolute root ∧
      names path = components root ++ (dirs ++ [k]) := by
  have hcomp : ∀ d ∈ components root ++ dirs, IsComponent d := by
    intro d hd
    rcases List.mem_append.mp hd with hd | hd
    · exact Path.isComponent_of_mem_components hd
    · exact (h.isName_dirs d hd).toIsComponent
  have hne : dirText (Path.isAbsolute root) (components root ++ dirs) ++ k ≠ [] := by
    simp [h.isName.ne_nil]
  rw [h.path_eq]
  refine ⟨hne, Path.isAbsolute_dirText_append _ hcomp h.isName.slash_notMem, ?_⟩
  rw [names_dirText_append _ hcomp h.isName.slash_notMem hne, if_neg h.isName.ne_nil,
    List.append_assoc]

/-- What a route leads to, if it does not end in a link that is to be followed. -/
theorem Route.resolve_of_entry (h : t.Route root top path dirs k) (through : Bool)
    (hlink : refusal? path (dirs ++ [k]) = none → ∀ target, through = true →
      t.entry? (top ++ dirs ++ [k]) ≠ some (.link target)) :
    t.resolve through path = (refusal? path (dirs ++ [k])).elim
      (Walk.atEntry (top ++ dirs ++ [k]) (t.entry? (top ++ dirs ++ [k]))) .failed := by
  obtain ⟨hne, habs, hnames⟩ := h.names_eq
  have hnotEmpty : ¬ path.isEmpty = true := by simpa using hne
  obtain ⟨left, hleft⟩ := follow_append (follow_components h.cleaned)
  unfold resolve
  unfold refusal? at hlink ⊢
  by_cases hzero : path.contains 0
  · rw [if_pos hzero, if_pos hzero]
    rfl
  · by_cases hlong : maxPath ≤ path.length
    · rw [if_neg hzero, if_neg hnotEmpty, if_pos hlong, if_neg hzero, if_pos hlong]
      rfl
    · rw [if_neg hzero, if_neg hlong, List.any_append] at hlink ⊢
      rw [if_neg hzero, if_neg hnotEmpty, if_neg hlong, habs, hnames, hleft through _ (by simp)]
      have hwalk := walk_directories_eq h.isName_dirs h.directories through [k]
      by_cases hdirs : dirs.any fun d => maxName < d.length
      · rw [if_pos hdirs] at hwalk
        rw [if_pos (by simp [hdirs]), follow_of_walk hwalk (by simp)]
        rfl
      · rw [if_neg hdirs] at hwalk
        by_cases hlast : maxName < k.length
        · rw [walk_long t through _ [] h.isName.ne_here h.isName.ne_above hlast] at hwalk
          rw [if_pos (by simp [hlast]), follow_of_walk hwalk (by simp)]
          rfl
        · have hshort : ¬ (dirs.any (fun d => decide (maxName < d.length)) ||
              [k].any fun d => decide (maxName < d.length)) = true := by
            simpa [hlast] using hdirs
          rw [walk_last t through _ h.isName hlast (hlink (if_neg hshort))] at hwalk
          rw [if_neg hshort, follow_of_walk hwalk]
          · rfl
          · intro dir' ns'
            cases t.entry? (top ++ dirs ++ [k]) <;> simp [Walk.atEntry]

/-- What a route leads to that does not end in a link. -/
theorem Route.resolve_eq (h : t.Route root top path dirs k)
    (hlink : ∀ loc target, t.lstat path ≠ .ok (loc, .link target)) (through : Bool) :
    t.resolve through path = (refusal? path (dirs ++ [k])).elim
      (Walk.atEntry (top ++ dirs ++ [k]) (t.entry? (top ++ dirs ++ [k]))) .failed := by
  have hfalse := h.resolve_of_entry false (by simp)
  refine h.resolve_of_entry through fun href target _ hentry => ?_
  rw [href, hentry] at hfalse
  exact hlink _ target (locate_eq_ok_iff.mpr hfalse)

/-- A route to a file does not end in a link. -/
theorem Route.lstat_ne_link (h : t.Route root top path dirs k)
    (hentry : ∀ target, t.entry? (top ++ dirs ++ [k]) ≠ some (.link target)) (loc : Location)
    (target : Text) : t.lstat path ≠ .ok (loc, .link target) := by
  intro hlink
  rw [lstat, locate_eq_ok_iff, h.resolve_of_entry false (by simp)] at hlink
  cases href : refusal? path (dirs ++ [k]) with
  | some reason =>
    rw [href] at hlink
    exact absurd hlink (by simp)
  | none =>
    rw [href] at hlink
    rcases he : t.entry? (top ++ dirs ++ [k]) with _ | e
    · rw [he] at hlink
      exact absurd hlink (by simp [Walk.atEntry])
    · rw [he] at hlink
      simp only [Option.elim_none, Walk.atEntry, Walk.found.injEq] at hlink
      exact hentry target (hlink.2 ▸ he)

/-! ## Reading and writing -/

/-- A path that ends in no link ends in none in a tree with the same outline. -/
theorem SameOutline.lstat_ne_link (hsame : t.SameOutline t')
    (hlink : ∀ loc target, t.lstat path ≠ .ok (loc, .link target)) (loc : Location)
    (target : Text) : t'.lstat path ≠ .ok (loc, .link target) :=
  fun h => hlink loc target (hsame.symm.locate (by simp) h)

/-- What is read through a route depends on the entry at its end. -/
theorem Route.load_congr (h : t.Route root top path dirs k) (hsame : t.SameOutline t')
    (hlink : ∀ loc target, t.lstat path ≠ .ok (loc, .link target))
    (hentry : t'.entry? (top ++ dirs ++ [k]) = t.entry? (top ++ dirs ++ [k])) :
    t'.load path = t.load path := by
  have hres := (h.congr hsame).resolve_eq (hsame.lstat_ne_link hlink) true
  rw [hentry, ← h.resolve_eq hlink true] at hres
  rw [load, load, locate, locate, hres]

/-- Writing to a path that cannot be followed fails for the same reason, if the path does not end in
a slash. -/
theorem writeLocation_of_failed {reason : FileError}
    (htrim : Text.trimRightBy (· == Path.slash) path = path)
    (h : t.resolve true path = .failed reason) :
    t.writeLocation path = .error { action := .open, path, reason } := by
  unfold writeLocation
  rw [h, htrim]
  cases path with
  | nil => rfl
  | cons b path => simp

/-- Where writing puts its content at the end of a route. -/
theorem writeLocation_of_atEntry {loc : Location}
    (h : t.resolve true path = Walk.atEntry loc (t.entry? loc)) :
    t.writeLocation path = if t.entry? loc = some .directory then
      .error { action := .open, path, reason := .isDirectory } else .ok loc := by
  unfold writeLocation
  rw [h]
  rcases t.entry? loc with _ | _ | content | target <;> simp [Walk.atEntry]

/-- A route does not end in a slash. -/
theorem Route.trimRightBy_eq (h : t.Route root top path dirs k) :
    Text.trimRightBy (· == Path.slash) path = path := by
  obtain ⟨front, b, hk⟩ := (List.eq_nil_or_concat k).resolve_left h.isName.ne_nil
  rw [List.concat_eq_append] at hk
  have hb : b ≠ Path.slash := by
    rintro rfl
    exact h.isName.slash_notMem (by simp [hk])
  rw [h.path_eq, hk, ← List.append_assoc, Text.trimRightBy, List.reverse_append,
    List.reverse_singleton, List.singleton_append, List.dropWhile_cons_of_neg (by simpa using hb)]
  simp

/-- Where a route is written, or why it cannot be, does not depend on files. -/
theorem Route.writeLocation_congr (h : t.Route root top path dirs k) (hsame : t.SameOutline t')
    (hlink : ∀ loc target, t.lstat path ≠ .ok (loc, .link target)) :
    t'.writeLocation path = t.writeLocation path := by
  have hres := h.resolve_eq hlink true
  have hres' := (h.congr hsame).resolve_eq (hsame.lstat_ne_link hlink) true
  cases href : refusal? path (dirs ++ [k]) with
  | some reason =>
    rw [href] at hres hres'
    rw [writeLocation_of_failed h.trimRightBy_eq hres,
      writeLocation_of_failed h.trimRightBy_eq hres']
  | none =>
    rw [href] at hres hres'
    have hdirectory : t'.entry? (top ++ dirs ++ [k]) = some .directory ↔
        t.entry? (top ++ dirs ++ [k]) = some .directory :=
      ⟨hsame.symm.directory, hsame.directory⟩
    rw [writeLocation_of_atEntry hres, writeLocation_of_atEntry hres']
    simp only [hdirectory]

/-- A route is written to the location at its end. -/
theorem Route.eq_of_writeLocation (h : t.Route root top path dirs k)
    (hlink : ∀ loc target, t.lstat path ≠ .ok (loc, .link target)) {loc : Location}
    (hloc : t.writeLocation path = .ok loc) : loc = top ++ dirs ++ [k] :=
  writeLocation_below h.cleaned h.isName_dirs h.directories h.isName.slash_notMem h.path_eq hlink
    hloc

/-- Where the path is written, or why it cannot be, is the same in all trees with the same
outline. -/
def Steady (t : FileTree) (path : Text) : Prop :=
  ∀ t' : FileTree, t.SameOutline t' → t'.writeLocation path = t.writeLocation path

theorem Steady.congr (h : t.Steady path) (hsame : t.SameOutline t') : t'.Steady path :=
  fun t'' hsame' => (h t'' (hsame.trans hsame')).trans (h t' hsame).symm

theorem Route.steady (h : t.Route root top path dirs k)
    (hlink : ∀ loc target, t.lstat path ≠ .ok (loc, .link target)) : t.Steady path :=
  fun _ hsame => h.writeLocation_congr hsame hlink

end FileTree

end ReflectGen

import ReflectGen.Proofs.FileTree.Resolve

/-!
# Writing files

Writing puts a file where there was none or replaces a file.  It leaves all directories and links
alone, and these alone decide where a path leads; so in all trees with the same directories and
links a path is written to the same location.

* `FileTree.SameOutline`: two trees have the same directories and links.
* `FileTree.writeLocation_eq_ok_iff`: the paths that can be written to.
* `FileTree.writeLocation_congr`, `FileTree.mapError_writeLocation`: where they are written does not
  depend on files, and why they cannot be written hardly does.
* `FileTree.stat_of_writeLocation`: what was written is read again.
* `FileTree.writeLocation_below`: a path below a directory is written to the place it names.
-/

namespace ReflectGen

/-- The entry if it is a directory or a link: a file counts as a free place. -/
def Entry.outline? : Option Entry → Option Entry
  | some (.file _) => none
  | e => e

/-- A directory or a link is known by its outline. -/
theorem Entry.eq_of_outline? {e : Entry} {e' : Option Entry}
    (h : some e = Entry.outline? e') : e' = some e := by
  rcases e' with _ | _ | content | target
  · exact absurd h (by simp [Entry.outline?])
  · exact h.symm
  · exact absurd h (by simp [Entry.outline?])
  · exact h.symm

namespace FileTree

/-- The trees have the same directories and links. -/
structure SameOutline (t t' : FileTree) : Prop where
  workdir : t.workdir = t'.workdir
  entry : ∀ loc, Entry.outline? (t.entry? loc) = Entry.outline? (t'.entry? loc)

theorem SameOutline.refl (t : FileTree) : t.SameOutline t := ⟨rfl, fun _ => rfl⟩

theorem SameOutline.trans {t t' t'' : FileTree} (h : t.SameOutline t') (h' : t'.SameOutline t'') :
    t.SameOutline t'' :=
  ⟨h.workdir.trans h'.workdir, fun loc => (h.entry loc).trans (h'.entry loc)⟩

end FileTree

/-- The reason, with a file that stands in the place of a directory counted as a missing one. -/
def FileError.outline : FileError → FileError
  | .notDirectory => .notExist
  | reason => reason

@[simp] theorem FileError.outline_outline (reason : FileError) :
    reason.outline.outline = reason.outline := by
  cases reason <;> rfl

/-- The error with the outline of its reason. -/
def AccessError.outline (e : AccessError) : AccessError := { e with reason := e.reason.outline }

namespace FileTree

/-- Where a walk ends, with a file as a free place. -/
def Walk.outline : Walk → Walk
  | .found loc (.file _) => .missing loc
  | .failed reason => .failed reason.outline
  | w => w

variable {t t' : FileTree}

/-- A last name at a free place or a file leads there, and more names lead nowhere. -/
theorem outline_walkEntry (t : FileTree) (through : Bool) (dir : Location) (n : Text)
    (ns : List Text) {e : Option Entry} (he : Entry.outline? e = none) :
    (t.walkEntry through dir n ns e).outline =
      if ns.isEmpty then .missing (dir ++ [n]) else .failed .notExist := by
  rcases e with _ | _ | content | target
  · cases ns <;> rfl
  · exact absurd he (by simp [Entry.outline?])
  · cases ns <;> rfl
  · exact absurd he (by simp [Entry.outline?])

theorem outline_walk (h : t.SameOutline t') (through : Bool) (dir : Location) (ns : List Text) :
    (t.walk through dir ns).outline = (t'.walk through dir ns).outline := by
  induction ns generalizing dir with
  | nil => rfl
  | cons n ns ih =>
    rcases name_cases n with rfl | rfl | ⟨hh, ha, hl⟩ | ⟨hh, ha, hl⟩
    · rw [walk_here, walk_here, ih]
    · rw [walk_above, walk_above, ih]
    · rw [walk_long t _ dir _ hh ha hl, walk_long t' _ dir _ hh ha hl]
    · rw [walk_entry t _ dir _ hh ha hl, walk_entry t' _ dir _ hh ha hl]
      have hentry := h.entry (dir ++ [n])
      rcases he : t.entry? (dir ++ [n]) with _ | _ | content | target
      · rw [he] at hentry
        rw [outline_walkEntry t through dir n ns rfl, outline_walkEntry t' _ _ _ _ hentry.symm]
      · rw [he] at hentry
        rw [Entry.eq_of_outline? hentry]
        exact ih (dir ++ [n])
      · rw [he] at hentry
        rw [outline_walkEntry t through dir n ns rfl, outline_walkEntry t' _ _ _ _ hentry.symm]
      · rw [he] at hentry
        rw [Entry.eq_of_outline? hentry]
        rfl

theorem outline_eq_redirected_iff {w : Walk} {dir : Location} {ns : List Text} :
    w.outline = .redirected dir ns ↔ w = .redirected dir ns := by
  rcases w with ⟨loc, _ | content | target⟩ | loc | ⟨dir', ns'⟩ | reason <;> simp [Walk.outline]

theorem outline_follow_of_walk (h : t.SameOutline t') {through : Bool} {links : Nat}
    {dir : Location} {ns : List Text}
    (hred : ¬ ∃ dir' ns', t.walk through dir ns = .redirected dir' ns') :
    (t.follow through links dir ns).outline = (t'.follow through links dir ns).outline := by
  have hwalk := outline_walk h through dir ns
  have hred' : ∀ dir' ns', t'.walk through dir ns ≠ .redirected dir' ns' := by
    intro dir' ns' heq
    rw [← outline_eq_redirected_iff, ← hwalk, outline_eq_redirected_iff] at heq
    exact hred ⟨dir', ns', heq⟩
  rw [follow_of_walk rfl fun dir' ns' heq => hred ⟨dir', ns', heq⟩, follow_of_walk rfl hred', hwalk]

theorem outline_follow (h : t.SameOutline t') (through : Bool) (links : Nat) (dir : Location)
    (ns : List Text) :
    (t.follow through links dir ns).outline = (t'.follow through links dir ns).outline := by
  induction links generalizing dir ns with
  | zero =>
    by_cases hred : ∃ dir' ns', t.walk through dir ns = .redirected dir' ns'
    · obtain ⟨dir', ns', hwalk⟩ := hred
      have hwalk' := outline_eq_redirected_iff.mpr hwalk
      rw [outline_walk h, outline_eq_redirected_iff] at hwalk'
      rw [follow, follow, hwalk, hwalk']
    · exact outline_follow_of_walk h hred
  | succ links ih =>
    by_cases hred : ∃ dir' ns', t.walk through dir ns = .redirected dir' ns'
    · obtain ⟨dir', ns', hwalk⟩ := hred
      have hwalk' := outline_eq_redirected_iff.mpr hwalk
      rw [outline_walk h, outline_eq_redirected_iff] at hwalk'
      rw [follow, follow, hwalk, hwalk']
      exact ih dir' ns'
    · exact outline_follow_of_walk h hred

/-- In trees with the same directories and links a path leads to the same place. -/
theorem outline_resolve (h : t.SameOutline t') (through : Bool) (path : Text) :
    (t.resolve through path).outline = (t'.resolve through path).outline := by
  unfold resolve
  rw [h.workdir]
  split
  · rfl
  · split
    · rfl
    · split
      · rfl
      · exact outline_follow h through maxLinks _ _

/-! ## The location of a written file -/

theorem outline_eq_missing_iff {w : Walk} {loc : Location} :
    w.outline = .missing loc ↔ w = .missing loc ∨ ∃ content, w = .found loc (.file content) := by
  rcases w with ⟨loc', _ | content | target⟩ | loc' | ⟨dir, ns⟩ | reason <;>
    simp [Walk.outline]

/-- A path can be written to if it leads to a file or to a free place in a directory. -/
theorem writeLocation_eq_ok_iff {path : Text} {loc : Location} :
    t.writeLocation path = .ok loc ↔ (t.resolve true path).outline = .missing loc := by
  have hsound := t.resolve_sound true path
  unfold writeLocation
  rcases hres : t.resolve true path with ⟨loc', _ | content | target⟩ | loc' | ⟨dir, ns⟩ | reason
  · simp [Walk.outline]
  · simp [Walk.outline]
  · rw [hres] at hsound
    rcases hsound with h | ⟨-, -, h⟩
    · exact absurd h (by simp)
    · exact absurd rfl (h target rfl)
  · simp [Walk.outline]
  · simp [Walk.outline]
  · simp only [Walk.outline, reduceCtorEq, iff_false]
    split
    · simp
    · split
      · simp
      · split <;> simp

/-- In trees with the same directories and links a path is written to the same location. -/
theorem writeLocation_congr (h : t.SameOutline t') {path : Text} {loc : Location} :
    t.writeLocation path = .ok loc ↔ t'.writeLocation path = .ok loc := by
  rw [writeLocation_eq_ok_iff, writeLocation_eq_ok_iff, outline_resolve h]

/-- Where writing to a path puts its content, by where the path leads with and without the slashes
at its end. -/
def writeOutcome (path : Text) (whole trimmed : Walk) : Except AccessError Location :=
  match whole with
  | .found _ .directory => .error { action := .open, path, reason := .isDirectory }
  | .found loc _ => .ok loc
  | .missing loc => .ok loc
  | .failed reason =>
    if Text.trimRightBy (· == Path.slash) path = [] ∨
        (Text.trimRightBy (· == Path.slash) path).length = path.length then
      .error { action := .open, path, reason }
    else
      match trimmed with
      | .failed reason => .error { action := .open, path, reason }
      | _ => .error { action := .open, path, reason := .isDirectory }
  | .redirected _ _ => .error { action := .open, path, reason := .tooManyLinks }

theorem writeLocation_eq_writeOutcome (t : FileTree) (path : Text) :
    t.writeLocation path = writeOutcome path (t.resolve true path)
      (t.resolve false (Text.trimRightBy (· == Path.slash) path)) := by
  unfold writeLocation writeOutcome
  rcases t.resolve true path with ⟨loc, _ | content | target⟩ | loc | ⟨dir, ns⟩ | reason
  case failed =>
    dsimp only
    split
    · next h => rw [if_pos (.inl h)]
    · next h =>
      by_cases hlength : (Text.trimRightBy (· == Path.slash) path).length = path.length
      · rw [if_pos (beq_iff_eq.mpr hlength), if_pos (.inr hlength)]
      · rewrite [if_neg (mt beq_iff_eq.mp hlength), if_neg (not_or.mpr ⟨h, hlength⟩)]
        cases t.resolve false (Text.trimRightBy (· == Path.slash) path) <;> rfl
  all_goals rfl

theorem mapError_writeOutcome (path : Text) (whole trimmed : Walk) :
    (writeOutcome path whole trimmed).mapError AccessError.outline =
      (writeOutcome path whole.outline trimmed.outline).mapError AccessError.outline := by
  rcases whole with ⟨loc, _ | content | target⟩ | loc | ⟨dir, ns⟩ | reason
  case failed =>
    simp only [writeOutcome, Walk.outline]
    split
    · simp [Except.mapError, AccessError.outline]
    · rcases trimmed with ⟨loc, _ | content | target⟩ | loc | ⟨dir, ns⟩ | reason' <;>
        simp [Except.mapError, AccessError.outline]
  all_goals rfl

/-- In trees with the same directories and links a path is written to the same location, or it
cannot be written for the same reason, but for a file in the place of a missing directory. -/
theorem mapError_writeLocation (h : t.SameOutline t') (path : Text) :
    (t.writeLocation path).mapError AccessError.outline =
      (t'.writeLocation path).mapError AccessError.outline := by
  rw [writeLocation_eq_writeOutcome, writeLocation_eq_writeOutcome, mapError_writeOutcome,
    outline_resolve h, outline_resolve h, ← mapError_writeOutcome]

/-- The location that is written to is below the root, and it is free or has a file. -/
theorem outline_of_writeLocation {path : Text} {loc : Location}
    (h : t.writeLocation path = .ok loc) :
    loc ≠ [] ∧ Entry.outline? (t.entry? loc) = none := by
  have hsound := t.resolve_sound true path
  rcases outline_eq_missing_iff.mp (writeLocation_eq_ok_iff.mp h) with hres | ⟨content, hres⟩
  · rw [hres] at hsound
    rw [hsound.2]
    exact ⟨hsound.1, rfl⟩
  · rw [hres] at hsound
    rcases hsound with hdir | ⟨hne, hentry, -⟩
    · exact absurd hdir (by simp)
    · rw [hentry]
      exact ⟨hne, rfl⟩

/-- What stands at the location of a path is read through the path. -/
theorem stat_of_writeLocation {path : Text} {loc : Location} {content : Text}
    (h : t.writeLocation path = .ok loc) (hentry : t.entry? loc = some (.file content)) :
    t.stat path = .ok (loc, .file content) ∧ t.load path = .ok content := by
  have hsound := t.resolve_sound true path
  have hres : t.resolve true path = .found loc (.file content) := by
    rcases outline_eq_missing_iff.mp (writeLocation_eq_ok_iff.mp h) with hres | ⟨content', hres⟩
    · rw [hres] at hsound
      rw [hsound.2] at hentry
      exact absurd hentry (by simp)
    · rw [hres] at hsound
      rcases hsound with hdir | ⟨-, hentry', -⟩
      · exact absurd hdir (by simp)
      · rw [hres, Option.some.inj (hentry'.symm.trans hentry)]
  refine ⟨locate_eq_ok_iff.mpr hres, ?_⟩
  rw [load, locate_eq_ok_iff.mpr hres]

theorem load_eq_ok_iff {path content : Text} : t.load path = .ok content ↔
    ∃ loc, t.resolve true path = .found loc (.file content) := by
  unfold load locate
  rcases t.resolve true path with ⟨loc, _ | text | target⟩ | loc | ⟨dir, ns⟩ | reason <;> simp

/-- A file that can be read is written where it stands. -/
theorem writeLocation_of_load {path content : Text} (h : t.load path = .ok content) :
    ∃ loc, t.writeLocation path = .ok loc ∧ loc ≠ [] ∧ t.entry? loc = some (.file content) := by
  obtain ⟨loc, hres⟩ := load_eq_ok_iff.mp h
  have hsound := t.resolve_sound true path
  rw [hres] at hsound
  rcases hsound with hdir | ⟨hne, hentry, -⟩
  · exact absurd hdir (by simp)
  · refine ⟨loc, ?_, hne, hentry⟩
    rw [writeLocation_eq_ok_iff, hres]
    rfl

/-- Storing what a file holds changes nothing. -/
theorem storeAt_of_load {path content : Text} (h : t.load path = .ok content) :
    ∃ loc, t.storeAt path content = .ok (loc, t) := by
  obtain ⟨loc, hloc, hne, hentry⟩ := writeLocation_of_load h
  refine ⟨loc, ?_⟩
  rw [storeAt, hloc]
  show Except.ok (loc, t.put loc (.file content)) = _
  rw [put_eq_self hne hentry]

/-- Writing leaves directories and links alone. -/
theorem sameOutline_put {path : Text} {loc : Location} (h : t.writeLocation path = .ok loc)
    (content : Text) : t.SameOutline (t.put loc (.file content)) := by
  obtain ⟨hne, hfree⟩ := outline_of_writeLocation h
  refine ⟨rfl, fun other => ?_⟩
  by_cases heq : other = loc
  · rw [heq, hfree, entry?_put_self t hne]
    rfl
  · rw [entry?_put_of_ne t _ heq]

/-- A path below a directory that is no link is written to the place below that directory. -/
theorem writeLocation_below {root : Text} {top : Location}
    (hroot : t.stat (Path.clean root) = .ok (top, .directory)) {dirs : List Text}
    (hnames : ∀ d ∈ dirs, Path.IsName d)
    (hreal : ∀ front ≠ [], front <+: dirs → t.entry? (top ++ front) = some .directory) {k : Text}
    (hk : Path.slash ∉ k) {path : Text}
    (hpath : path = Path.dirText (Path.isAbsolute root) (Path.components root ++ dirs) ++ k)
    (hlink : ∀ loc target, t.lstat path ≠ .ok (loc, .link target)) {loc : Location}
    (h : t.writeLocation path = .ok loc) : loc = top ++ dirs ++ [k] := by
  rw [writeLocation_eq_ok_iff] at h
  rcases follow_below hroot hnames hreal hk with ⟨left, hleft⟩ | ⟨reason, hfail⟩
  · rw [← hpath] at hleft
    rw [hleft] at h
    -- only a name that an entry can have leads to a file or a free place
    rcases name_cases (if k = [] then Path.here else k) with hn | hn | ⟨hh, ha, hl⟩ | ⟨hh, ha, hl⟩
    · rw [hn, follow_here, follow_of_walk (walk_nil t true _) (by simp)] at h
      exact absurd h (by simp [Walk.outline])
    · rw [hn, follow_of_walk (walk_above t true _ []) (by simp)] at h
      exact absurd h (by simp [Walk.outline])
    · rw [follow_of_walk (walk_long t true _ [] hh ha hl) (by simp)] at h
      exact absurd h (by simp [Walk.outline])
    · have hne : k ≠ [] := fun hnil => hh (if_pos hnil)
      rw [if_neg hne] at hh ha hl h hleft
      have hwalk := fun through => walk_entry t through (top ++ dirs) [] hh ha hl
      rcases he : t.entry? (top ++ dirs ++ [k]) with _ | _ | content | target
      · rw [he] at hwalk
        rw [follow_of_walk (hwalk true) (by simp [walkEntry])] at h
        exact (Walk.missing.inj h).symm
      · rw [he] at hwalk
        rw [follow_of_walk (hwalk true) (by simp [walkEntry])] at h
        exact absurd h (by simp [walkEntry, Walk.outline])
      · rw [he] at hwalk
        rw [follow_of_walk (hwalk true) (by simp [walkEntry])] at h
        exact (Walk.missing.inj h).symm
      · rw [he] at hwalk
        have hfound := hleft false
        rw [follow_of_walk (hwalk false) (by simp [walkEntry])] at hfound
        exact absurd (locate_eq_ok_iff.mpr hfound) (hlink _ target)
  · rw [hpath, hfail] at h
    exact absurd h (by simp [Walk.outline])

end FileTree

end ReflectGen

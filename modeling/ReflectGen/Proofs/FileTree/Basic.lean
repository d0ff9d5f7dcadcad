import Mathlib.Data.List.Infix
import ReflectGen.FileTree.Operations
import ReflectGen.Proofs.Keyed
import ReflectGen.Proofs.Path

/-!
# Following names in a file tree

What a path denotes is found by walking along its names and starting again at every link.  This file
has the laws of that walk: it goes on from a directory it has found, it passes real directories by
their names, and where it ends there is an entry or a free place.

* `FileTree.entry?_put_self`, `FileTree.entry?_put_of_ne`: the tree as a map.
* `FileTree.WellFormed`: entries have different locations, proper names and directories above them.
* `FileTree.follow_append`: names behind a path to a directory are followed from that directory.
* `FileTree.walk_directories_eq`: the way along real directories.
* `FileTree.resolve_sound`: what stands where a path ends.
-/

namespace ReflectGen

namespace FileTree

/-! ## The tree as a map -/

theorem lookup_putEntry_self (es : List (Location × Entry)) (loc : Location) (e : Entry) :
    (putEntry es loc e).lookup loc = some e := by
  induction es with
  | nil => simp [putEntry]
  | cons head es ih =>
    obtain ⟨l, d⟩ := head
    by_cases h : l == loc
    · rw [putEntry, if_pos h, beq_iff_eq.mp h, List.lookup_cons_self]
    · have hne : (loc == l) = false := by
        rw [beq_eq_false_iff_ne]
        exact fun heq => h (beq_iff_eq.mpr heq.symm)
      rw [putEntry, if_neg h, List.lookup_cons, hne]
      exact ih

theorem lookup_putEntry_of_ne (es : List (Location × Entry)) {loc other : Location} (e : Entry)
    (hne : other ≠ loc) : (putEntry es loc e).lookup other = es.lookup other := by
  have hother : (other == loc) = false := beq_eq_false_iff_ne.mpr hne
  induction es with
  | nil => rw [putEntry, List.lookup_cons, hother]
  | cons head es ih =>
    obtain ⟨l, d⟩ := head
    by_cases h : l == loc
    · rw [putEntry, if_pos h, beq_iff_eq.mp h, List.lookup_cons, List.lookup_cons, hother]
    · rw [putEntry, if_neg h, List.lookup_cons, List.lookup_cons, ih]

variable {t : FileTree}

@[simp] theorem entry?_nil (t : FileTree) : t.entry? [] = some .directory := rfl

theorem entry?_of_ne_nil (t : FileTree) {loc : Location} (h : loc ≠ []) :
    t.entry? loc = t.entries.lookup loc := by
  unfold entry?
  rw [if_neg (by simpa using h)]

/-- The entry that was put at a location. -/
theorem entry?_put_self (t : FileTree) {loc : Location} (h : loc ≠ []) (e : Entry) :
    entry? (t.put loc e) loc = some e := by
  rw [entry?_of_ne_nil _ h]
  exact lookup_putEntry_self t.entries loc e

/-- Every other location has the entry it had. -/
theorem entry?_put_of_ne (t : FileTree) {loc other : Location} (e : Entry) (hne : other ≠ loc) :
    entry? (t.put loc e) other = t.entry? other := by
  by_cases hnil : other = []
  · rw [hnil, entry?_nil, entry?_nil]
  · rw [entry?_of_ne_nil _ hnil, entry?_of_ne_nil _ hnil]
    exact lookup_putEntry_of_ne t.entries e hne

theorem putEntry_of_lookup {es : List (Location × Entry)} {loc : Location} {e : Entry}
    (h : es.lookup loc = some e) : putEntry es loc e = es := by
  induction es with
  | nil => exact absurd h (by simp)
  | cons head es ih =>
    obtain ⟨l, d⟩ := head
    by_cases hl : l == loc
    · rw [beq_iff_eq.mp hl, List.lookup_cons_self] at h
      rw [putEntry, if_pos hl, Option.some.inj h]
    · have hne : (loc == l) = false := by
        rw [beq_eq_false_iff_ne]
        exact fun heq => hl (beq_iff_eq.mpr heq.symm)
      rw [List.lookup_cons, hne] at h
      rw [putEntry, if_neg hl, ih h]

/-- Putting the entry that is there changes nothing. -/
theorem put_eq_self {loc : Location} {e : Entry} (hne : loc ≠ []) (h : t.entry? loc = some e) :
    t.put loc e = t := by
  rw [entry?_of_ne_nil t hne] at h
  rw [put, putEntry_of_lookup h]

/-- The entries lie at different locations below the root and have proper names, there is a
directory above each of them, and the working directory exists.  All operations that make entries
keep it so (`ReflectGen.Proofs.FileTree.WellFormed`). -/
structure WellFormed (t : FileTree) : Prop where
  nodup : (t.entries.map Prod.fst).Nodup
  ne_nil : ∀ e ∈ t.entries, e.1 ≠ []
  isName : ∀ e ∈ t.entries, ∀ n ∈ e.1, Path.IsName n
  parent : ∀ e ∈ t.entries, t.entry? e.1.dropLast = some .directory
  workdir : t.entry? t.workdir = some .directory

theorem wellFormed_iff (t : FileTree) :
    t.WellFormed ↔ (t.entries.map Prod.fst).Nodup ∧
      (∀ e ∈ t.entries, e.1 ≠ [] ∧ (∀ n ∈ e.1, Path.IsName n) ∧
        t.entry? e.1.dropLast = some .directory) ∧
      t.entry? t.workdir = some .directory :=
  ⟨fun h => ⟨h.nodup, fun e he => ⟨h.ne_nil e he, h.isName e he, h.parent e he⟩, h.workdir⟩,
    fun h => ⟨h.1, fun e he => (h.2.1 e he).1, fun e he => (h.2.1 e he).2.1,
      fun e he => (h.2.1 e he).2.2, h.2.2⟩⟩

instance (t : FileTree) : Decidable t.WellFormed := decidable_of_iff' _ t.wellFormed_iff

theorem mem_entries_of_eq_some {loc : Location} {e : Entry} (hne : loc ≠ [])
    (h : t.entry? loc = some e) : (loc, e) ∈ t.entries := by
  rw [entry?_of_ne_nil t hne] at h
  exact mem_of_lookup_eq_some h

theorem WellFormed.entry?_of_mem (hwf : t.WellFormed) {loc : Location} {e : Entry}
    (h : (loc, e) ∈ t.entries) : t.entry? loc = some e := by
  rw [entry?_of_ne_nil t (hwf.ne_nil _ h)]
  exact lookup_eq_some_of_mem hwf.nodup h

/-- On the way to an entry there are only directories. -/
theorem WellFormed.directory_of_append (hwf : t.WellFormed) {loc below : Location} {e : Entry}
    (hne : below ≠ []) (h : t.entry? (loc ++ below) = some e) :
    t.entry? loc = some .directory := by
  induction below using List.reverseRecOn generalizing e with
  | nil => exact absurd rfl hne
  | append_singleton below n ih =>
    have hparent := hwf.parent _ (mem_entries_of_eq_some (by simp) h)
    rw [← List.append_assoc, List.dropLast_concat] at hparent
    by_cases hbelow : below = []
    · simpa [hbelow] using hparent
    · exact ih hbelow hparent

/-! ## Walking -/

variable {through : Bool}

@[simp] theorem walk_nil (t : FileTree) (through : Bool) (dir : Location) :
    t.walk through dir [] = .found dir .directory := by
  rw [walk]

@[simp] theorem walk_here (t : FileTree) (through : Bool) (dir : Location) (ns : List Text) :
    t.walk through dir (Path.here :: ns) = t.walk through dir ns := by
  rw [walk, if_pos (beq_self_eq_true _)]

@[simp] theorem walk_above (t : FileTree) (through : Bool) (dir : Location) (ns : List Text) :
    t.walk through dir (Path.above :: ns) = t.walk through dir.dropLast ns := by
  rw [walk, if_neg (by decide), if_pos (beq_self_eq_true _)]

/-- A name that is too long is refused. -/
theorem walk_long (t : FileTree) (through : Bool) (dir : Location) {n : Text} (ns : List Text)
    (hhere : n ≠ Path.here) (habove : n ≠ Path.above) (hlong : maxName < n.length) :
    t.walk through dir (n :: ns) = .failed .nameTooLong := by
  rw [walk, if_neg (mt beq_iff_eq.mp hhere), if_neg (mt beq_iff_eq.mp habove), if_pos hlong]

/-- Where a name leads that can be that of an entry. -/
def walkEntry (t : FileTree) (through : Bool) (dir : Location) (n : Text) (ns : List Text) :
    Option Entry → Walk
  | none => if ns.isEmpty then .missing (dir ++ [n]) else .failed .notExist
  | some .directory => t.walk through (dir ++ [n]) ns
  | some (.file content) =>
    if ns.isEmpty then .found (dir ++ [n]) (.file content) else .failed .notDirectory
  | some (.link target) =>
    if ns.isEmpty && !through then .found (dir ++ [n]) (.link target)
    else .redirected (if Path.isAbsolute target then [] else dir) (names target ++ ns)

theorem walk_entry (t : FileTree) (through : Bool) (dir : Location) {n : Text} (ns : List Text)
    (hhere : n ≠ Path.here) (habove : n ≠ Path.above) (hlong : ¬ maxName < n.length) :
    t.walk through dir (n :: ns) = t.walkEntry through dir n ns (t.entry? (dir ++ [n])) := by
  rw [walk, if_neg (mt beq_iff_eq.mp hhere), if_neg (mt beq_iff_eq.mp habove), if_neg hlong]
  cases t.entry? (dir ++ [n]) with
  | none => rfl
  | some e => cases e <;> rfl

/-- The four ways on from a name. -/
theorem name_cases (n : Text) :
    n = Path.here ∨ n = Path.above ∨
      (n ≠ Path.here ∧ n ≠ Path.above ∧ maxName < n.length) ∨
      (n ≠ Path.here ∧ n ≠ Path.above ∧ ¬ maxName < n.length) := by
  by_cases hhere : n = Path.here
  · exact .inl hhere
  · by_cases habove : n = Path.above
    · exact .inr (.inl habove)
    · by_cases hlong : maxName < n.length
      · exact .inr (.inr (.inl ⟨hhere, habove, hlong⟩))
      · exact .inr (.inr (.inr ⟨hhere, habove, hlong⟩))

/-- The walk along more names, given how it ended without them: it goes on from a directory. -/
def Walk.extend (rest : List Text) (next : Location → Walk) : Walk → Walk
  | .found dir .directory => next dir
  | .found _ _ => .failed .notDirectory
  | .missing _ => .failed .notExist
  | .redirected dir ns => .redirected dir (ns ++ rest)
  | .failed reason => .failed reason

/-- A walk goes on where it ended. -/
theorem walk_append (t : FileTree) (through : Bool) (dir : Location) (ns : List Text)
    {rest : List Text} (hrest : rest ≠ []) :
    t.walk through dir (ns ++ rest) =
      Walk.extend rest (fun top => t.walk through top rest) (t.walk true dir ns) := by
  induction ns generalizing dir with
  | nil => rfl
  | cons n ns ih =>
    rw [List.cons_append]
    rcases name_cases n with rfl | rfl | ⟨hh, ha, hl⟩ | ⟨hh, ha, hl⟩
    · rw [walk_here, walk_here, ih]
    · rw [walk_above, walk_above, ih]
    · rw [walk_long t _ dir _ hh ha hl, walk_long t _ dir _ hh ha hl]
      rfl
    · rw [walk_entry t _ dir _ hh ha hl, walk_entry t _ dir _ hh ha hl]
      rcases t.entry? (dir ++ [n]) with _ | _ | content | target
      · cases ns <;> simp [walkEntry, Walk.extend, hrest]
      · exact ih (dir ++ [n])
      · cases ns <;> simp [walkEntry, Walk.extend, hrest]
      · simp [walkEntry, Walk.extend, hrest]

/-- The way along real directories: the names lead from one to the next, unless one of them is too
long for any path. -/
theorem walk_directories_eq {top : Location} {dirs : List Text} (hnames : ∀ d ∈ dirs, Path.IsName d)
    (hreal : ∀ front ≠ [], front <+: dirs → t.entry? (top ++ front) = some .directory)
    (through : Bool) (rest : List Text) :
    t.walk through top (dirs ++ rest) =
      if dirs.any fun d => maxName < d.length then .failed .nameTooLong
      else t.walk through (top ++ dirs) rest := by
  induction dirs generalizing top with
  | nil =>
    rw [List.append_nil, List.nil_append]
    rfl
  | cons d dirs ih =>
    have hd := hnames d List.mem_cons_self
    rw [List.cons_append, List.any_cons]
    by_cases hlong : maxName < d.length
    · rw [walk_long t through top _ hd.ne_here hd.ne_above hlong, if_pos (by simp [hlong])]
    · have hentry := hreal [d] (by simp) (by simp)
      have hreal' : ∀ front ≠ [], front <+: dirs →
          t.entry? (top ++ [d] ++ front) = some .directory := by
        intro front _ hfront
        rw [List.append_assoc]
        exact hreal (d :: front) (by simp) ((List.prefix_cons_inj d).mpr hfront)
      rw [walk_entry t through top _ hd.ne_here hd.ne_above hlong, hentry]
      show t.walk through (top ++ [d]) (dirs ++ rest) = _
      rw [ih (fun d' hd' => hnames d' (List.mem_cons_of_mem d hd')) hreal', List.append_assoc,
        List.singleton_append, decide_eq_false hlong, Bool.false_or]

/-- The names of real directories lead from one to the next, or one of them is too long for any
path. -/
theorem walk_directories {top : Location} {dirs : List Text} (hnames : ∀ d ∈ dirs, Path.IsName d)
    (hreal : ∀ front ≠ [], front <+: dirs → t.entry? (top ++ front) = some .directory) :
    (∀ through rest, t.walk through top (dirs ++ rest) = t.walk through (top ++ dirs) rest) ∨
      ∀ through rest, t.walk through top (dirs ++ rest) = .failed .nameTooLong := by
  by_cases hlong : dirs.any fun d => maxName < d.length
  · refine .inr fun through rest => ?_
    rw [walk_directories_eq hnames hreal, if_pos hlong]
  · refine .inl fun through rest => ?_
    rw [walk_directories_eq hnames hreal, if_neg hlong]

/-! ## Following links -/

theorem follow_of_walk_eq {links : Nat} {dir dir' : Location} {ns ns' : List Text}
    (h : t.walk through dir ns = t.walk through dir' ns') :
    t.follow through links dir ns = t.follow through links dir' ns' := by
  cases links <;> rw [follow, follow, h]

/-- Where a walk ends without a link, following ends. -/
theorem follow_of_walk {links : Nat} {dir : Location} {ns : List Text} {w : Walk}
    (h : t.walk through dir ns = w) (hw : ∀ dir' ns', w ≠ .redirected dir' ns') :
    t.follow through links dir ns = w := by
  cases links <;>
  · rw [follow, h]
    split
    · next dir' ns' => exact absurd rfl (hw dir' ns')
    · rfl

@[simp] theorem follow_here (t : FileTree) (through : Bool) (links : Nat) (dir : Location)
    (ns : List Text) :
    t.follow through links dir (Path.here :: ns) = t.follow through links dir ns :=
  follow_of_walk_eq (walk_here t through dir ns)

/-- Names behind a path to a directory are followed from that directory, with the links that are
left. -/
theorem follow_append {links : Nat} {dir top : Location} {ns : List Text}
    (h : t.follow true links dir ns = .found top .directory) :
    ∃ left, ∀ (through : Bool) (rest : List Text), rest ≠ [] →
      t.follow through links dir (ns ++ rest) = t.follow through left top rest := by
  induction links generalizing dir ns with
  | zero =>
    rw [follow] at h
    split at h
    · exact absurd h (by simp)
    · refine ⟨0, fun through rest hrest => follow_of_walk_eq ?_⟩
      rw [walk_append t through dir ns hrest, h]
      rfl
  | succ links ih =>
    rw [follow] at h
    split at h
    · next dir' ns' hwalk =>
      obtain ⟨left, hleft⟩ := ih h
      refine ⟨left, fun through rest hrest => ?_⟩
      rw [follow, walk_append t through dir ns hrest, hwalk]
      exact hleft through rest hrest
    · refine ⟨links + 1, fun through rest hrest => follow_of_walk_eq ?_⟩
      rw [walk_append t through dir ns hrest, h]
      rfl

/-! ## Where a path ends -/

/-- Something other than a directory that a walk finds is an entry of the tree, and no link if links
are followed; and what it misses is no entry. -/
def Walk.Sound (t : FileTree) (through : Bool) : Walk → Prop
  | .found loc e => e = .directory ∨
      (loc ≠ [] ∧ t.entry? loc = some e ∧ ∀ target, through = true → e ≠ .link target)
  | .missing loc => loc ≠ [] ∧ t.entry? loc = none
  | _ => True

theorem walk_sound (t : FileTree) (through : Bool) (dir : Location) (ns : List Text) :
    (t.walk through dir ns).Sound t through := by
  induction ns generalizing dir with
  | nil => exact .inl rfl
  | cons n ns ih =>
    rcases name_cases n with rfl | rfl | ⟨hh, ha, hl⟩ | ⟨hh, ha, hl⟩
    · rw [walk_here]
      exact ih dir
    · rw [walk_above]
      exact ih dir.dropLast
    · rw [walk_long t _ dir _ hh ha hl]
      trivial
    · rw [walk_entry t _ dir _ hh ha hl]
      rcases he : t.entry? (dir ++ [n]) with _ | _ | content | target
      · rw [walkEntry]
        split
        · exact ⟨by simp, he⟩
        · trivial
      · exact ih (dir ++ [n])
      · rw [walkEntry]
        split
        · exact .inr ⟨by simp, he, by simp⟩
        · trivial
      · rw [walkEntry]
        split
        · next hlast => exact .inr ⟨by simp, he, fun _ hthrough => by simp [hthrough] at hlast⟩
        · trivial

theorem follow_sound (t : FileTree) (through : Bool) (links : Nat) (dir : Location)
    (ns : List Text) : (t.follow through links dir ns).Sound t through := by
  induction links generalizing dir ns with
  | zero =>
    rw [follow]
    split
    · trivial
    · exact t.walk_sound through dir ns
  | succ links ih =>
    rw [follow]
    split
    · exact ih _ _
    · exact t.walk_sound through dir ns

/-- A path that is not refused as a text is followed along its names. -/
theorem resolve_cases (t : FileTree) (path : Text) :
    (path ≠ [] ∧ ∀ through, t.resolve through path = t.follow through maxLinks
        (if Path.isAbsolute path then [] else t.workdir) (names path)) ∨
      ∃ reason, ∀ through, t.resolve through path = .failed reason := by
  unfold resolve
  by_cases hzero : path.contains 0
  · exact .inr ⟨_, fun through => if_pos hzero⟩
  · by_cases hnil : path.isEmpty
    · exact .inr ⟨_, fun through => by rw [if_neg hzero, if_pos hnil]⟩
    · by_cases hlong : maxPath ≤ path.length
      · exact .inr ⟨_, fun through => by rw [if_neg hzero, if_neg hnil, if_pos hlong]⟩
      · refine .inl ⟨by simpa using hnil, fun through => ?_⟩
        rw [if_neg hzero, if_neg hnil, if_neg hlong]

theorem resolve_sound (t : FileTree) (through : Bool) (path : Text) :
    (t.resolve through path).Sound t through := by
  rcases t.resolve_cases path with ⟨-, h⟩ | ⟨reason, h⟩
  · rw [h]
    exact t.follow_sound _ _ _ _
  · rw [h]
    trivial

end FileTree

end ReflectGen

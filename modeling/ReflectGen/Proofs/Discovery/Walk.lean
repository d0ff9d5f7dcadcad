import ReflectGen.Discovery
import ReflectGen.Proofs.FileTree.Directory
import ReflectGen.Proofs.FileTree.WellFormed

/-!
# Walking through a directory

A walk reads one directory after the other and goes on in those that are not skipped.  Whatever it
meets, it comes to an entry at most once, because it knows each by its own names.

## Where a walk comes to

A directory below the root is read under the cleaned path of the root with its names behind it.  If
that path denotes the directory, for every directory that is not skipped, then the walk comes to
exactly the files that lie in no skipped directory (`Discovery.visit_of_entered`).  It may denote
another place when the cleaned path of the root is that of another directory, and it may be too long
to be followed; a walk that succeeds below the directory of the cleaned path has met neither
(`Discovery.entered_of_visit`).

* `Discovery.visit_succ_eq_ok_iff`: one directory, with what is found at each of its entries.
* `Discovery.nodup_of_visit`, `Discovery.names_of_visit`: what every walk finds.
* `Discovery.IsPruned`: the directories that no walk enters.
* `Discovery.Entered`: the paths of all other directories denote them.
-/

namespace ReflectGen

/-- The results of all steps in a row, if each of them has one. -/
theorem map_flatten_mapM_eq_ok_iff {ε α β : Type} {f : α → Except ε (List β)} {xs : List α}
    {l : List β} :
    (xs.mapM f).map List.flatten = .ok l ↔
      (∀ x ∈ xs, ∃ found, f x = .ok found) ∧
        l = xs.flatMap fun x => (f x).toOption.getD [] := by
  induction xs generalizing l with
  | nil => simp [pure, Except.pure, Except.map, eq_comm]
  | cons x xs ih =>
    rw [List.mapM_cons, List.forall_mem_cons, List.flatMap_cons]
    cases hx : f x with
    | error e => simp [bind, Except.bind, Except.map]
    | ok found =>
      cases hxs : xs.mapM f with
      | error e =>
        have hnone := @ih (xs.flatMap fun x => (f x).toOption.getD [])
        rw [hxs] at hnone
        simp only [Except.map, reduceCtorEq, and_true, false_iff] at hnone
        simp [bind, Except.bind, Except.map, hnone]
      | ok parts =>
        have hall := @ih parts.flatten
        rw [hxs] at hall
        obtain ⟨hok, hparts⟩ := hall.mp rfl
        rw [← hparts]
        show Except.ok (found ++ parts.flatten) = Except.ok l ↔ _ ∧ l = found ++ parts.flatten
        simp only [Except.ok.injEq, exists_eq', true_and, and_iff_right hok, eq_comm]

namespace Discovery

open ReflectGen.Path (IsName)

variable {t t' : FileTree} {root : Text} {top : Location} {inc exc : List Pattern} {k : Nat}
  {ns : List Text} {found : List (List Text)}

/-- What a walk finds at an entry of the directory at the end of these names. -/
def visitChild (t : FileTree) (inc exc : List Pattern) (root : Text) (k : Nat) (ns : List Text)
    (c : Text × Entry) : Except AccessError (List (List Text)) :=
  visitEntry inc exc (visit t inc exc root k) (ns ++ [c.1]) c.2

/-- A walk through a directory finds what it finds at its entries. -/
theorem visit_succ_eq_ok_iff :
    visit t inc exc root (k + 1) ns = .ok found ↔
      ∃ dir, t.stat (place root ns) = .ok (dir, .directory) ∧
        (∀ c ∈ t.children dir, ∃ part, visitChild t inc exc root k ns c = .ok part) ∧
        found = (t.children dir).flatMap fun c =>
          (visitChild t inc exc root k ns c).toOption.getD [] := by
  rw [visit]
  cases hread : t.readDirectory (place root ns) with
  | error e =>
    have hnone : ∀ dir, t.stat (place root ns) ≠ .ok (dir, .directory) := by
      intro dir hdir
      rw [FileTree.readDirectory_eq_ok_iff.mpr ⟨dir, hdir, rfl⟩] at hread
      exact absurd hread (by simp)
    simp [hnone]
  | ok cs =>
    obtain ⟨dir, hdir, rfl⟩ := FileTree.readDirectory_eq_ok_iff.mp hread
    dsimp only
    rw [map_flatten_mapM_eq_ok_iff, hdir]
    constructor
    · exact fun h => ⟨dir, rfl, h⟩
    · rintro ⟨dir', heq, h⟩
      obtain ⟨rfl, -⟩ := Prod.mk.inj (Except.ok.inj heq)
      exact h

/-- What is found at an entry, by what it is. -/
theorem visitChild_cases {c : Text × Entry}
    (h : visitChild t inc exc root k ns c = .ok found) :
    (c.2 = .directory ∧ isSkipped exc (Text.join [Path.slash] (ns ++ [c.1])) = false ∧
        visit t inc exc root k (ns ++ [c.1]) = .ok found) ∨
      ((∃ content, c.2 = .file content) ∧
        isSelected inc exc (Text.join [Path.slash] (ns ++ [c.1])) = true ∧
        found = [ns ++ [c.1]]) ∨ found = [] := by
  obtain ⟨n, _ | content | target⟩ := c
  · simp only [visitChild, visitEntry] at h
    split at h
    · exact .inr (.inr (Except.ok.inj h).symm)
    · next hskip => exact .inl ⟨rfl, by simpa using hskip, h⟩
  · simp only [visitChild, visitEntry] at h
    split at h
    · next hsel => exact .inr (.inl ⟨⟨content, rfl⟩, hsel, (Except.ok.inj h).symm⟩)
    · exact .inr (.inr (Except.ok.inj h).symm)
  · exact .inr (.inr (Except.ok.inj h).symm)

/-! ## What every walk finds -/

/-- What is found below a directory has proper names behind those of the directory. -/
theorem names_of_visit (hwf : t.WellFormed) :
    ∀ {k ns found}, visit t inc exc root k ns = .ok found → ∀ ms ∈ found,
      ∃ n rest, ms = ns ++ n :: rest ∧ ∀ m ∈ n :: rest, IsName m := by
  intro k
  induction k with
  | zero =>
    intro ns found h ms hms
    rw [visit] at h
    rw [← Except.ok.inj h] at hms
    exact absurd hms List.not_mem_nil
  | succ k ih =>
    intro ns found h ms hms
    obtain ⟨dir, -, hparts, rfl⟩ := visit_succ_eq_ok_iff.mp h
    obtain ⟨c, hc, hms⟩ := List.mem_flatMap.mp hms
    obtain ⟨part, hpart⟩ := hparts c hc
    rw [hpart] at hms
    replace hms : ms ∈ part := hms
    have hname : IsName c.1 :=
      hwf.isName_of_entry? (hwf.mem_children_iff.mp hc) c.1 (by simp)
    rcases visitChild_cases hpart with ⟨-, -, hvisit⟩ | ⟨-, -, rfl⟩ | rfl
    · obtain ⟨n, rest, rfl, hrest⟩ := ih hvisit ms hms
      refine ⟨c.1, n :: rest, by simp, ?_⟩
      exact List.forall_mem_cons.mpr ⟨hname, hrest⟩
    · rw [List.mem_singleton] at hms
      exact ⟨c.1, [], hms, by simpa using hname⟩
    · exact absurd hms List.not_mem_nil

/-- What is found at an entry has its name. -/
theorem prefix_of_visitChild (hwf : t.WellFormed) {c : Text × Entry}
    (h : visitChild t inc exc root k ns c = .ok found) : ∀ ms ∈ found, ns ++ [c.1] <+: ms := by
  intro ms hms
  rcases visitChild_cases h with ⟨-, -, hvisit⟩ | ⟨-, -, rfl⟩ | rfl
  · obtain ⟨n, rest, rfl, -⟩ := names_of_visit hwf hvisit ms hms
    exact List.prefix_append _ _
  · rw [List.mem_singleton.mp hms]
  · exact absurd hms List.not_mem_nil

/-- No walk comes to an entry twice. -/
theorem nodup_of_visit (hwf : t.WellFormed) :
    ∀ {k ns found}, visit t inc exc root k ns = .ok found → found.Nodup := by
  intro k
  induction k with
  | zero =>
    intro ns found h
    rw [visit] at h
    rw [← Except.ok.inj h]
    exact List.nodup_nil
  | succ k ih =>
    intro ns found h
    obtain ⟨dir, -, hparts, rfl⟩ := visit_succ_eq_ok_iff.mp h
    rw [List.nodup_flatMap]
    constructor
    · intro c hc
      obtain ⟨part, hpart⟩ := hparts c hc
      rw [hpart]
      show part.Nodup
      rcases visitChild_cases hpart with ⟨-, -, hvisit⟩ | ⟨-, -, rfl⟩ | rfl
      · exact ih hvisit
      · exact List.nodup_singleton _
      · exact List.nodup_nil
    · -- entries of different names are found under different names
      refine (List.pairwise_map.mp (hwf.nodup_children dir)).imp_of_mem ?_
      intro c c' hc hc' hne ms hms hms'
      obtain ⟨part, hpart⟩ := hparts c hc
      obtain ⟨part', hpart'⟩ := hparts c' hc'
      simp only [hpart, hpart'] at hms hms'
      have hfront := List.prefix_of_prefix_length_le (prefix_of_visitChild hwf hpart ms hms)
        (prefix_of_visitChild hwf hpart' ms hms') (by simp)
      exact hne (by simpa using hfront.eq_of_length (by simp))

/-! ## The directories that are entered -/

/-- The directory is skipped, or it lies in one that is. -/
def IsPruned (exc : List Pattern) (ns : List Text) : Prop :=
  ∃ front ≠ [], front <+: ns ∧ isSkipped exc (Text.join [Path.slash] front) = true

theorem not_isPruned_nil (exc : List Pattern) : ¬ IsPruned exc [] := by
  rintro ⟨front, hne, hfront, -⟩
  exact hne (List.prefix_nil.mp hfront)

theorem isPruned_concat_iff {n : Text} :
    IsPruned exc (ns ++ [n]) ↔
      IsPruned exc ns ∨ isSkipped exc (Text.join [Path.slash] (ns ++ [n])) = true := by
  constructor
  · rintro ⟨front, hne, hfront, hskip⟩
    rcases List.prefix_concat_iff.mp hfront with rfl | hfront
    · exact .inr hskip
    · exact .inl ⟨front, hne, hfront, hskip⟩
  · rintro (⟨front, hne, hfront, hskip⟩ | hskip)
    · exact ⟨front, hne, hfront.trans (List.prefix_append _ _), hskip⟩
    · exact ⟨_, by simp, List.prefix_refl _, hskip⟩

/-- The root is a real directory, and every directory below it that is not skipped is denoted by the
path under which a walk knows it. -/
structure Entered (t : FileTree) (root : Text) (top : Location) (exc : List Pattern) : Prop where
  real : t.lstat root = .ok (top, .directory)
  opened : ∀ ns ≠ [], t.entry? (top ++ ns) = some .directory → ¬ IsPruned exc ns →
    t.stat (place root ns) = .ok (top ++ ns, .directory)

/-- The file can be come to by a walk that enters the directory at the end of the names `ns`: it is
selected, and it lies in no directory further down that is skipped. -/
def IsFound (t : FileTree) (top : Location) (inc exc : List Pattern) (ns ms : List Text) : Prop :=
  ∃ dirs n, ms = ns ++ (dirs ++ [n]) ∧ (∃ content, t.entry? (top ++ ms) = some (.file content)) ∧
    isSelected inc exc (Text.join [Path.slash] ms) = true ∧ ¬ IsPruned exc (ns ++ dirs)

/-- What can be found in a directory is one of its files, or it can be found in one of its
directories. -/
theorem isFound_iff (hwf : t.WellFormed) (hns : ¬ IsPruned exc ns) {ms : List Text} :
    IsFound t top inc exc ns ms ↔ ∃ c ∈ t.children (top ++ ns),
      (c.2 = .directory ∧ isSkipped exc (Text.join [Path.slash] (ns ++ [c.1])) = false ∧
          IsFound t top inc exc (ns ++ [c.1]) ms) ∨
        ((∃ content, c.2 = .file content) ∧
          isSelected inc exc (Text.join [Path.slash] (ns ++ [c.1])) = true ∧
          ms = ns ++ [c.1]) := by
  constructor
  · rintro ⟨dirs, n, rfl, ⟨content, hfile⟩, hsel, hpruned⟩
    cases dirs with
    | nil =>
      refine ⟨(n, .file content), hwf.mem_children_iff.mpr ?_, .inr ⟨⟨content, rfl⟩, hsel, rfl⟩⟩
      simpa using hfile
    | cons d dirs =>
      have hbelow : t.entry? (top ++ ns ++ [d] ++ (dirs ++ [n])) = some (.file content) := by
        simpa using hfile
      have hdir := hwf.directory_of_append (by simp) hbelow
      refine ⟨(d, .directory), hwf.mem_children_iff.mpr hdir, .inl ⟨rfl, ?_, dirs, n, ?_, ?_⟩⟩
      · rw [← Bool.not_eq_true]
        intro hskip
        exact hpruned ⟨ns ++ [d], by simp, by simp, hskip⟩
      · simp
      · exact ⟨⟨content, by simpa using hfile⟩, by simpa using hsel, by simpa using hpruned⟩
  · rintro ⟨⟨n, e⟩, hc, hcase⟩
    have hentry := hwf.mem_children_iff.mp hc
    rcases hcase with ⟨-, -, dirs, m, rfl, hfile, hsel, hpruned⟩ | ⟨⟨content, rfl⟩, hsel, rfl⟩
    · exact ⟨n :: dirs, m, by simp, hfile, hsel, by simpa using hpruned⟩
    · exact ⟨[], n, rfl, ⟨content, by simpa using hentry⟩, hsel, by simpa using hns⟩

/-- What is found at an entry can be found there, if that holds of the entry's own walk. -/
theorem exists_visitChild (top : Location) {c : Text × Entry}
    (hvisit : c.2 = .directory → isSkipped exc (Text.join [Path.slash] (ns ++ [c.1])) = false →
      ∃ found, visit t inc exc root k (ns ++ [c.1]) = .ok found ∧
        ∀ ms, ms ∈ found ↔ IsFound t top inc exc (ns ++ [c.1]) ms) :
    ∃ part, visitChild t inc exc root k ns c = .ok part ∧ ∀ ms, ms ∈ part ↔
      (c.2 = .directory ∧ isSkipped exc (Text.join [Path.slash] (ns ++ [c.1])) = false ∧
          IsFound t top inc exc (ns ++ [c.1]) ms) ∨
        ((∃ content, c.2 = .file content) ∧
          isSelected inc exc (Text.join [Path.slash] (ns ++ [c.1])) = true ∧
          ms = ns ++ [c.1]) := by
  obtain ⟨n, _ | content | target⟩ := c
  · simp only [visitChild, visitEntry]
    by_cases hskip : isSkipped exc (Text.join [Path.slash] (ns ++ [n])) = true
    · exact ⟨[], if_pos hskip, by simp [hskip]⟩
    · obtain ⟨part, hpart, hmem⟩ := hvisit rfl (by simpa using hskip)
      refine ⟨part, by rw [if_neg hskip, hpart], fun ms => ?_⟩
      simp [hmem, hskip]
  · simp only [visitChild, visitEntry]
    by_cases hsel : isSelected inc exc (Text.join [Path.slash] (ns ++ [n])) = true
    · exact ⟨[ns ++ [n]], by rw [if_pos hsel], by simp [hsel]⟩
    · exact ⟨[], by rw [if_neg hsel], by simp [hsel]⟩
  · exact ⟨[], rfl, by simp⟩

/-- **A walk comes to what can be found**, if the directories on its way are denoted by their paths.
The induction is on the bound; as long as there is something below, it is not used up. -/
theorem visit_of_entered (hwf : t.WellFormed) (h : Entered t root top exc) (inc : List Pattern) :
    ∀ {k ns}, (ns = [] ∨ t.entry? (top ++ ns) = some .directory) → ¬ IsPruned exc ns →
      t.depth < (top ++ ns).length + k →
      ∃ found, visit t inc exc root k ns = .ok found ∧
        ∀ ms, ms ∈ found ↔ IsFound t top inc exc ns ms := by
  intro k
  induction k with
  | zero =>
    intro ns _ _ hdepth
    refine ⟨[], by rw [visit], fun ms => ?_⟩
    simp only [List.not_mem_nil, false_iff]
    rintro ⟨dirs, n, rfl, ⟨content, hfile⟩, -⟩
    have hlength := FileTree.length_le_depth (by simp) hfile
    simp only [List.length_append, List.length_singleton] at hlength hdepth
    omega
  | succ k ih =>
    intro ns hdir hns hdepth
    have hstat : t.stat (place root ns) = .ok (top ++ ns, .directory) := by
      by_cases hnil : ns = []
      · rw [hnil, List.append_nil]
        exact FileTree.stat_of_lstat h.real
      · exact h.opened ns hnil (hdir.resolve_left hnil) hns
    have hdeeper : ∀ n : Text, t.depth < (top ++ (ns ++ [n])).length + k := by
      intro n
      simp only [List.length_append, List.length_singleton] at hdepth ⊢
      omega
    have hchild : ∀ c ∈ t.children (top ++ ns), _ := fun c hc =>
      exists_visitChild top fun hcdir hskip =>
        @ih (ns ++ [c.1]) (.inr (by simpa [hcdir] using hwf.mem_children_iff.mp hc))
          (by simp [isPruned_concat_iff, hns, hskip]) (hdeeper c.1)
    refine ⟨_, visit_succ_eq_ok_iff.mpr ⟨_, hstat, fun c hc => ?_, rfl⟩, fun ms => ?_⟩
    · obtain ⟨part, hpart, -⟩ := hchild c hc
      exact ⟨part, hpart⟩
    · rw [isFound_iff hwf hns, List.mem_flatMap]
      refine exists_congr fun c => and_congr_right fun hc => ?_
      obtain ⟨part, hpart, hmem⟩ := hchild c hc
      rw [hpart, ← hmem]
      rfl

/-! ## Roots whose cleaned path denotes them -/

theorem place_of_ne_nil (root : Text) (hne : ns ≠ []) :
    place root ns = Path.join root (Text.join [Path.slash] ns) := by
  rw [place, if_neg (by simpa using hne)]

theorem ne_nil_of_lstat {e : Entry} (h : t.lstat root = .ok (top, e)) : root ≠ [] := by
  rcases t.resolve_cases root with ⟨hne, -⟩ | ⟨reason, hfail⟩
  · exact hne
  · rw [FileTree.lstat, FileTree.locate_eq_ok_iff, hfail] at h
    exact absurd h (by simp)

/-- The path of an entry below such a root leads along real directories. -/
theorem route_place (hwf : t.WellFormed) (hroot : root ≠ [])
    (hclean : t.stat (Path.clean root) = .ok (top, .directory)) {dirs : List Text} {n : Text}
    {e : Entry} (hentry : t.entry? (top ++ (dirs ++ [n])) = some e) :
    t.Route root top (place root (dirs ++ [n])) dirs n := by
  have hnames := hwf.isName_of_entry? hentry
  have hdirs : ∀ d ∈ dirs, IsName d := fun d hd => hnames d (by simp [hd])
  have hn : IsName n := hnames n (by simp)
  refine ⟨hclean, hdirs, hn, ?_, ?_⟩
  · rintro front - ⟨rest, rfl⟩
    have hbelow : t.entry? (top ++ front ++ (rest ++ [n])) = some e := by simpa using hentry
    exact hwf.directory_of_append (by simp) hbelow
  · rw [place_of_ne_nil root (by simp), Path.join_eq hroot hdirs hn]

/-- The path of a directory below such a root denotes the directory, or it is refused. -/
theorem resolve_place (hwf : t.WellFormed) (hroot : root ≠ [])
    (hclean : t.stat (Path.clean root) = .ok (top, .directory)) (hne : ns ≠ [])
    (hdir : t.entry? (top ++ ns) = some .directory) :
    t.resolve true (place root ns) = (FileTree.refusal? (place root ns) ns).elim
      (.found (top ++ ns) .directory) .failed := by
  obtain ⟨dirs, n, rfl⟩ := (List.eq_nil_or_concat ns).resolve_left hne
  rw [List.concat_eq_append] at *
  have hroute := route_place hwf hroot hclean hdir
  rw [← List.append_assoc] at hdir
  rw [hroute.resolve_of_entry true fun _ target _ hlink =>
    absurd (hdir.symm.trans hlink) (by simp), hdir, List.append_assoc]
  rfl

/-- A path under which a directory below such a root can be followed to one denotes that one. -/
theorem stat_place_of_stat (hwf : t.WellFormed) (hreal : t.lstat root = .ok (top, .directory))
    (hclean : t.stat (Path.clean root) = .ok (top, .directory))
    (hdir : ns = [] ∨ t.entry? (top ++ ns) = some .directory) {dir : Location}
    (hstat : t.stat (place root ns) = .ok (dir, .directory)) : dir = top ++ ns := by
  by_cases hnil : ns = []
  · rw [hnil] at hstat ⊢
    have htop : t.stat (place root []) = .ok (top, .directory) := FileTree.stat_of_lstat hreal
    rw [htop] at hstat
    rw [List.append_nil]
    exact (Prod.mk.inj (Except.ok.inj hstat)).1.symm
  · rw [FileTree.stat, FileTree.locate_eq_ok_iff, resolve_place hwf (ne_nil_of_lstat hreal) hclean
      hnil (hdir.resolve_left hnil)] at hstat
    cases href : FileTree.refusal? (place root ns) ns with
    | none =>
      rw [href] at hstat
      exact (FileTree.Walk.found.inj hstat).1.symm
    | some reason =>
      rw [href] at hstat
      exact absurd hstat (by simp)

/-- A walk that succeeds has read every directory on its way, under a path that denotes it. -/
theorem opened_of_visit (hwf : t.WellFormed) (hreal : t.lstat root = .ok (top, .directory))
    (hclean : t.stat (Path.clean root) = .ok (top, .directory)) :
    ∀ {k ns found}, visit t inc exc root k ns = .ok found →
      (ns = [] ∨ t.entry? (top ++ ns) = some .directory) → t.depth < (top ++ ns).length + k →
      ∀ rest, ns ++ rest ≠ [] → t.entry? (top ++ (ns ++ rest)) = some .directory →
        ¬ IsPruned exc (ns ++ rest) →
        t.stat (place root (ns ++ rest)) = .ok (top ++ (ns ++ rest), .directory) := by
  intro k
  induction k with
  | zero =>
    intro ns _ _ _ hdepth rest hne hentry _
    have hlength := FileTree.length_le_depth (by simp [List.append_eq_nil_iff.not.mp hne]) hentry
    simp only [List.length_append] at hlength hdepth
    omega
  | succ k ih =>
    intro ns found h hdir hdepth rest hne hentry hpruned
    obtain ⟨dir, hstat, hparts, -⟩ := visit_succ_eq_ok_iff.mp h
    obtain rfl := stat_place_of_stat hwf hreal hclean hdir hstat
    cases rest with
    | nil => simpa using hstat
    | cons n rest =>
      have hchild : t.entry? (top ++ ns ++ [n]) = some .directory := by
        cases rest with
        | nil => simpa using hentry
        | cons m rest =>
          have hbelow : t.entry? (top ++ ns ++ [n] ++ m :: rest) = some .directory := by
            simpa using hentry
          exact hwf.directory_of_append (by simp) hbelow
      have hskip : ¬ isSkipped exc (Text.join [Path.slash] (ns ++ [n])) = true :=
        fun hskip => hpruned ⟨ns ++ [n], by simp, by simp, hskip⟩
      obtain ⟨part, hpart⟩ := hparts (n, .directory) (hwf.mem_children_iff.mpr hchild)
      simp only [visitChild, visitEntry, if_neg hskip] at hpart
      have hdeeper : t.depth < (top ++ (ns ++ [n])).length + k := by
        simp only [List.length_append, List.length_singleton] at hdepth ⊢
        omega
      have hrest := ih hpart (.inr (by simpa using hchild)) hdeeper rest (by simp)
      simp only [List.append_assoc, List.singleton_append] at hrest
      exact hrest hentry hpruned

/-- **A walk that succeeds has come to every directory**, if the cleaned path of the root denotes
the same directory as the root itself. -/
theorem entered_of_visit (hwf : t.WellFormed) (hreal : t.lstat root = .ok (top, .directory))
    (hclean : t.stat (Path.clean root) = .ok (top, .directory))
    (h : visit t inc exc root (t.depth + 2) [] = .ok found) : Entered t root top exc := by
  refine ⟨hreal, fun ns hne hentry hpruned => ?_⟩
  exact opened_of_visit hwf hreal hclean h (.inl rfl) (by omega) ns hne hentry hpruned

/-- In a tree with the same directories and links the same directories are entered. -/
theorem Entered.congr (h : Entered t root top exc) (hsame : t.SameOutline t') :
    Entered t' root top exc := by
  refine ⟨hsame.locate (by simp) h.real, fun ns hne hentry hpruned => ?_⟩
  exact hsame.locate (by simp) (h.opened ns hne (hsame.symm.directory hentry) hpruned)

end Discovery

end ReflectGen

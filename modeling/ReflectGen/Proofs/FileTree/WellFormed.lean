import ReflectGen.Proofs.FileTree.Store

/-!
# Well-formed trees

A tree stays well-formed when something is put at a place that a path can lead to: a proper name in
a directory, which is no directory itself.  Every operation that makes or replaces an entry puts it
at such a place.

* `FileTree.Place`: where an entry can be put.
* `FileTree.WellFormed.put`: a new entry at a place.
* `FileTree.place_of_resolve_missing`, `FileTree.place_of_writeLocation`: the places that paths lead
  to.
* `FileTree.wellFormed_empty`, `FileTree.WellFormed.store`, `FileTree.WellFormed.makeDirectory`,
  `FileTree.WellFormed.makeLink`: the operations.
-/

namespace ReflectGen

namespace FileTree

/-- An entry can be put here: a proper name in a directory, and no directory. -/
structure Place (t : FileTree) (loc : Location) : Prop where
  ne_nil : loc ≠ []
  isName : ∀ n ∈ loc, Path.IsName n
  parent : t.entry? loc.dropLast = some .directory
  notDirectory : t.entry? loc ≠ some .directory

variable {t t' : FileTree} {loc : Location}

theorem mem_putEntry {es : List (Location × Entry)} {e : Entry} {x : Location × Entry}
    (h : x ∈ putEntry es loc e) : x.1 = loc ∨ x ∈ es := by
  induction es with
  | nil =>
    rw [putEntry, List.mem_singleton] at h
    exact .inl (congrArg Prod.fst h)
  | cons head es ih =>
    rw [putEntry] at h
    split at h
    · next heq =>
      rcases List.mem_cons.mp h with rfl | h
      · exact .inl (beq_iff_eq.mp heq)
      · exact .inr (List.mem_cons_of_mem head h)
    · rcases List.mem_cons.mp h with rfl | h
      · exact .inr List.mem_cons_self
      · rcases ih h with h | h
        · exact .inl h
        · exact .inr (List.mem_cons_of_mem head h)

theorem nodup_putEntry {es : List (Location × Entry)} (e : Entry) (h : (es.map Prod.fst).Nodup) :
    ((putEntry es loc e).map Prod.fst).Nodup := by
  induction es with
  | nil => exact List.nodup_singleton loc
  | cons head es ih =>
    rw [List.map_cons, List.nodup_cons] at h
    rw [putEntry]
    split
    · exact List.nodup_cons.mpr h
    · next hne =>
      refine List.nodup_cons.mpr ⟨fun hmem => ?_, ih h.2⟩
      obtain ⟨x, hx, heq⟩ := List.mem_map.mp hmem
      rcases mem_putEntry hx with hloc | hx
      · exact hne (beq_iff_eq.mpr (heq.symm.trans hloc))
      · exact h.1 (List.mem_map.mpr ⟨x, hx, heq⟩)

/-- A directory stays when something is put at a place. -/
theorem directory_put (hp : t.Place loc) (e : Entry) {dir : Location}
    (h : t.entry? dir = some .directory) : entry? (t.put loc e) dir = some .directory := by
  rw [entry?_put_of_ne t e, h]
  rintro rfl
  exact hp.notDirectory h

theorem WellFormed.put (hwf : t.WellFormed) (hp : t.Place loc) (e : Entry) :
    (t.put loc e).WellFormed where
  nodup := nodup_putEntry e hwf.nodup
  ne_nil x hx := by
    rcases mem_putEntry hx with hloc | hx
    · exact hloc ▸ hp.ne_nil
    · exact hwf.ne_nil x hx
  isName x hx := by
    rcases mem_putEntry hx with hloc | hx
    · exact hloc ▸ hp.isName
    · exact hwf.isName x hx
  parent x hx := by
    refine directory_put hp e ?_
    rcases mem_putEntry hx with hloc | hx
    · exact hloc ▸ hp.parent
    · exact hwf.parent x hx
  workdir := directory_put hp e hwf.workdir

/-! ## The places that paths lead to -/

theorem WellFormed.isName_of_entry? (hwf : t.WellFormed) {e : Entry} (h : t.entry? loc = some e) :
    ∀ n ∈ loc, Path.IsName n := by
  by_cases hnil : loc = []
  · rw [hnil]
    exact fun n hn => absurd hn List.not_mem_nil
  · exact hwf.isName _ (mem_entries_of_eq_some hnil h)

theorem WellFormed.directory_dropLast (hwf : t.WellFormed) {e : Entry}
    (h : t.entry? loc = some e) : t.entry? loc.dropLast = some .directory := by
  by_cases hnil : loc = []
  · rw [hnil]
    rfl
  · exact hwf.parent _ (mem_entries_of_eq_some hnil h)

theorem isComponent_of_mem_names {path n : Text} (h : n ∈ names path) : Path.IsComponent n := by
  have hpiece : ∀ m ∈ (Text.splitOn Path.slash path).filter (!·.isEmpty), Path.IsComponent m := by
    intro m hm
    rw [List.mem_filter] at hm
    exact ⟨by simpa using hm.2, Text.notMem_of_mem_splitOn hm.1⟩
  unfold names at h
  dsimp only at h
  split at h
  · rcases List.mem_append.mp h with h | h
    · exact hpiece n h
    · rw [List.mem_singleton.mp h]
      exact ⟨by decide, by decide⟩
  · exact hpiece n h

/-- What a walk misses is a place, and it goes on from a directory. -/
def Walk.Grounded (t : FileTree) : Walk → Prop
  | .missing loc => t.Place loc
  | .redirected dir ns => t.entry? dir = some .directory ∧ ∀ n ∈ ns, Path.IsComponent n
  | _ => True

theorem walk_grounded (hwf : t.WellFormed) (through : Bool) {ns : List Text} :
    ∀ {dir : Location}, t.entry? dir = some .directory → (∀ n ∈ ns, Path.IsComponent n) →
      (t.walk through dir ns).Grounded t := by
  induction ns with
  | nil => exact fun _ _ => trivial
  | cons n ns ih =>
    intro dir hdir hns
    have hns' : ∀ m ∈ ns, Path.IsComponent m := fun m hm => hns m (List.mem_cons_of_mem n hm)
    rcases name_cases n with rfl | rfl | ⟨hh, ha, hl⟩ | ⟨hh, ha, hl⟩
    · rw [walk_here]
      exact ih hdir hns'
    · rw [walk_above]
      exact ih (hwf.directory_dropLast hdir) hns'
    · rw [walk_long t _ dir _ hh ha hl]
      trivial
    · rw [walk_entry t _ dir _ hh ha hl]
      rcases he : t.entry? (dir ++ [n]) with _ | _ | content | target
      · rw [walkEntry]
        split
        · refine ⟨by simp, fun m hm => ?_, by rwa [List.dropLast_concat], by simp [he]⟩
          rcases List.mem_append.mp hm with hm | hm
          · exact hwf.isName_of_entry? hdir m hm
          · rw [List.mem_singleton.mp hm]
            exact ⟨hns n List.mem_cons_self, hh, ha⟩
        · trivial
      · exact ih he hns'
      · rw [walkEntry]
        split <;> trivial
      · rw [walkEntry]
        split
        · trivial
        · refine ⟨?_, fun m hm => ?_⟩
          · split
            · rfl
            · exact hdir
          · rcases List.mem_append.mp hm with hm | hm
            · exact isComponent_of_mem_names hm
            · exact hns' m hm

theorem follow_grounded (hwf : t.WellFormed) (through : Bool) (links : Nat) :
    ∀ {dir : Location} {ns : List Text}, t.entry? dir = some .directory →
      (∀ n ∈ ns, Path.IsComponent n) → (t.follow through links dir ns).Grounded t := by
  induction links with
  | zero =>
    intro dir ns hdir hns
    rw [follow]
    split
    · trivial
    · exact walk_grounded hwf through hdir hns
  | succ links ih =>
    intro dir ns hdir hns
    have hwalk := walk_grounded hwf through hdir hns
    rw [follow]
    split
    · next dir' ns' hred =>
      rw [hred] at hwalk
      exact ih hwalk.1 hwalk.2
    · exact hwalk

/-- A path that misses its last name leads to a place. -/
theorem place_of_resolve_missing (hwf : t.WellFormed) {through : Bool} {path : Text}
    (h : t.resolve through path = .missing loc) : t.Place loc := by
  rcases t.resolve_cases path with ⟨-, hfollow⟩ | ⟨reason, hfail⟩
  · have hstart : t.entry? (if Path.isAbsolute path then [] else t.workdir) = some .directory := by
      split
      · rfl
      · exact hwf.workdir
    have hnames : ∀ n ∈ names path, Path.IsComponent n := fun n hn => isComponent_of_mem_names hn
    have hground := follow_grounded hwf through maxLinks hstart hnames
    rw [← hfollow, h] at hground
    exact hground
  · rw [hfail] at h
    exact absurd h (by simp)

/-- A path that can be written to leads to a place. -/
theorem place_of_writeLocation (hwf : t.WellFormed) {path : Text}
    (h : t.writeLocation path = .ok loc) : t.Place loc := by
  rcases outline_eq_missing_iff.mp (writeLocation_eq_ok_iff.mp h) with hres | ⟨content, hres⟩
  · exact place_of_resolve_missing hwf hres
  · have hsound := t.resolve_sound true path
    rw [hres] at hsound
    rcases hsound with hdir | ⟨hne, hentry, -⟩
    · exact absurd hdir (by simp)
    · exact ⟨hne, hwf.isName_of_entry? hentry, hwf.directory_dropLast hentry, by simp [hentry]⟩

/-! ## Operations -/

/-- The tree with a working directory only is well-formed. -/
theorem wellFormed_empty {workdir : Location} (h : ∀ n ∈ workdir, Path.IsName n) :
    (empty workdir).WellFormed := by
  have hkeys : (empty workdir).entries.map Prod.fst =
      (List.range workdir.length).map fun n => workdir.take (n + 1) := by
    rw [empty, List.map_map]
    rfl
  have hnodup : ((empty workdir).entries.map Prod.fst).Nodup := by
    rw [hkeys]
    refine List.nodup_range.map_on fun m hm n hn heq => ?_
    rw [List.mem_range] at hm hn
    have hlen := congrArg List.length heq
    rw [List.length_take, List.length_take] at hlen
    omega
  -- the directories are the working directory and those above it
  have hdir : ∀ n ≤ workdir.length, entry? (empty workdir) (workdir.take n) = some .directory := by
    intro n hn
    cases n with
    | zero => rfl
    | succ n =>
      have hne : workdir.take (n + 1) ≠ [] := by
        rw [← List.length_pos_iff_ne_nil, List.length_take]
        omega
      rw [entry?_of_ne_nil _ hne]
      exact lookup_eq_some_of_mem hnodup (List.mem_map.mpr ⟨n, List.mem_range.mpr hn, rfl⟩)
  have hmem : ∀ e ∈ (empty workdir).entries, ∃ n < workdir.length, e.1 = workdir.take (n + 1) := by
    intro e he
    obtain ⟨n, hn, rfl⟩ := List.mem_map.mp he
    exact ⟨n, List.mem_range.mp hn, rfl⟩
  refine ⟨hnodup, fun e he => ?_, fun e he m hm => ?_, fun e he => ?_, ?_⟩
  · obtain ⟨n, hn, heq⟩ := hmem e he
    rw [heq, ← List.length_pos_iff_ne_nil, List.length_take]
    omega
  · obtain ⟨n, hn, heq⟩ := hmem e he
    rw [heq] at hm
    exact h m (List.mem_of_mem_take hm)
  · obtain ⟨n, hn, heq⟩ := hmem e he
    have hparent : (workdir.take (n + 1)).dropLast = workdir.take n := by
      rw [List.dropLast_eq_take, List.length_take, List.take_take]
      congr 1
      omega
    rw [heq, hparent]
    exact hdir n (Nat.le_of_lt hn)
  · have hself := hdir workdir.length (Nat.le_refl _)
    rwa [List.take_length] at hself

/-- Storing a file keeps a tree well-formed. -/
theorem WellFormed.store (hwf : t.WellFormed) {path content : Text}
    (h : t.store path content = .ok t') : t'.WellFormed := by
  unfold FileTree.store at h
  cases hloc : t.writeLocation path with
  | error e =>
    rw [hloc] at h
    exact absurd h (by simp [Except.map])
  | ok loc =>
    rw [hloc] at h
    rw [← Except.ok.inj h]
    exact hwf.put (place_of_writeLocation hwf hloc) _

/-- Making a directory keeps a tree well-formed. -/
theorem WellFormed.makeDirectory (hwf : t.WellFormed) {path : Text}
    (h : t.makeDirectory path = .ok t') : t'.WellFormed := by
  unfold FileTree.makeDirectory at h
  dsimp only at h
  split at h
  · next loc hres =>
    rw [← Except.ok.inj h]
    exact hwf.put (place_of_resolve_missing hwf hres) _
  · exact absurd h (by simp)
  · exact absurd h (by simp)

/-- Making a link keeps a tree well-formed. -/
theorem WellFormed.makeLink (hwf : t.WellFormed) {target path : Text}
    (h : t.makeLink target path = .ok t') : t'.WellFormed := by
  unfold FileTree.makeLink at h
  split at h
  · exact absurd h (by simp)
  · split at h
    · next loc hres =>
      rw [← Except.ok.inj h]
      exact hwf.put (place_of_resolve_missing hwf hres) _
    · exact absurd h (by simp)
    · exact absurd h (by simp)

end FileTree

end ReflectGen

import ReflectGen.Proofs.FileTree.Route

/-!
# The entries of a directory

What lies below a location are the entries at longer locations, and the entries of a directory are
those that are one name longer.  In a well-formed tree each name stands once in a directory.

* `FileTree.mem_below_iff`: what lies below a location.
* `FileTree.WellFormed.mem_children_iff`, `FileTree.WellFormed.nodup_children`: the entries of a
  directory.
* `FileTree.readDirectory_eq_ok_iff`: what can be read as a directory.
* `FileTree.length_le_depth`: no entry lies deeper than the tree is deep.
-/

namespace ReflectGen

namespace FileTree

variable {t : FileTree}

/-! ## What lies below a location -/

theorem relative?_eq_some_iff {top loc : Location} {ns : List Text} :
    relative? top loc = some ns ↔ loc = top ++ ns := by
  induction top generalizing loc with
  | nil => simp [relative?]
  | cons a top ih =>
    cases loc with
    | nil => simp [relative?]
    | cons b loc =>
      rw [relative?]
      split
      · next hab =>
        rw [ih, beq_iff_eq.mp hab]
        simp
      · next hab =>
        have hne : a ≠ b := fun heq => hab (beq_iff_eq.mpr heq)
        simp [Ne.symm hne]

theorem relative_entry_eq_some_iff {top : Location} {e : Location × Entry}
    {r : List Text × Entry} :
    (match relative? top e.1 with
      | some (n :: ns) => some (n :: ns, e.2)
      | _ => none) = some r ↔ r.1 ≠ [] ∧ e = (top ++ r.1, r.2) := by
  obtain ⟨loc, e⟩ := e
  obtain ⟨ns, e'⟩ := r
  rcases hrel : relative? top loc with _ | _ | ⟨n, ns'⟩
  · have hne : loc ≠ top ++ ns := fun h => by
      rw [relative?_eq_some_iff.mpr h] at hrel
      exact absurd hrel (by simp)
    simp [hne]
  · rw [relative?_eq_some_iff] at hrel
    simp only [reduceCtorEq, false_iff, not_and]
    intro hns heq
    rw [Prod.mk.injEq, hrel, List.append_cancel_left_eq] at heq
    exact hns heq.1.symm
  · rw [relative?_eq_some_iff] at hrel
    simp only [hrel, Option.some.injEq, Prod.mk.injEq, List.append_cancel_left_eq]
    constructor
    · rintro ⟨rfl, rfl⟩
      exact ⟨by simp, rfl, rfl⟩
    · exact fun h => h.2

/-- What lies below a location are the entries at longer locations. -/
theorem mem_below_iff {top : Location} {r : List Text × Entry} :
    r ∈ t.below top ↔ r.1 ≠ [] ∧ (top ++ r.1, r.2) ∈ t.entries := by
  unfold below
  rw [List.mem_filterMap]
  constructor
  · rintro ⟨e, he, hr⟩
    obtain ⟨hne, rfl⟩ := relative_entry_eq_some_iff.mp hr
    exact ⟨hne, he⟩
  · rintro ⟨hne, he⟩
    exact ⟨_, he, relative_entry_eq_some_iff.mpr ⟨hne, rfl⟩⟩

theorem mem_below_of_entry? {top : Location} {ns : List Text} {e : Entry} (hne : ns ≠ [])
    (h : t.entry? (top ++ ns) = some e) : (ns, e) ∈ t.below top :=
  mem_below_iff.mpr ⟨hne, mem_entries_of_eq_some (by simp [hne]) h⟩

/-- Below a location different entries have different names. -/
theorem WellFormed.pairwise_below (hwf : t.WellFormed) (top : Location) :
    (t.below top).Pairwise fun r r' => r.1 ≠ r'.1 := by
  unfold below
  rw [List.pairwise_filterMap]
  refine (List.pairwise_map.mp hwf.nodup).imp fun hne r hr r' hr' heq => hne ?_
  rw [(relative_entry_eq_some_iff.mp hr).2, (relative_entry_eq_some_iff.mp hr').2, heq]

/-! ## The entries of one directory -/

theorem insertByName_perm (child : Text × Entry) (cs : List (Text × Entry)) :
    (insertByName child cs).Perm (child :: cs) := by
  induction cs with
  | nil => exact .refl _
  | cons c cs ih =>
    rw [insertByName]
    split
    · exact .refl _
    · exact (ih.cons c).trans (.swap child c cs)

/-- The entries of a directory in whatever order they stand in the tree. -/
theorem children_perm (t : FileTree) (dir : Location) :
    (t.children dir).Perm ((t.below dir).filterMap fun e =>
      match e.1 with
      | [n] => some (n, e.2)
      | _ => none) := by
  unfold children
  induction t.below dir with
  | nil => exact .nil
  | cons e es ih =>
    obtain ⟨_ | ⟨n, _ | ⟨m, ns⟩⟩, e⟩ := e
    · exact ih
    · exact (insertByName_perm _ _).trans (ih.cons (n, e))
    · exact ih

/-- The entries of a directory are those one name below it. -/
theorem WellFormed.mem_children_iff (hwf : t.WellFormed) {dir : Location} {c : Text × Entry} :
    c ∈ t.children dir ↔ t.entry? (dir ++ [c.1]) = some c.2 := by
  obtain ⟨n, e⟩ := c
  rw [(t.children_perm dir).mem_iff, List.mem_filterMap]
  constructor
  · rintro ⟨⟨ns, e'⟩, hr, hchild⟩
    obtain ⟨-, hmem⟩ := mem_below_iff.mp hr
    obtain _ | ⟨m, _ | ⟨m', ns⟩⟩ := ns
    · exact absurd hchild (by simp)
    · obtain ⟨rfl, rfl⟩ := Prod.mk.inj (Option.some.inj hchild)
      exact hwf.entry?_of_mem hmem
    · exact absurd hchild (by simp)
  · intro hentry
    exact ⟨([n], e), mem_below_iff.mpr ⟨by simp, mem_entries_of_eq_some (by simp) hentry⟩, rfl⟩

/-- Each name stands once in a directory. -/
theorem WellFormed.nodup_children (hwf : t.WellFormed) (dir : Location) :
    ((t.children dir).map Prod.fst).Nodup := by
  rw [((t.children_perm dir).map Prod.fst).nodup_iff, List.Nodup, List.pairwise_map,
    List.pairwise_filterMap]
  refine (hwf.pairwise_below dir).imp ?_
  rintro ⟨ns, e⟩ ⟨ns', e'⟩ hne c hc c' hc' heq
  obtain _ | ⟨n, _ | ⟨m, ns⟩⟩ := ns
  · exact absurd hc (by simp)
  · obtain _ | ⟨n', _ | ⟨m', ns'⟩⟩ := ns'
    · exact absurd hc' (by simp)
    · obtain ⟨rfl, rfl⟩ := Prod.mk.inj (Option.some.inj hc)
      obtain ⟨rfl, rfl⟩ := Prod.mk.inj (Option.some.inj hc')
      exact hne (congrArg ([·]) heq)
    · exact absurd hc' (by simp)
  · exact absurd hc (by simp)

/-- A path can be read as a directory if it denotes one. -/
theorem readDirectory_eq_ok_iff {path : Text} {cs : List (Text × Entry)} :
    t.readDirectory path = .ok cs ↔
      ∃ dir, t.stat path = .ok (dir, .directory) ∧ cs = t.children dir := by
  unfold readDirectory stat locate
  rcases t.resolve true path with ⟨loc, _ | content | target⟩ | loc | ⟨dir, ns⟩ | reason <;>
    simp [eq_comm]

/-- No entry lies deeper than the tree is deep. -/
theorem length_le_depth {loc : Location} {e : Entry} (hne : loc ≠ [])
    (h : t.entry? loc = some e) : loc.length ≤ t.depth := by
  have hmem := mem_entries_of_eq_some hne h
  unfold depth
  generalize t.entries = es at hmem
  induction es with
  | nil => exact absurd hmem List.not_mem_nil
  | cons head es ih =>
    rw [List.foldr_cons]
    rcases List.mem_cons.mp hmem with rfl | hmem
    · exact Nat.le_max_left _ _
    · exact (ih hmem).trans (Nat.le_max_right _ _)

end FileTree

end ReflectGen

import Mathlib.Data.List.Nodup

/-!
# Lists with distinct keys

Files with their records, entries of a tree and artifacts of a run are lists in which each key
occurs once, so a key finds its entry and nothing else.
-/

namespace ReflectGen

/-- A key finds the value it is listed with. -/
theorem lookup_eq_some_of_mem {κ β : Type} [BEq κ] [LawfulBEq κ] {l : List (κ × β)}
    (hnodup : (l.map Prod.fst).Nodup) {k : κ} {v : β} (h : (k, v) ∈ l) : l.lookup k = some v := by
  induction l with
  | nil => exact absurd h List.not_mem_nil
  | cons f l ih =>
    rw [List.map_cons, List.nodup_cons] at hnodup
    rcases List.mem_cons.mp h with rfl | h
    · rw [List.lookup_cons_self]
    · have hne : k ≠ f.1 := by
        rintro rfl
        exact hnodup.1 (List.mem_map.mpr ⟨(f.1, v), h, rfl⟩)
      rw [List.lookup_cons, beq_false_of_ne hne]
      exact ih hnodup.2 h

theorem mem_of_lookup_eq_some {κ β : Type} [BEq κ] [LawfulBEq κ] {l : List (κ × β)} {k : κ} {v : β}
    (h : l.lookup k = some v) : (k, v) ∈ l := by
  obtain ⟨l₁, l₂, rfl, -⟩ := List.lookup_eq_some_iff.mp h
  exact List.mem_append_right _ List.mem_cons_self

theorem nodup_eraseDups {α : Type} [BEq α] [LawfulBEq α] : ∀ l : List α, l.eraseDups.Nodup
  | [] => .nil
  | a :: l => by
    rw [List.eraseDups_cons, List.nodup_cons]
    refine ⟨fun hmem => ?_, nodup_eraseDups _⟩
    have hne := (List.mem_filter.mp (List.mem_eraseDups.mp hmem)).2
    simp at hne
termination_by l => l.length
decreasing_by exact Nat.lt_succ_of_le (List.length_filter_le _ _)

/-- The entries with the key of an entry are that entry. -/
theorem filter_key_eq_singleton {α κ : Type} [BEq κ] [LawfulBEq κ] (key : α → κ) {l : List α}
    (h : (l.map key).Nodup) {a : α} (ha : a ∈ l) : l.filter (fun b => key b == key a) = [a] := by
  induction l with
  | nil => exact absurd ha List.not_mem_nil
  | cons b l ih =>
    rw [List.map_cons, List.nodup_cons] at h
    rcases List.mem_cons.mp ha with rfl | ha
    · rw [List.filter_cons, if_pos (beq_self_eq_true _), List.filter_eq_nil_iff.mpr]
      intro c hc heq
      exact h.1 (List.mem_map.mpr ⟨c, hc, beq_iff_eq.mp heq⟩)
    · have hne : ¬ (key b == key a) = true := by
        intro heq
        exact h.1 (List.mem_map.mpr ⟨a, ha, (beq_iff_eq.mp heq).symm⟩)
      rw [List.filter_cons, if_neg hne, ih h.2 ha]

end ReflectGen

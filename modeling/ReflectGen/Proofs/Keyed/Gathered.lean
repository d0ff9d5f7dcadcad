import Mathlib.Algebra.GroupWithZero.Nat
import Mathlib.Data.List.Induction
import ReflectGen.Proofs.Keyed

/-!
# Lists gathered by key

A table of lists grows by values that are added under a key: behind those that the key has already,
or as a new last entry.  Whatever was added in whatever order, the table says it back.  The keys
stand in the order in which they came first, and under each key stand its values as they came.

* `appendUnder`, `gathered`: adding under a key, and the table of a row of additions.
* `addedUnder`: what a row of additions brings to a key.
* `map_fst_gathered`, `lookup_gathered`, `gathered_eq_map`: the keys and the values of a table.
* `mapUnder`: the values under one key are changed; `lookup_foldl_mapUnder` for several keys.
-/

namespace ReflectGen

variable {κ β : Type} [BEq κ]

/-- The table with `vs` added under a key. -/
def appendUnder : List (κ × List β) → κ → List β → List (κ × List β)
  | [], k, vs => [(k, vs)]
  | (l, us) :: t, k, vs => if l == k then (l, us ++ vs) :: t else (l, us) :: appendUnder t k vs

/-- The table after a row of additions. -/
def gathered (entries : List (κ × List β)) : List (κ × List β) :=
  entries.foldl (fun t e => appendUnder t e.1 e.2) []

/-- The values that a row of additions brings to a key, in their order. -/
def addedUnder (entries : List (κ × List β)) (k : κ) : List β :=
  (entries.filter (·.1 == k)).flatMap Prod.snd

theorem gathered_concat (entries : List (κ × List β)) (e : κ × List β) :
    gathered (entries ++ [e]) = appendUnder (gathered entries) e.1 e.2 := by
  rw [gathered, List.foldl_append]
  rfl

theorem addedUnder_append (entries entries' : List (κ × List β)) (k : κ) :
    addedUnder (entries ++ entries') k = addedUnder entries k ++ addedUnder entries' k := by
  rw [addedUnder, List.filter_append, List.flatMap_append]
  rfl

theorem addedUnder_singleton (e : κ × List β) (k : κ) :
    addedUnder [e] k = if e.1 == k then e.2 else [] := by
  rw [addedUnder, List.filter_cons, List.filter_nil]
  split
  · exact List.flatMap_singleton Prod.snd e
  · rfl

/-- Additions of nothing bring nothing. -/
theorem addedUnder_filter_not_isEmpty (entries : List (κ × List β)) (k : κ) :
    addedUnder (entries.filter (!·.2.isEmpty)) k = addedUnder entries k := by
  induction entries with
  | nil => rfl
  | cons e entries ih =>
    rw [← List.singleton_append, List.filter_append, addedUnder_append, addedUnder_append, ih]
    refine congrArg (· ++ addedUnder entries k) ?_
    obtain ⟨l, vs⟩ := e
    cases vs with
    | nil =>
      rw [addedUnder_singleton]
      exact (ite_self []).symm
    | cons v vs => rfl

/-- No value is lost by an addition. -/
theorem sum_length_appendUnder (t : List (κ × List β)) (k : κ) (vs : List β) :
    ((appendUnder t k vs).map (·.2.length)).sum = (t.map (·.2.length)).sum + vs.length := by
  induction t with
  | nil => simp [appendUnder]
  | cons e t ih =>
    rw [appendUnder]
    split
    · simp only [List.map_cons, List.sum_cons, List.length_append]
      omega
    · simp only [List.map_cons, List.sum_cons, ih]
      omega

variable [LawfulBEq κ]

/-! ## Keys -/

theorem map_fst_appendUnder (t : List (κ × List β)) (k : κ) (vs : List β) :
    (appendUnder t k vs).map Prod.fst =
      if k ∈ t.map Prod.fst then t.map Prod.fst else t.map Prod.fst ++ [k] := by
  induction t with
  | nil => rfl
  | cons e t ih =>
    rw [appendUnder]
    by_cases h : e.1 = k
    · simp [h]
    · rw [if_neg (fun heq => h (beq_iff_eq.mp heq)), List.map_cons, ih, List.map_cons]
      by_cases hmem : k ∈ t.map Prod.fst
      · rw [if_pos hmem, if_pos (List.mem_cons_of_mem _ hmem)]
      · have hcons : k ∉ e.1 :: t.map Prod.fst := by
          rw [List.mem_cons, not_or]
          exact ⟨Ne.symm h, hmem⟩
        rw [if_neg hmem, if_neg hcons, List.cons_append]

theorem nodup_map_fst_appendUnder {t : List (κ × List β)} (k : κ) (vs : List β)
    (h : (t.map Prod.fst).Nodup) : ((appendUnder t k vs).map Prod.fst).Nodup := by
  rw [map_fst_appendUnder]
  split
  · exact h
  · next hk =>
    rw [← List.concat_eq_append]
    exact List.Nodup.concat hk h

/-- What is added under a new key becomes a new last entry. -/
theorem appendUnder_of_notMem {t : List (κ × List β)} {k : κ} (vs : List β)
    (h : k ∉ t.map Prod.fst) : appendUnder t k vs = t ++ [(k, vs)] := by
  induction t with
  | nil => rfl
  | cons e t ih =>
    rw [List.map_cons, List.mem_cons, not_or] at h
    rw [appendUnder, if_neg (fun heq => h.1 (beq_iff_eq.mp heq).symm), ih h.2, List.cons_append]

theorem eraseDups_concat (l : List κ) (a : κ) :
    (l ++ [a]).eraseDups = if a ∈ l then l.eraseDups else l.eraseDups ++ [a] := by
  rw [List.eraseDups_append]
  by_cases h : a ∈ l
  · simp [List.removeAll, h]
  · simp [List.removeAll, h, List.eraseDups_cons]

/-- The keys stand in the order in which they came first. -/
theorem map_fst_gathered (entries : List (κ × List β)) :
    (gathered entries).map Prod.fst = (entries.map Prod.fst).eraseDups := by
  induction entries using List.reverseRecOn with
  | nil => rfl
  | append_singleton entries e ih =>
    rw [gathered_concat, map_fst_appendUnder, ih, List.map_append, List.map_singleton,
      eraseDups_concat]
    simp only [List.mem_eraseDups]

theorem nodup_map_fst_gathered (entries : List (κ × List β)) :
    ((gathered entries).map Prod.fst).Nodup := by
  rw [map_fst_gathered]
  exact nodup_eraseDups _

/-! ## Values -/

theorem addedUnder_eq_nil_of_notMem {entries : List (κ × List β)} {k : κ}
    (h : k ∉ entries.map Prod.fst) : addedUnder entries k = [] := by
  rw [addedUnder, List.filter_eq_nil_iff.mpr, List.flatMap_nil]
  intro e he heq
  exact h (List.mem_map.mpr ⟨e, he, beq_iff_eq.mp heq⟩)

/-- If something is added each time, a key to which anything was added has values. -/
theorem addedUnder_ne_nil {entries : List (κ × List β)} (h : ∀ e ∈ entries, e.2 ≠ []) {k : κ}
    (hk : k ∈ entries.map Prod.fst) : addedUnder entries k ≠ [] := by
  obtain ⟨e, he, rfl⟩ := List.mem_map.mp hk
  rw [addedUnder, Ne, List.flatMap_eq_nil_iff]
  exact fun hnil => h e he (hnil e (List.mem_filter.mpr ⟨he, beq_self_eq_true e.1⟩))

/-- The same values under several keys. -/
theorem addedUnder_map_of_nodup {ks : List κ} (hks : ks.Nodup) (vs : List β) (k : κ) :
    addedUnder (ks.map fun l => (l, vs)) k = if k ∈ ks then vs else [] := by
  induction ks with
  | nil => simp [addedUnder]
  | cons l ks ih =>
    rw [List.nodup_cons] at hks
    rw [List.map_cons, ← List.singleton_append, addedUnder_append, addedUnder_singleton, ih hks.2]
    by_cases hl : l = k
    · subst hl
      simp [hks.1]
    · simp [beq_false_of_ne hl, Ne.symm hl]

theorem lookup_appendUnder (t : List (κ × List β)) (k l : κ) (vs : List β) :
    (appendUnder t k vs).lookup l =
      if l == k then some ((t.lookup k).getD [] ++ vs) else t.lookup l := by
  induction t with
  | nil =>
    rw [appendUnder, List.lookup_cons]
    cases l == k <;> rfl
  | cons e t ih =>
    rw [appendUnder]
    by_cases h : e.1 = k
    · subst h
      rw [if_pos (beq_self_eq_true _), List.lookup_cons, List.lookup_cons_self, List.lookup_cons]
      cases l == e.1 <;> rfl
    · have hk : (k == e.1) = false := beq_false_of_ne (Ne.symm h)
      rw [if_neg (fun heq => h (beq_iff_eq.mp heq)), List.lookup_cons, ih, List.lookup_cons, hk,
        List.lookup_cons]
      by_cases hl : l = e.1
      · simp [hl, h]
      · simp [beq_false_of_ne hl]

/-- Under a key stands what was added there. -/
theorem lookup_gathered (entries : List (κ × List β)) (k : κ) :
    (gathered entries).lookup k =
      if k ∈ entries.map Prod.fst then some (addedUnder entries k) else none := by
  induction entries using List.reverseRecOn generalizing k with
  | nil => rfl
  | append_singleton entries e ih =>
    have hlookup : ((gathered entries).lookup e.1).getD [] = addedUnder entries e.1 := by
      rw [ih]
      split
      · rfl
      · next h => exact (addedUnder_eq_nil_of_notMem h).symm
    rw [gathered_concat, lookup_appendUnder, hlookup, ih, addedUnder_append, addedUnder_singleton]
    by_cases hk : k = e.1
    · simp [hk]
    · have hmem : k ∈ (entries ++ [e]).map Prod.fst ↔ k ∈ entries.map Prod.fst := by
        rw [List.map_append, List.mem_append, List.map_singleton, List.mem_singleton]
        exact or_iff_left hk
      simp only [hmem, beq_false_of_ne hk, beq_false_of_ne (Ne.symm hk), Bool.false_eq_true,
        if_false, List.append_nil]

theorem gathered_eq_map (entries : List (κ × List β)) :
    gathered entries = (entries.map Prod.fst).eraseDups.map fun k => (k, addedUnder entries k) := by
  rw [← map_fst_gathered, List.map_map]
  refine (List.map_id' _).symm.trans (List.map_congr_left fun e he => ?_)
  have hlookup : (gathered entries).lookup e.1 = some e.2 :=
    lookup_eq_some_of_mem (nodup_map_fst_gathered entries) he
  rw [lookup_gathered] at hlookup
  split at hlookup
  · exact Prod.ext rfl (Option.some.inj hlookup).symm
  · exact absurd hlookup (by simp)

/-! ## Changes under a key -/

/-- The table with the values under a key changed. -/
def mapUnder (f : List β → List β) (t : List (κ × List β)) (k : κ) : List (κ × List β) :=
  t.map fun e => if e.1 == k then (e.1, f e.2) else e

theorem lookup_mapUnder (f : List β → List β) (t : List (κ × List β)) (k l : κ) :
    (mapUnder f t k).lookup l = if l == k then (t.lookup l).map f else t.lookup l := by
  induction t with
  | nil => simp [mapUnder]
  | cons e t ih =>
    have hcons : mapUnder f (e :: t) k = (if e.1 == k then (e.1, f e.2) else e) :: mapUnder f t k :=
      rfl
    rw [hcons]
    by_cases hl : l = e.1
    · subst hl
      rw [List.lookup_cons_self]
      split
      · exact List.lookup_cons_self
      · exact List.lookup_cons_self
    · have hne : (l == e.1) = false := beq_false_of_ne hl
      split
      · rw [List.lookup_cons, List.lookup_cons, hne]
        exact ih
      · rw [List.lookup_cons, List.lookup_cons, hne]
        exact ih

/-- When the values under several keys are changed one after the other, each key sees its own
change. -/
theorem lookup_foldl_mapUnder (f : List β → List β) {ks : List κ} (hks : ks.Nodup) (l : κ) :
    ∀ t : List (κ × List β), (ks.foldl (mapUnder f) t).lookup l =
      if l ∈ ks then (t.lookup l).map f else t.lookup l := by
  induction ks with
  | nil => simp
  | cons k ks ih =>
    intro t
    rw [List.nodup_cons] at hks
    rw [List.foldl_cons, ih hks.2, lookup_mapUnder]
    by_cases hl : l = k
    · subst hl
      simp [hks.1]
    · simp [hl]

end ReflectGen

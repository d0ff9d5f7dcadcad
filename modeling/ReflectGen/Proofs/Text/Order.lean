import Mathlib.Data.List.Nodup
import ReflectGen.Text.Basic

/-!
# The byte order

The byte order of texts is the lexicographic order of lists of bytes, so it is a total order.  A
list without repetitions is therefore known by its members once it is sorted: it does not matter in
which order a tree or a run came upon them.

* `Text.le_eq_true_iff`: the comparison decides the lexicographic order; `Text.le_append_left`: it
  passes over what two texts have in common at their start.
* `Text.pairwise_sort`, `Text.sort_eq_of_mem_iff`: sorted lists.
* `Text.pairwise_mergeSort_key`, `Text.eq_of_perm_of_key`: lists that are sorted by a key.
-/

namespace ReflectGen

namespace Text

theorem le_eq_true_iff (s t : Text) : le s t = true ↔ s ≤ t := by
  unfold le
  induction s generalizing t with
  | nil =>
    cases t with
    | nil => simp [compare]
    | cons b t => simp [compare]
  | cons a s ih =>
    cases t with
    | nil => simp [compare]
    | cons b t =>
      rw [compare, List.cons_le_cons_iff]
      by_cases hab : a < b
      · simp [hab]
      · by_cases hba : b < a
        · have hne : a ≠ b := fun heq => hab (heq ▸ hba)
          simp [hab, hba, hne]
        · have heq : a = b := UInt8.le_antisymm (UInt8.not_lt.mp hba) (UInt8.not_lt.mp hab)
          rw [if_neg hab, if_neg hba, ih t]
          simp [heq]

theorem le_trans {s t u : Text} (h : le s t = true) (h' : le t u = true) : le s u = true := by
  rw [le_eq_true_iff] at *
  exact List.le_trans h h'

theorem le_total (s t : Text) : (le s t || le t s) = true := by
  rw [Bool.or_eq_true, le_eq_true_iff, le_eq_true_iff]
  exact List.le_total s t

theorem le_antisymm {s t : Text} (h : le s t = true) (h' : le t s = true) : s = t := by
  rw [le_eq_true_iff] at *
  exact List.le_antisymm h h'

/-- Texts that start alike come in the order of what follows. -/
theorem le_append_left (lead s t : Text) : le (lead ++ s) (lead ++ t) = le s t := by
  have hcompare : compare (lead ++ s) (lead ++ t) = compare s t := by
    induction lead with
    | nil => rfl
    | cons b lead ih =>
      rw [List.cons_append, List.cons_append, compare, if_neg (UInt8.lt_irrefl b),
        if_neg (UInt8.lt_irrefl b), ih]
  rw [le, le, hcompare]

/-! ## Sorted lists -/

variable {α : Type}

/-- What is sorted by a key comes in the order of the keys. -/
theorem pairwise_mergeSort_key (key : α → Text) (l : List α) :
    (l.mergeSort fun a b => le (key a) (key b)).Pairwise fun a b => le (key a) (key b) = true := by
  apply List.pairwise_mergeSort
  · exact fun _ _ _ h h' => le_trans h h'
  · exact fun a b => le_total (key a) (key b)

/-- Lists in the order of their keys have the same entries in the same places, if no two entries
have the same key. -/
theorem eq_of_perm_of_key {key : α → Text} {l l' : List α} (hnodup : (l'.map key).Nodup)
    (hperm : l.Perm l') (h : l.Pairwise fun a b => le (key a) (key b) = true)
    (h' : l'.Pairwise fun a b => le (key a) (key b) = true) : l = l' := by
  refine List.Perm.eq_of_pairwise (fun a b ha hb hab hba => ?_) h h' hperm
  exact List.inj_on_of_nodup_map hnodup (hperm.mem_iff.mp ha) hb (le_antisymm hab hba)

theorem pairwise_sort (ts : List Text) : (sort ts).Pairwise fun s t => le s t = true :=
  pairwise_mergeSort_key id ts

theorem mem_sort {ts : List Text} {t : Text} : t ∈ sort ts ↔ t ∈ ts := List.mem_mergeSort

/-- A list in byte order is what its entries are sorted to. -/
theorem sort_eq_of_perm {ts ts' : List Text} (hperm : ts.Perm ts')
    (h : ts'.Pairwise fun s t => le s t = true) : sort ts = ts' :=
  ((List.mergeSort_perm ts le).trans hperm).eq_of_pairwise (fun _ _ _ _ => le_antisymm)
    (pairwise_sort ts) h

/-- Lists without repetitions and with the same members are sorted to the same list. -/
theorem sort_eq_of_mem_iff {ts ts' : List Text} (hnodup : ts.Nodup) (hnodup' : ts'.Nodup)
    (h : ∀ t, t ∈ ts ↔ t ∈ ts') : sort ts = sort ts' := by
  have hperm : ts.Perm (sort ts') :=
    ((List.perm_ext_iff_of_nodup hnodup hnodup').mpr h).trans (List.mergeSort_perm ts' le).symm
  exact sort_eq_of_perm hperm (pairwise_sort ts')

end Text

end ReflectGen

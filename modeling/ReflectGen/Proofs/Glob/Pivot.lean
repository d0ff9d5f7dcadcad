import Mathlib.Data.List.Infix
import ReflectGen.Glob.Compile
import ReflectGen.Path
import ReflectGen.Proofs.Text.Utf8

/-!
# Patterns around a pivot

A pattern with a pivot in it is matched by looking for the pivot, from the left to the right, until
the parts on both sides of it match, too.  Behind a place that will not do the search goes on one
character further.  What a pivot matches never starts inside of a character, so every place of it is
tried, and the pattern matches as soon as one of them will do.

* `Matcher.find?_cases`: the first place of a text in another one.
* `Matcher.Finds`, `Matcher.Locates`: the first place of a pivot is found.
* `Matcher.pivotAccepts_iff`: no place is missed.
* `Matcher.accepts_pivot_text_iff`: a pattern around a text matches the paths that can be cut at
  that text into two that match its parts.
-/

namespace ReflectGen

namespace Matcher

/-- A text stands at a first place, or at none. -/
theorem findFrom_cases (needle t : Text) : ∀ n : Nat,
    (∃ k, needle <+: t.drop k ∧ (∀ j < k, ¬ needle <+: t.drop j) ∧
      findFrom needle n t = some (n + k)) ∨
    ((∀ k, ¬ needle <+: t.drop k) ∧ findFrom needle n t = none) := by
  induction t with
  | nil =>
    intro n
    rw [findFrom]
    by_cases h : needle = []
    · exact .inl ⟨0, by simp [h], fun j hj => absurd hj (Nat.not_lt_zero j), by simp [h]⟩
    · exact .inr ⟨fun k hk => h (by simpa using hk), by simp [h]⟩
  | cons b t ih =>
    intro n
    rw [findFrom]
    by_cases h : needle <+: b :: t
    · rw [if_pos (Text.startsWith_iff.mpr h)]
      exact .inl ⟨0, h, fun j hj => absurd hj (Nat.not_lt_zero j), rfl⟩
    · rw [if_neg (mt Text.startsWith_iff.mp h)]
      rcases ih (n + 1) with ⟨k, hk, hfirst, hfind⟩ | ⟨hnone, hfind⟩
      · refine .inl ⟨k + 1, hk, fun j hj => ?_, by rw [hfind]; congr 1; omega⟩
        cases j with
        | zero => exact h
        | succ j => exact hfirst j (by omega)
      · refine .inr ⟨fun k => ?_, hfind⟩
        cases k with
        | zero => exact h
        | succ k => exact hnone k

theorem find?_cases (needle t : Text) :
    (∃ k, needle <+: t.drop k ∧ (∀ j < k, ¬ needle <+: t.drop j) ∧ find? needle t = some k) ∨
    ((∀ k, ¬ needle <+: t.drop k) ∧ find? needle t = none) := by
  have h := findFrom_cases needle t 0
  simp only [Nat.zero_add] at h
  exact h

/-- There is a place for a text in another one if this is cut there. -/
theorem isSome_find?_iff {needle t : Text} : (find? needle t).isSome ↔ needle <:+: t := by
  rw [List.infix_iff_prefix_suffix]
  rcases find?_cases needle t with ⟨k, hk, -, hfind⟩ | ⟨hnone, hfind⟩
  · rw [hfind]
    exact ⟨fun _ => ⟨t.drop k, hk, List.drop_suffix _ _⟩, fun _ => rfl⟩
  · rw [hfind]
    refine ⟨fun h => absurd h (by simp), ?_⟩
    rintro ⟨u, hu, a, rfl⟩
    exact absurd (by rwa [List.drop_left]) (hnone a.length)

theorem encode_separator : String.utf8EncodeChar '/' = [Path.slash] := by decide

/-- There is no separator in a text without a slash. -/
theorem isNone_findSeparator?_iff {t : Text} :
    (findSeparator? ['/'] t).isNone = true ↔ Path.slash ∉ t := by
  have hsep : findSeparator? ['/'] t = find? [Path.slash] t := by
    rw [findSeparator?, List.findSome?_cons, encode_separator]
    cases find? [Path.slash] t <;> rfl
  rw [hsep, Option.isNone_iff_eq_none, ← Option.not_isSome_iff_eq_none, isSome_find?_iff,
    List.singleton_infix_iff]

/-! ## Pivots -/

/-- The text does not begin inside of a character. -/
def Begins (u : Text) : Prop := ∃ b u', u = b :: u' ∧ Text.isContinuation b = false

theorem Begins.ne_nil {u : Text} (h : Begins u) : u ≠ [] := by
  obtain ⟨b, u', rfl, -⟩ := h
  exact List.cons_ne_nil b u'

theorem Begins.append {u : Text} (h : Begins u) (rest : Text) : Begins (u ++ rest) := by
  obtain ⟨b, u', rfl, hb⟩ := h
  exact ⟨b, u' ++ rest, rfl, hb⟩

/-- A text of characters begins with one. -/
theorem begins_of_isUtf8 {x : Text} (hx : x ≠ []) (hutf : x.isUtf8 = true) : Begins x := by
  obtain ⟨c, cs, hcs⟩ : ∃ c cs, x.chars = c :: cs := by
    refine List.exists_cons_of_ne_nil fun hnil => hx ?_
    rw [← Text.isUtf8_iff.mp hutf, hnil, Text.ofChars_nil]
  obtain ⟨b, tail, hbytes⟩ := List.exists_cons_of_ne_nil (String.utf8EncodeChar_ne_nil (c := c))
  refine ⟨b, tail ++ Text.ofChars cs, ?_, Text.isContinuation_of_utf8EncodeChar hbytes⟩
  rw [← Text.isUtf8_iff.mp hutf, hcs, Text.ofChars_cons, hbytes, List.cons_append]

/-- The first character of a text ends in front of the next one. -/
theorem firstLength_le {t : Text} {k : Nat} (hk : 0 < k) (h : Begins (t.drop k)) :
    Behaviour.firstLength t ≤ k := by
  obtain ⟨b, rest, hdrop, hb⟩ := h
  cases t with
  | nil => exact Nat.zero_le k
  | cons c t =>
    obtain ⟨j, rfl⟩ : ∃ j, k = j + 1 := ⟨k - 1, by omega⟩
    rw [List.drop_succ_cons] at hdrop
    have hle := (Text.bytes_lead c (t.take j)).1
    rw [Behaviour.firstLength, ← List.take_append_drop j t, hdrop, Text.lead_append hb]
    rw [List.length_take] at hle
    omega

theorem firstLength_pos {t : Text} (h : t ≠ []) : 0 < Behaviour.firstLength t := by
  cases t with
  | nil => exact absurd rfl h
  | cons b t => exact Nat.succ_pos _

/-- A place with lengths is the first one in `s` where pieces stand that satisfy `P`, and the lengths
are those of all pieces that stand there; or there is no such place. -/
def Finds (s : Text) (P : Text → Prop) : Option (Nat × List Nat) → Prop
  | none => ∀ j u, u <+: s.drop j → ¬ P u
  | some (i, lengths) =>
    (∀ u, u <+: s.drop i → (P u ↔ u.length ∈ lengths)) ∧ (∀ n ∈ lengths, i + n ≤ s.length) ∧
      ∀ j < i, ∀ u, u <+: s.drop j → ¬ P u

/-- In every part of `t` the first place is found where a piece stands that satisfies `P`, and no
such piece begins inside of a character. -/
structure Locates (t : Text) (v : Behaviour) (P : Text → Prop) : Prop where
  finds : ∀ {s : Text}, s <:+: t → Finds s P (v.locate s)
  begins : ∀ {u : Text}, u <:+: t → P u → Begins u

theorem finds_text {x : Text} (hx : x ≠ []) (s : Text) :
    Finds s (· = x) ((behaviour (.text x)).locate s) := by
  show Finds s (· = x) ((find? x s).map (·, [x.length]))
  rcases find?_cases x s with ⟨k, hk, hfirst, hfind⟩ | ⟨hnone, hfind⟩
  · rw [hfind, Option.map_some]
    refine ⟨fun u hu => ?_, fun n hn => ?_, ?_⟩
    · rw [List.mem_singleton]
      refine ⟨congrArg List.length, fun hlength => ?_⟩
      exact (List.prefix_of_prefix_length_le hu hk hlength.le).eq_of_length hlength
    · have hle := hk.length_le
      have hpos := List.length_pos_iff.mpr hx
      rw [List.mem_singleton.mp hn]
      rw [List.length_drop] at hle
      omega
    · rintro j hj u hu rfl
      exact hfirst j hj hu
  · rw [hfind, Option.map_none]
    rintro j u hu rfl
    exact hnone j hu

/-- A text stands where it is found. -/
theorem locates_text {x : Text} (hx : x ≠ []) (hutf : x.isUtf8 = true) (t : Text) :
    Locates t (behaviour (.text x)) (· = x) where
  finds := fun _ => finds_text hx _
  begins := by
    rintro u - rfl
    exact begins_of_isUtf8 hx hutf

section Pivot

variable {v : Behaviour} {l r : Option Behaviour} {P : Text → Prop} {t : Text} {limit : Nat}

/-- A piece stands in a slice of a text if it stands there in the text and ends within the slice. -/
theorem prefix_slice_iff {u : Text} {i : Nat} (hu : u ≠ []) :
    u <+: (t.take limit).drop i ↔ u <+: t.drop i ∧ i + u.length ≤ limit := by
  have hpos := List.length_pos_iff.mpr hu
  rw [List.drop_take, List.prefix_take_iff]
  refine and_congr_right fun _ => ?_
  omega

/-- At the place that is found in a slice, the lengths are those of the pieces that satisfy `P` and
end within the slice. -/
theorem Finds.exists_length_iff {offset k : Nat} {lengths : List Nat} {R : Nat → Prop}
    (h : Finds ((t.take limit).drop offset) P (some (k, lengths))) (hlimit : limit ≤ t.length)
    (hne : ∀ u, u <+: t.drop (offset + k) → P u → u ≠ []) (hoffset : offset < limit) :
    (∃ n ∈ lengths, R n) ↔
      ∃ u, u <+: t.drop (offset + k) ∧ offset + k + u.length ≤ limit ∧ P u ∧ R u.length := by
  obtain ⟨hlengths, hwithin, -⟩ := h
  rw [List.drop_drop] at hlengths
  rw [List.length_drop, List.length_take, Nat.min_eq_left hlimit] at hwithin
  constructor
  · rintro ⟨n, hn, hR⟩
    have hend := hwithin n hn
    have hlength : ((t.drop (offset + k)).take n).length = n := by
      rw [List.length_take, List.length_drop]
      omega
    have hprefix : (t.drop (offset + k)).take n <+: (t.take limit).drop (offset + k) := by
      rw [List.drop_take]
      exact List.take_prefix_take_left (by omega)
    rw [← hlength] at hn hR
    exact ⟨_, List.take_prefix n _, by omega, (hlengths _ hprefix).mpr hn, hR⟩
  · rintro ⟨u, hu, hend, hP, hR⟩
    exact ⟨u.length, (hlengths u ((prefix_slice_iff (hne u hu hP)).mpr ⟨hu, hend⟩)).mp hP, hR⟩

/-- Behind the character at a place the search goes on in front of every later piece. -/
theorem Locates.add_firstLength_le (hv : Locates t v P) {i j : Nat} {u : Text} (hlt : j < i)
    (hu : u <+: t.drop i) (hP : P u) : j + Behaviour.firstLength (t.drop j) ≤ i := by
  have hle : Behaviour.firstLength (t.drop j) ≤ i - j := by
    refine firstLength_le (by omega) ?_
    rw [List.drop_drop, Nat.add_sub_cancel' hlt.le]
    obtain ⟨rest, hrest⟩ := hu
    rw [← hrest]
    exact (hv.begins ((List.prefix_append u rest).isInfix.trans
      (hrest ▸ (List.drop_suffix i t).isInfix)) hP).append rest
  omega

/-- No place is missed: the pivot matches if the parts match around one of them. -/
theorem pivotAccepts_iff (hv : Locates t v P) (hlimit : limit ≤ t.length) :
    ∀ {fuel offset : Nat}, t.length < offset + fuel →
      (Behaviour.pivotAccepts v l r t limit fuel offset = true ↔
        ∃ i ≥ offset, ∃ u, u <+: t.drop i ∧ i + u.length ≤ limit ∧ P u ∧
          Behaviour.partAccepts l (t.take i) = true ∧
          Behaviour.partAccepts r (t.drop (i + u.length)) = true) := by
  have hne : ∀ {i u}, u <+: t.drop i → P u → u ≠ [] := fun hu hP =>
    (hv.begins (hu.isInfix.trans (List.drop_suffix _ t).isInfix) hP).ne_nil
  intro fuel
  induction fuel with
  | zero =>
    intro offset hfuel
    refine ⟨fun h => absurd h (by simp [Behaviour.pivotAccepts]), ?_⟩
    rintro ⟨i, hi, u, -, hend, -⟩
    omega
  | succ fuel ih =>
    intro offset hfuel
    rw [Behaviour.pivotAccepts]
    by_cases hstop : limit ≤ offset
    · rw [if_pos hstop]
      refine ⟨fun h => absurd h (by simp), ?_⟩
      rintro ⟨i, hi, u, hu, hend, hP, -⟩
      have hpos := List.length_pos_iff.mpr (hne hu hP)
      omega
    · rw [if_neg hstop]
      have hfinds := hv.finds (s := (t.take limit).drop offset)
        ((List.drop_suffix _ _).isInfix.trans (List.take_prefix _ _).isInfix)
      -- A piece behind the offset stands in the slice that is searched.
      have hplace : ∀ {i u}, offset ≤ i → u <+: t.drop i → i + u.length ≤ limit → P u →
          u <+: ((t.take limit).drop offset).drop (i - offset) := by
        intro i u hi hu hend hP
        rw [List.drop_drop, Nat.add_sub_cancel' hi]
        exact (prefix_slice_iff (hne hu hP)).mpr ⟨hu, hend⟩
      cases hlocate : v.locate ((t.take limit).drop offset) with
      | none =>
        rw [hlocate] at hfinds
        refine ⟨fun h => absurd h (by simp), ?_⟩
        rintro ⟨i, hi, u, hu, hend, hP, -⟩
        exact absurd hP (hfinds _ u (hplace hi hu hend hP))
      | some found =>
        obtain ⟨k, lengths⟩ := found
        rw [hlocate] at hfinds
        have hfuel' : t.length <
            offset + k + Behaviour.firstLength (t.drop (offset + k)) + fuel := by
          by_cases hend : t.drop (offset + k) = []
          · have hge := List.drop_eq_nil_iff.mp hend
            omega
          · have hpos := firstLength_pos hend
            omega
        dsimp only
        rw [Bool.or_eq_true, Bool.and_eq_true, List.any_reverse, List.any_eq_true, ih hfuel',
          hfinds.exists_length_iff hlimit (fun u => hne) (Nat.lt_of_not_le hstop)]
        constructor
        · rintro (⟨hl, u, hu, hend, hP, hr⟩ | ⟨i, hi, hrest⟩)
          · exact ⟨offset + k, Nat.le_add_right offset k, u, hu, hend, hP, hl, hr⟩
          · exact ⟨i, by omega, hrest⟩
        · rintro ⟨i, hi, u, hu, hend, hP, hl, hr⟩
          rcases Nat.lt_trichotomy i (offset + k) with hlt | rfl | hgt
          · exact absurd hP (hfinds.2.2 (i - offset) (by omega) u (hplace hi hu hend hP))
          · exact .inl ⟨hl, u, hu, hend, hP, hr⟩
          · exact .inr ⟨i, hv.add_firstLength_le hgt hu hP, u, hu, hend, hP, hl, hr⟩

/-- The piece matches, and it is not shorter than every match must be. -/
def Behaviour.Fits (b : Behaviour) (u : Text) : Prop :=
  b.accepts u = true ∧ ∀ n ∈ b.length?, n ≤ u.length

/-- The same for a part that may be missing. -/
def Behaviour.FitsPart (b : Option Behaviour) (u : Text) : Prop :=
  Behaviour.partAccepts b u = true ∧ ∀ n ∈ Behaviour.partLength? b, n ≤ u.length

theorem sum?_eq_some_iff {a b : Option Nat} {n : Nat} :
    sum? a b = some n ↔ ∃ i ∈ a, ∃ j ∈ b, i + j = n := by
  cases a <;> cases b <;> simp [sum?]

theorem getD_le_of_forall_mem {o : Option Nat} {n : Nat} (h : ∀ k ∈ o, k ≤ n) : o.getD 0 ≤ n := by
  cases o with
  | none => exact Nat.zero_le n
  | some k => exact h k rfl

theorem le_of_mem_of_getD_le {o : Option Nat} {k n : Nat} (hk : k ∈ o) (h : o.getD 0 ≤ n) :
    k ≤ n := by
  rwa [Option.mem_def.mp hk] at h

/-- **A pattern around a pivot** matches the paths that can be cut into a match of the pivot and of
the parts on both sides. -/
theorem accepts_pivot_iff (hv : Locates t v P) (hlength : ∀ u, P u → ∀ n ∈ v.length?, n ≤ u.length) :
    (Behaviour.pivot v l r).accepts t = true ↔
      ∃ a u b, t = a ++ u ++ b ∧ P u ∧ Behaviour.FitsPart l a ∧ Behaviour.FitsPart r b := by
  rw [Behaviour.pivot]
  dsimp only
  rw [Bool.and_eq_true, pivotAccepts_iff hv (Nat.sub_le _ _) (by omega)]
  constructor
  · rintro ⟨-, i, hi, u, ⟨b, hb⟩, hend, hP, hl, hr⟩
    have hlengthb := congrArg List.length hb
    rw [List.length_append, List.length_drop] at hlengthb
    have hdrop : t.drop (i + u.length) = b := by rw [← List.drop_drop, ← hb, List.drop_left]
    have hinside : u <:+: t :=
      (List.prefix_append u b).isInfix.trans (hb ▸ (List.drop_suffix i t).isInfix)
    have hpos := List.length_pos_iff.mpr (hv.begins hinside hP).ne_nil
    have hi' : (t.take i).length = i := by
      rw [List.length_take]
      omega
    rw [hdrop] at hr
    refine ⟨t.take i, u, b, ?_, hP, ⟨hl, fun n hn => ?_⟩, hr, fun n hn => ?_⟩
    · rw [List.append_assoc, hb, List.take_append_drop]
    · rw [hi']
      exact le_of_mem_of_getD_le hn hi
    · have hle := le_of_mem_of_getD_le hn (Nat.le_refl _)
      omega
  · rintro ⟨a, u, b, rfl, hP, ⟨hl, hla⟩, hr, hrb⟩
    have hla' := getD_le_of_forall_mem hla
    have hrb' := getD_le_of_forall_mem hrb
    refine ⟨?_, a.length, hla', u, ?_, ?_, hP, ?_, ?_⟩
    · rw [Bool.not_eq_true', Option.any_eq_false]
      intro n hn
      obtain ⟨i, hi, m, hm, rfl⟩ := sum?_eq_some_iff.mp hn
      obtain ⟨j, hj, k, hk, rfl⟩ := sum?_eq_some_iff.mp hm
      have hi := hla i hi
      have hj := hlength u hP j hj
      have hk := hrb k hk
      rw [decide_eq_false_iff_not, List.length_append, List.length_append]
      omega
    · rw [List.append_assoc, List.drop_left]
      exact List.prefix_append u b
    · rw [List.length_append, List.length_append]
      omega
    · rwa [List.append_assoc, List.take_left]
    · rwa [← List.length_append, List.drop_left]

end Pivot

/-- A part of a pattern that has no fixed length; a missing part has none either. -/
def IsOpen (m : Option Matcher) : Prop := ∀ m' ∈ m, (behaviour m').length? = none

theorem IsOpen.fitsPart_iff {m : Option Matcher} (h : IsOpen m) {t : Text} :
    Behaviour.FitsPart (partBehaviour m) t ↔
      Behaviour.partAccepts (partBehaviour m) t = true := by
  refine and_iff_left_of_imp fun _ n hn => ?_
  cases m with
  | none => exact Option.some.inj hn ▸ Nat.zero_le _
  | some m =>
    have hlength : (behaviour m).length? = some n := hn
    rw [h m rfl] at hlength
    exact absurd hlength (by simp)

/-- A pivot has no fixed length either, if there is something at one of its sides. -/
theorem length?_pivot {v : Matcher} {left right : Option Matcher} (hleft : IsOpen left)
    (hright : IsOpen right) (hsome : left ≠ none ∨ right ≠ none) :
    (behaviour (.pivot v left right)).length? = none := by
  rcases hsome with hne | hne
  · obtain ⟨m, rfl⟩ := Option.ne_none_iff_exists'.mp hne
    show sum? (behaviour m).length? (sum? (behaviour v).length? _) = none
    rw [hleft m rfl]
    rfl
  · obtain ⟨m, rfl⟩ := Option.ne_none_iff_exists'.mp hne
    show sum? _ (sum? (behaviour v).length? (behaviour m).length?) = none
    rw [hright m rfl]
    cases (behaviour v).length? <;> cases Behaviour.partLength? (partBehaviour left) <;> rfl

/-- A text has no more characters than bytes. -/
theorem length_runes_le (t : Text) : t.runes.length ≤ t.length := by
  conv_rhs => rw [← Text.ofRunes_runes t]
  induction t.runes with
  | nil => exact Nat.le_refl 0
  | cons r rs ih =>
    have hpos : 0 < r.bytes.length := by
      cases r with
      | char c => exact List.length_pos_iff.mpr String.utf8EncodeChar_ne_nil
      | stray b => exact Nat.one_pos
    rw [Text.ofRunes_cons, List.length_cons, List.length_append]
    omega

/-- **A pattern around a text** matches the paths that can be cut at that text into two that match
its parts. -/
theorem accepts_pivot_text_iff {x t : Text} {left right : Option Matcher} (hx : x ≠ [])
    (hutf : x.isUtf8 = true) :
    (Matcher.pivot (.text x) left right).accepts t = true ↔
      ∃ a b, t = a ++ x ++ b ∧ Behaviour.FitsPart (partBehaviour left) a ∧
        Behaviour.FitsPart (partBehaviour right) b := by
  have hlength : ∀ u, u = x → ∀ n ∈ (behaviour (.text x)).length?, n ≤ u.length := by
    rintro u rfl n hn
    exact Option.some.inj hn ▸ length_runes_le u
  rw [accepts, behaviour, accepts_pivot_iff (locates_text hx hutf t) hlength]
  constructor
  · rintro ⟨a, _, b, rfl, rfl, hl, hr⟩
    exact ⟨a, b, rfl, hl, hr⟩
  · rintro ⟨a, b, rfl, hl, hr⟩
    exact ⟨a, x, b, rfl, rfl, hl, hr⟩

end Matcher

end ReflectGen

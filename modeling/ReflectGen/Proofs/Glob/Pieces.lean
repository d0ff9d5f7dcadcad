import ReflectGen.Proofs.Glob.Places

/-!
# The pieces of a matcher

The matcher of a pattern is put together from texts, stars, question marks and choices of texts, and
from what neighbours of these are glued to: rows of a fixed length, and runs of characters without a
slash.  Each of these is looked for in a way of its own.

* `Matcher.Piece`: the matchers that others are put together from.
* `Matcher.Piece.locates`: the first place of a piece that is neither a star nor a run.
* `Matcher.Piece.anchored`: a star or a run is found at the front.
-/

namespace ReflectGen

namespace Matcher

/-! ## Choices of texts -/

theorem behaviours_map_text (xs : List Text) :
    behaviours (xs.map .text) = xs.map fun x => behaviour (.text x) := by
  induction xs with
  | nil => rfl
  | cons x xs ih => rw [List.map_cons, behaviours, ih, List.map_cons]

theorem lengths_map_text (xs : List Text) :
    lengths (xs.map .text) = (xs.map fun x => x.runes.length).map some := by
  induction xs with
  | nil => rfl
  | cons x xs ih =>
    rw [List.map_cons, lengths, ih]
    rfl

theorem accepts_choice_iff {xs : List Text} {u : Text} :
    (Matcher.anyOf (xs.map .text)).accepts u = true ↔ u ∈ xs := by
  show (behaviours (xs.map .text)).any (·.accepts u) = true ↔ _
  rw [behaviours_map_text, List.any_map, List.any_eq_true]
  constructor
  · rintro ⟨x, hx, hu⟩
    have heq : (u == x) = true := hu
    rwa [beq_iff_eq.mp heq]
  · exact fun hu => ⟨u, hu, beq_self_eq_true u⟩

theorem common?_eq_some {n : Nat} (ls : List Nat) :
    ∀ {l : Option Nat}, common? l (ls.map some) = some n → (∀ k ∈ l, k = n) ∧ ∀ k ∈ ls, k = n := by
  induction ls with
  | nil =>
    rintro l h
    rw [List.map_nil, common?] at h
    rw [h]
    exact ⟨fun k hk => (Option.some.inj hk).symm, fun k hk => absurd hk List.not_mem_nil⟩
  | cons a ls ih =>
    intro l h
    rw [List.forall_mem_cons]
    cases l with
    | none =>
      rw [List.map_cons, common?] at h
      obtain ⟨ha, hls⟩ := ih h
      exact ⟨fun k hk => absurd hk (Option.not_mem_none k), ha a rfl, hls⟩
    | some b =>
      rw [List.map_cons, common?] at h
      split at h
      · next hba =>
        obtain ⟨hb, hls⟩ := ih h
        rw [beq_iff_eq] at hba
        exact ⟨hb, hba ▸ hb b rfl, hls⟩
      · exact absurd h (by simp)

/-- If a choice has a fixed length, all its texts have it. -/
theorem length_of_length?_choice {xs : List Text} {n : Nat}
    (h : (Matcher.anyOf (xs.map .text)).length? = some n) : ∀ x ∈ xs, x.runes.length = n := by
  rw [length?, lengths_map_text] at h
  exact fun x hx => (common?_eq_some _ h).2 _ (List.mem_map_of_mem hx)

theorem fits_choice_iff {xs : List Text} {u : Text} :
    (Matcher.anyOf (xs.map .text)).Fits u ↔ u ∈ xs := by
  rw [fits_iff, accepts_choice_iff]
  refine and_iff_left_of_imp fun hu n hn => ?_
  rw [← length_of_length?_choice hn u hu]
  exact length_runes_le u

theorem fits_text_iff {x u : Text} : (Matcher.text x).Fits u ↔ u = x := by
  rw [fits_iff, show (Matcher.text x).accepts u = (u == x) from rfl, beq_iff_eq]
  refine and_iff_left_of_imp ?_
  rintro rfl n hn
  exact Option.some.inj hn ▸ length_runes_le u

theorem finds_foldl_earlier {s : Text} {xs : List Text} (h : ∀ x ∈ xs, x ≠ []) :
    ∀ {found : Option (Nat × List Nat)} {P : Text → Prop}, Finds s P found →
      Finds s (fun u => P u ∨ u ∈ xs)
        ((xs.map fun x => behaviour (.text x)).foldl
          (fun found b => Behaviour.earlier found (b.locate s)) found) := by
  induction xs with
  | nil =>
    intro found P hfound
    simpa using hfound
  | cons x xs ih =>
    intro found P hfound
    rw [List.forall_mem_cons] at h
    have hboth := ih h.2 (hfound.earlier (finds_text h.1 s))
    simpa only [List.map_cons, List.foldl_cons, List.mem_cons, or_assoc] using hboth

/-- A choice stands where the first of its texts is found. -/
theorem locates_choice {xs : List Text} (h : ∀ x ∈ xs, x ≠ [] ∧ x.isUtf8 = true) (t : Text) :
    Locates t (behaviour (.anyOf (xs.map .text))) (Matcher.anyOf (xs.map .text)).Fits := by
  have hfits : (Matcher.anyOf (xs.map .text)).Fits = (· ∈ xs) :=
    funext fun u => propext fits_choice_iff
  rw [hfits]
  refine ⟨fun {s} _ => ?_, fun {u} _ hu => begins_of_isUtf8 (h u hu).1 (h u hu).2⟩
  have hnone : Finds s (fun _ => False) none := fun _ _ _ => not_false
  have hall := finds_foldl_earlier (fun x hx => (h x hx).1) hnone
  simp only [false_or] at hall
  show Finds s (· ∈ xs) ((behaviours (xs.map .text)).foldl _ none)
  rwa [behaviours_map_text]

/-! ## Single characters -/

theorem ofNat_eq_separator_iff {b : UInt8} (hb : b < 0x80) :
    Char.ofNat b.toNat = Glob.separator ↔ b = Path.slash := by
  constructor
  · intro h
    have hbytes := Text.bytes_lead_ascii hb
    rw [h] at hbytes
    exact (List.cons.inj hbytes).1.symm
  · rintro rfl
    rfl

/-- Is the character one that a question mark stands for? -/
def isInName (c : Char) : Bool := !([Glob.separator].contains c)

theorem isInName_iff {b : UInt8} (hb : b < 0x80) :
    isInName (Char.ofNat b.toNat) = true ↔ b ≠ Path.slash := by
  rw [isInName, Bool.not_eq_true', List.contains_eq_mem, decide_eq_false_iff_not,
    List.mem_singleton, ofNat_eq_separator_iff hb]

/-- A question mark fits one byte, unless it is a slash. -/
theorem fits_single_iff {u : Text} (hu : u.IsAscii) :
    (Matcher.single [Glob.separator]).Fits u ↔ ∃ b, u = [b] ∧ b ≠ Path.slash := by
  have haccepts : (Matcher.single [Glob.separator]).accepts u = isOne isInName u := rfl
  rw [fits_iff, haccepts, isOne, hu.runes_eq]
  match u with
  | [] => simp [length?]
  | [b] =>
    have hb := hu b List.mem_cons_self
    simp only [List.map_cons, List.map_nil, Rune.toChar, isInName_iff hb]
    constructor
    · exact fun h => ⟨b, rfl, h.1⟩
    · rintro ⟨c, hc, hne⟩
      obtain rfl : b = c := (List.cons.inj hc).1
      exact ⟨hne, fun n hn => (Option.some.inj hn).ge⟩
  | b :: c :: u => simp

/-- The first character of an ASCII text that satisfies `p`. -/
theorem find?_startsFrom_cases (p : Char → Bool) {s : Text} (hs : s.IsAscii) : ∀ n : Nat,
    (∃ a b c, s = a ++ b :: c ∧ (∀ x ∈ a, ¬ p (Char.ofNat x.toNat) = true) ∧
        p (Char.ofNat b.toNat) = true ∧
        (startsFrom n (s.map fun b => Rune.char (Char.ofNat b.toNat))).find?
          (fun q => p q.2.toChar) = some (n + a.length, .char (Char.ofNat b.toNat))) ∨
      (∀ x ∈ s, ¬ p (Char.ofNat x.toNat) = true) ∧
        (startsFrom n (s.map fun b => Rune.char (Char.ofNat b.toNat))).find?
          (fun q => p q.2.toChar) = none := by
  induction s with
  | nil => exact fun n => .inr ⟨fun x hx => absurd hx List.not_mem_nil, rfl⟩
  | cons b s ih =>
    intro n
    rw [Text.IsAscii, List.forall_mem_cons] at hs
    rw [List.map_cons, startsFrom, List.find?_cons, Text.bytes_lead_ascii hs.1]
    dsimp only [Rune.toChar]
    by_cases hp : p (Char.ofNat b.toNat) = true
    · rw [hp]
      exact .inl ⟨[], b, s, rfl, fun x hx => absurd hx List.not_mem_nil, hp, rfl⟩
    · rw [Bool.eq_false_iff.mpr hp]
      rcases ih hs.2 (n + 1) with ⟨a, c, rest, rfl, ha, hc, hfind⟩ | ⟨hnone, hfind⟩
      · have hlength : n + (b :: a).length = n + 1 + a.length := by
          rw [List.length_cons]
          omega
        refine .inl ⟨b :: a, c, rest, rfl, List.forall_mem_cons.mpr ⟨hp, ha⟩, hc, ?_⟩
        rw [hlength]
        exact hfind
      · exact .inr ⟨List.forall_mem_cons.mpr ⟨hp, hnone⟩, hfind⟩

/-- A question mark stands at the first character that is no slash. -/
theorem locates_single {t : Text} (ht : t.IsAscii) :
    Locates t (behaviour (.single [Glob.separator])) (Matcher.single [Glob.separator]).Fits := by
  have hpiece : ∀ {s u : Text} {j : Nat}, s <:+: t → u <+: s.drop j → u.IsAscii := fun hs hu =>
    ht.of_isInfix ((hu.isInfix.trans (List.drop_suffix _ _).isInfix).trans hs)
  refine ⟨fun {s} hs => ?_, fun {u} hu hfits => ?_⟩
  · have hascii := ht.of_isInfix hs
    have hlocate : (behaviour (.single [Glob.separator])).locate s =
        ((starts s).find? fun q => isInName q.2.toChar).map fun q => (q.1, [runeLength q.2]) := rfl
    rw [hlocate, starts, hascii.runes_eq]
    rcases find?_startsFrom_cases isInName hascii 0 with
      ⟨a, b, c, rfl, ha, hb, hfind⟩ | ⟨hnone, hfind⟩
    · have hrune : runeLength (.char (Char.ofNat b.toNat)) = 1 :=
        congrArg List.length (Text.bytes_lead_ascii (hascii b (by simp)))
      rw [hfind, Option.map_some, Nat.zero_add]
      dsimp only
      rw [hrune]
      refine ⟨fun u hu => ?_, fun n hn => ?_, fun j hj u hu hfits => ?_⟩
      · rw [fits_single_iff (hpiece hs hu), List.mem_singleton]
        rw [List.drop_left] at hu
        constructor
        · rintro ⟨b', rfl, -⟩
          rfl
        · intro hlength
          obtain ⟨b', rfl⟩ := List.length_eq_one_iff.mp hlength
          obtain rfl : b' = b := (List.cons_prefix_cons.mp hu).1
          exact ⟨b', rfl, (isInName_iff (hascii b' (by simp))).mp hb⟩
      · rw [List.mem_singleton.mp hn, List.length_append, List.length_cons]
        omega
      · obtain ⟨b', rfl, hne⟩ := (fits_single_iff (hpiece hs hu)).mp hfits
        rw [List.drop_append_of_le_length hj.le] at hu
        have hmem : b' ∈ a := by
          refine List.mem_of_mem_drop (i := j) ?_
          obtain ⟨d, drest, hd⟩ := List.exists_cons_of_ne_nil
            (List.ne_nil_of_length_pos (by rw [List.length_drop]; omega : 0 < (a.drop j).length))
          rw [hd, List.cons_append, List.cons_prefix_cons] at hu
          rw [hd, hu.1]
          exact List.mem_cons_self
        exact ha b' hmem ((isInName_iff (hascii b' (by simp [hmem]))).mpr hne)
    · rw [hfind]
      intro j u hu hfits
      obtain ⟨b, rfl, hne⟩ := (fits_single_iff (hpiece hs hu)).mp hfits
      have hmem : b ∈ s := List.mem_of_mem_drop (hu.subset List.mem_cons_self)
      exact hnone b hmem ((isInName_iff (hascii b hmem)).mpr hne)
  · obtain ⟨b, rfl, -⟩ := (fits_single_iff (ht.of_isInfix hu)).mp hfits
    exact begins_of_isAscii (ht.of_isInfix hu) (List.cons_ne_nil b [])

/-! ## Stars and runs -/

/-- A match at the front of a text, with the lengths at which `P` holds; there is none if it holds
nowhere. -/
def AtFront (P : Nat → Prop) : Option (Nat × List Nat) → Prop
  | none => ∀ n, ¬ P n
  | some (i, lengths) => i = 0 ∧ ∀ n, n ∈ lengths ↔ P n

/-- The matcher is found at the front, with the lengths of all pieces there that match and that end
where a character starts or the text ends. -/
def Anchored (s : Text) (m : Matcher) : Prop :=
  AtFront (fun n => n ∈ boundaries s ∧ m.accepts (s.take n) = true) (m.behaviour.locate s)

theorem AtFront.congr {P Q : Nat → Prop} {o : Option (Nat × List Nat)} (h : AtFront P o)
    (heq : ∀ n, P n ↔ Q n) : AtFront Q o := by
  cases o with
  | none => exact fun n hn => h n ((heq n).mpr hn)
  | some found => exact ⟨h.1, fun n => (h.2 n).trans (heq n)⟩

theorem atFront_some {P : Nat → Prop} {ls : List Nat} (h : ∀ n, n ∈ ls ↔ P n) :
    AtFront P (some (0, ls)) := ⟨rfl, h⟩

theorem anchored_super (s : Text) : Anchored s .super :=
  atFront_some fun _ => (and_iff_left rfl).symm

theorem findSeparator?_eq (s : Text) :
    findSeparator? [Glob.separator] s = find? [Path.slash] s := by
  rw [findSeparator?, List.findSome?_cons, show Glob.separator = '/' from rfl, encode_separator]
  cases find? [Path.slash] s <;> rfl

/-- A text is cut at its first slash, if there is one. -/
theorem find?_slash_cases (s : Text) :
    (Path.slash ∉ s ∧ find? [Path.slash] s = none) ∨
      ∃ a b, s = a ++ Path.slash :: b ∧ Path.slash ∉ a ∧ find? [Path.slash] s = some a.length := by
  rcases find?_cases [Path.slash] s with ⟨k, ⟨b, hb⟩, hfirst, hfind⟩ | ⟨hnone, hfind⟩
  · rw [List.singleton_append] at hb
    have hcut : s = s.take k ++ Path.slash :: b := by rw [hb, List.take_append_drop]
    have hk : (s.take k).length = k := by
      have hlength := congrArg List.length hb
      rw [List.length_cons, List.length_drop] at hlength
      rw [List.length_take]
      omega
    refine .inr ⟨s.take k, b, hcut, fun hmem => ?_, by rw [hfind, hk]⟩
    obtain ⟨front, back, hfront⟩ := List.append_of_mem hmem
    refine hfirst front.length ?_ ⟨back ++ Path.slash :: b, ?_⟩
    · rw [← hk, hfront, List.length_append, List.length_cons]
      omega
    · rw [hcut, hfront, List.append_assoc, List.drop_left]
      rfl
  · refine .inl ⟨fun hmem => ?_, hfind⟩
    obtain ⟨front, back, rfl⟩ := List.append_of_mem hmem
    exact hnone front.length (by rw [List.drop_left]; exact ⟨back, rfl⟩)

/-- In front of the first slash all lengths are those of pieces without a slash. -/
theorem mem_boundaries_front_iff {a b : Text} (ha : Path.slash ∉ a) {n : Nat} :
    n ∈ boundaries a ↔
      n ∈ boundaries (a ++ Path.slash :: b) ∧ Path.slash ∉ (a ++ Path.slash :: b).take n := by
  have hbegins : Begins (Path.slash :: b) := ⟨_, b, rfl, by decide⟩
  constructor
  · intro hn
    have hle := le_length_of_mem_boundaries hn
    refine ⟨(mem_boundaries_left_iff hbegins hle).mpr hn, ?_⟩
    rw [List.take_append_of_le_length hle]
    exact fun hmem => ha (List.mem_of_mem_take hmem)
  · rintro ⟨hn, hslash⟩
    have hle : n ≤ a.length := by
      by_contra hlt
      rw [List.take_append, List.take_of_length_le (by omega)] at hslash
      obtain ⟨k, hk⟩ : ∃ k, n - a.length = k + 1 := ⟨n - a.length - 1, by omega⟩
      rw [hk, List.take_succ_cons] at hslash
      exact hslash (by simp)
    exact (mem_boundaries_left_iff hbegins hle).mp hn

/-- What fits pieces without a slash is found at the front, up to the first slash. -/
theorem atFront_cut_slash {s : Text} {m : Matcher}
    (haccepts : ∀ u, m.accepts u = true ↔ Path.slash ∉ u) (a b : Text)
    (hs : s = a ++ Path.slash :: b) (ha : Path.slash ∉ a) :
    AtFront (fun n => n ∈ boundaries s ∧ m.accepts (s.take n) = true)
      (some (0, boundaries a)) := by
  refine atFront_some fun n => ?_
  rw [haccepts, hs]
  exact mem_boundaries_front_iff ha

theorem atFront_of_slash_notMem {s : Text} {m : Matcher}
    (haccepts : ∀ u, m.accepts u = true ↔ Path.slash ∉ u) (hs : Path.slash ∉ s) :
    AtFront (fun n => n ∈ boundaries s ∧ m.accepts (s.take n) = true)
      (some (0, boundaries s)) := by
  refine atFront_some fun n => (and_iff_left ?_).symm
  exact (haccepts _).mpr fun hmem => hs (List.mem_of_mem_take hmem)

theorem accepts_any_iff {u : Text} :
    (Matcher.any [Glob.separator]).accepts u = true ↔ Path.slash ∉ u := isNone_findSeparator?_iff

theorem anchored_any (s : Text) : Anchored s (.any [Glob.separator]) := by
  rw [Anchored]
  rcases find?_slash_cases s with ⟨hs, hfind⟩ | ⟨a, b, rfl, ha, hfind⟩
  · simp only [behaviour, findSeparator?_eq, hfind]
    exact atFront_of_slash_notMem (fun _ => accepts_any_iff) hs
  · simp only [behaviour, findSeparator?_eq, hfind, List.take_left]
    exact atFront_cut_slash (fun _ => accepts_any_iff) a b rfl ha

theorem accepts_noSlash_iff {u : Text} :
    (Matcher.contains [Path.slash] true).accepts u = true ↔ Path.slash ∉ u := by
  show ((find? [Path.slash] u).isSome != true) = true ↔ _
  rw [bne_iff_ne, ne_eq, isSome_find?_iff, List.singleton_infix_iff]

theorem anchored_noSlash (s : Text) : Anchored s (.contains [Path.slash] true) := by
  rw [Anchored]
  rcases find?_slash_cases s with ⟨hs, hfind⟩ | ⟨a, b, rfl, ha, hfind⟩
  · simp only [behaviour, hfind]
    exact atFront_of_slash_notMem (fun _ => accepts_noSlash_iff) hs
  · simp only [behaviour, hfind, List.take_left]
    exact atFront_cut_slash (fun _ => accepts_noSlash_iff) a b rfl ha

theorem accepts_least_iff {u : Text} (hu : u.IsAscii) {n : Nat} :
    (Matcher.least (n + 1)).accepts u = true ↔ n + 1 ≤ u.length := by
  show (decide (n + 1 ≤ u.runes.length) && !u.isEmpty) = true ↔ _
  rw [hu.length_runes]
  cases u <;> simp

theorem accepts_most_iff {u : Text} (hu : u.IsAscii) {n : Nat} :
    (Matcher.most n).accepts u = true ↔ u.length ≤ n := by
  show decide (u.runes.length ≤ n) = true ↔ _
  rw [hu.length_runes, decide_eq_true_eq]

theorem isAscii_take {s : Text} (hs : s.IsAscii) (n : Nat) : Text.IsAscii (s.take n) :=
  hs.of_isInfix (List.take_prefix n s).isInfix

theorem anchored_least {s : Text} (hs : s.IsAscii) (n : Nat) : Anchored s (.least (n + 1)) := by
  have hP : ∀ k, (k ∈ boundaries s ∧ (Matcher.least (n + 1)).accepts (s.take k) = true) ↔
      k ≤ s.length ∧ n + 1 ≤ k := by
    intro k
    rw [mem_boundaries_iff_of_isAscii hs, accepts_least_iff (isAscii_take hs k), List.length_take]
    omega
  have hlocate : (Matcher.least (n + 1)).behaviour.locate s =
      if s.length < n + 1 then none
      else if ((ends 0 s).drop n).isEmpty then none else some (0, (ends 0 s).drop n) := rfl
  rw [Anchored, hlocate, ends_of_isAscii hs, List.drop_range']
  refine AtFront.congr ?_ fun k => (hP k).symm
  split
  · intro k hk
    omega
  · next hle =>
    rw [if_neg]
    · refine atFront_some fun k => ?_
      rw [List.mem_range'_1]
      omega
    · rw [List.isEmpty_iff, List.range'_eq_nil_iff]
      omega

theorem anchored_most {s : Text} (hs : s.IsAscii) (n : Nat) : Anchored s (.most n) := by
  have hlocate : (Matcher.most n).behaviour.locate s = some (0, 0 :: (ends 0 s).take n) := rfl
  rw [Anchored, hlocate, ends_of_isAscii hs]
  refine atFront_some fun k => ?_
  rw [mem_boundaries_iff_of_isAscii hs, accepts_most_iff (isAscii_take hs k), List.length_take,
    List.mem_cons, List.mem_take_iff_getElem]
  simp only [List.length_range', List.getElem_range', exists_prop]
  constructor
  · rintro (rfl | ⟨i, hi, rfl⟩) <;> omega
  · intro hk
    refine or_iff_not_imp_left.mpr fun hne => ⟨k - 1, ?_, ?_⟩ <;> omega

theorem atFront_locateEvery {s : Text} {ms : List Matcher} (h : ∀ m ∈ ms, Anchored s m) :
    ∀ {found : List Nat} {P : Nat → Prop}, AtFront P (some (0, found)) →
      AtFront (fun n => P n ∧ ∀ m ∈ ms, n ∈ boundaries s ∧ m.accepts (s.take n) = true)
        (Behaviour.locateEvery s 0 found (behaviours ms)) := by
  induction ms with
  | nil =>
    intro found P hfound
    exact hfound.congr fun n => (and_iff_left fun m hm => absurd hm List.not_mem_nil).symm
  | cons m ms ih =>
    intro found P hfound
    rw [List.forall_mem_cons] at h
    have hm : AtFront _ _ := h.1
    rw [behaviours, Behaviour.locateEvery, List.drop_zero]
    cases hlocate : m.behaviour.locate s with
    | none =>
      rw [hlocate] at hm
      exact fun n hn => hm n (List.forall_mem_cons.mp hn.2).1
    | some at' =>
      obtain ⟨i, lengths⟩ := at'
      rw [hlocate] at hm
      obtain ⟨rfl, hlengths⟩ := hm
      dsimp only
      have hcommon : ∀ n, n ∈ (found.flatMap fun x => lengths.filter fun n => n + 0 == x) ↔
          P n ∧ n ∈ boundaries s ∧ m.accepts (s.take n) = true := by
        intro n
        rw [← hfound.2 n, show (n ∈ boundaries s ∧ m.accepts (s.take n) = true) ↔ n ∈ lengths from
          (hlengths n).symm]
        simp [and_comm]
      split
      · next hempty =>
        intro n hn
        rw [List.isEmpty_iff] at hempty
        rw [List.forall_mem_cons] at hn
        have hmem := (hcommon n).mpr ⟨hn.1, hn.2.1⟩
        rw [hempty] at hmem
        exact absurd hmem List.not_mem_nil
      · refine (ih h.2 ⟨rfl, hcommon⟩).congr fun n => ?_
        rw [List.forall_mem_cons, and_assoc]

theorem accepts_everyOf_iff {ms : List Matcher} {u : Text} :
    (Matcher.everyOf ms).accepts u = true ↔ ∀ m ∈ ms, m.accepts u = true := by
  show (behaviours ms).all (·.accepts u) = true ↔ _
  induction ms with
  | nil => simp [behaviours]
  | cons m ms ih =>
    rw [behaviours, List.all_cons, Bool.and_eq_true, ih, List.forall_mem_cons]
    rfl

theorem anchored_everyOf {s : Text} {m : Matcher} {ms : List Matcher}
    (h : ∀ k ∈ m :: ms, Anchored s k) : Anchored s (.everyOf (m :: ms)) := by
  have hlocate : (Matcher.everyOf (m :: ms)).behaviour.locate s =
      match m.behaviour.locate s with
      | none => none
      | some (i, lengths) => Behaviour.locateEvery s i lengths (behaviours ms) := rfl
  rw [List.forall_mem_cons] at h
  have hm : AtFront _ _ := h.1
  rw [Anchored, hlocate]
  cases hlocate : m.behaviour.locate s with
  | none =>
    rw [hlocate] at hm
    refine fun n hn => hm n ⟨hn.1, ?_⟩
    exact accepts_everyOf_iff.mp hn.2 m List.mem_cons_self
  | some found =>
    obtain ⟨i, lengths⟩ := found
    rw [hlocate] at hm
    obtain rfl := hm.1
    refine (atFront_locateEvery h.2 hm).congr fun n => ?_
    rw [accepts_everyOf_iff, List.forall_mem_cons]
    constructor
    · exact fun hn => ⟨hn.1.1, hn.1.2, fun k hk => (hn.2 k hk).2⟩
    · exact fun hn => ⟨⟨hn.1, hn.2.1⟩, fun k hk => ⟨hn.1, hn.2.2 k hk⟩⟩

/-- At least `n + 1` characters without a slash; exactly so many if there is no star among them. -/
def run (hasAny : Bool) (n : Nat) : Matcher :=
  Run.matcher { separators := [Glob.separator], hasAny, singles := n + 1 }

theorem run_eq (hasAny : Bool) (n : Nat) :
    run hasAny n = .everyOf (.least (n + 1) ::
      ((if hasAny then [] else [.most (n + 1)]) ++ [.contains [Path.slash] true])) := by
  have hseparators : Text.ofChars [Glob.separator] = [Path.slash] := by decide
  cases hasAny <;> simp [run, Run.matcher, hseparators]

theorem length?_run (hasAny : Bool) (n : Nat) : (run hasAny n).length? = none := by
  rw [run_eq]
  rfl

theorem fits_run_iff {hasAny : Bool} {n : Nat} {u : Text} (hu : u.IsAscii) :
    (run hasAny n).Fits u ↔
      Path.slash ∉ u ∧ n + 1 ≤ u.length ∧ (hasAny = false → u.length = n + 1) := by
  rw [fits_iff_accepts (length?_run hasAny n), run_eq, accepts_everyOf_iff, List.forall_mem_cons, accepts_least_iff hu, List.forall_mem_append,
    List.forall_mem_singleton, accepts_noSlash_iff]
  cases hasAny with
  | true => simp [and_comm]
  | false =>
    rw [if_neg (by simp), List.forall_mem_singleton, accepts_most_iff hu]
    constructor
    · exact fun h => ⟨h.2.2, h.1, fun _ => Nat.le_antisymm h.2.1 h.1⟩
    · exact fun h => ⟨h.2.1, (h.2.2 rfl).le, h.1⟩

theorem anchored_run {s : Text} (hs : s.IsAscii) (hasAny : Bool) (n : Nat) :
    Anchored s (run hasAny n) := by
  rw [run_eq]
  refine anchored_everyOf ?_
  rw [List.forall_mem_cons, List.forall_mem_append, List.forall_mem_singleton]
  refine ⟨anchored_least hs n, ?_, anchored_noSlash s⟩
  cases hasAny with
  | true => exact fun m hm => absurd hm List.not_mem_nil
  | false => exact List.forall_mem_singleton.mpr (anchored_most hs (n + 1))

/-! ## All kinds of pieces -/

/-- The matchers that others are put together from.  There are question marks and runs only if all
texts are ASCII texts. -/
inductive Piece (ascii : Bool) : Matcher → Prop
  | text {x : Text} (hx : x ≠ [] ∧ x.isUtf8 = true) : Piece ascii (.text x)
  | single (h : ascii = true) : Piece ascii (.single [Glob.separator])
  | any : Piece ascii (.any [Glob.separator])
  | super : Piece ascii .super
  | choice {xs : List Text} (hxs : ∀ x ∈ xs, x ≠ [] ∧ x.isUtf8 = true) (hlength : 1 < xs.length) :
    Piece ascii (.anyOf (xs.map .text))
  | row {n : Nat} {ms : List Matcher} (h : CutsAll ascii ms n) : Piece ascii (.row n ms)
  | run (h : ascii = true) (hasAny : Bool) (n : Nat) : Piece ascii (run hasAny n)

/-- A star may stand for the empty text. -/
def isStar : Matcher → Bool
  | .any _ => true
  | .super => true
  | _ => false

section Piece

variable {ascii : Bool} {m : Matcher} {x u t : Text}

theorem Piece.of_text (h : Piece ascii (.text x)) : x ≠ [] ∧ x.isUtf8 = true := by
  generalize hm : Matcher.text x = m at h
  cases h with
  | text hx => exact Matcher.text.inj hm ▸ hx
  | run _ hasAny n =>
    rw [run_eq] at hm
    exact absurd hm (by simp)
  | _ => exact absurd hm (by simp)

/-- Pieces have shapes of their own already. -/
theorem Piece.simplify_eq (h : Piece ascii m) : simplify m = m := by
  cases h with
  | choice hxs hlength =>
    rename_i xs
    match xs with
    | [] => rfl
    | [_] => exact absurd hlength (by simp)
    | _ :: _ :: _ => rfl
  | run _ hasAny n =>
    rw [run_eq]
    rfl
  | _ => rfl

/-- No piece is a text with a double star beside it. -/
theorem Piece.ne_starting_ending (h : Piece ascii m) :
    (∀ front, m ≠ .starting front) ∧ ∀ back, m ≠ .ending back := by
  cases h with
  | run _ hasAny n => simp [run_eq]
  | _ => simp

/-- Stars and runs are found at the front of a text, all other pieces at their first place. -/
theorem Piece.locates_or_anchored (h : Piece ascii m) (ht : Within ascii t) :
    Locates t (behaviour m) m.Fits ∨
      m.length? = none ∧ Anchored t m ∧ (m.isStar = true ∨ ascii = true) := by
  cases h with
  | text hx =>
    rename_i x
    have hfits : (Matcher.text x).Fits = (· = x) := funext fun u => propext fits_text_iff
    rw [hfits]
    exact .inl (locates_text hx.1 hx.2 t)
  | single h => exact .inl (locates_single (ht h))
  | any => exact .inr ⟨rfl, anchored_any t, .inl rfl⟩
  | super => exact .inr ⟨rfl, anchored_super t, .inl rfl⟩
  | choice hxs _ => exact .inl (locates_choice hxs t)
  | row h => exact .inl (locates_row h ht)
  | run h hasAny n => exact .inr ⟨length?_run hasAny n, anchored_run (ht h) hasAny n, .inr h⟩

/-- What fits a piece other than a star begins with a character. -/
theorem Piece.begins (h : Piece ascii m) (hstar : m.isStar = false) (hu : Within ascii u)
    (hfits : m.Fits u) : Begins u := by
  cases h with
  | text hx =>
    rw [fits_text_iff.mp hfits]
    exact begins_of_isUtf8 hx.1 hx.2
  | single h =>
    obtain ⟨b, rfl, -⟩ := (fits_single_iff (hu h)).mp hfits
    exact begins_of_isAscii (hu h) (List.cons_ne_nil b [])
  | any => exact absurd hstar (by simp [isStar])
  | super => exact absurd hstar (by simp [isStar])
  | choice hxs _ =>
    have hx := hxs u (fits_choice_iff.mp hfits)
    exact begins_of_isUtf8 hx.1 hx.2
  | row h => exact (locates_row h hu).begins (List.infix_refl u) hfits
  | run h hasAny n =>
    have hle := ((fits_run_iff (hu h)).mp hfits).2.1
    exact begins_of_isAscii (hu h) (List.ne_nil_of_length_pos (by omega))

/-- A piece that matches is long enough; only a question mark also matches the empty text. -/
theorem Piece.fits_of_accepts (h : Piece ascii m) (hu : u ≠ []) (haccepts : m.accepts u = true) :
    m.Fits u := by
  have hopen : m.length? = none → m.Fits u := fun hnone => (fits_iff_accepts hnone).mpr haccepts
  cases h with
  | text _ =>
    have heq : (u == _) = true := haccepts
    exact fits_text_iff.mpr (beq_iff_eq.mp heq)
  | single _ =>
    refine fits_iff.mpr ⟨haccepts, fun n hn => ?_⟩
    rw [← Option.some.inj hn]
    exact List.length_pos_iff.mpr hu
  | any => exact hopen rfl
  | super => exact hopen rfl
  | choice _ _ => exact fits_choice_iff.mpr (accepts_choice_iff.mp haccepts)
  | row _ =>
    refine fits_iff.mpr ⟨haccepts, fun n hn => ?_⟩
    have hrow : (u.runes.length == _ && Behaviour.rowAccepts _ u) = true := haccepts
    rw [← Option.some.inj hn, ← beq_iff_eq.mp ((Bool.and_eq_true _ _).mp hrow).1]
    exact length_runes_le u
  | run _ hasAny n => exact hopen (length?_run hasAny n)

/-! ## Pieces of a fixed length -/

theorem runes_ne_nil (hx : x ≠ []) : x.runes ≠ [] := fun hnil => hx <| by
  rw [← Text.ofRunes_runes x, hnil]
  rfl

theorem cuts_text (hx : x ≠ []) (h : ascii = true ∨ x.IsAscii) :
    Cuts ascii (.text x) x.runes.length where
  length?_eq := rfl
  pos := List.length_pos_iff.mpr (runes_ne_nil hx)
  piece := by
    intro u hu hfits
    obtain rfl := fits_text_iff.mp hfits
    have hascii := h.elim hu id
    exact ⟨hascii, hascii.length_runes.symm⟩

theorem cuts_single : Cuts true (.single [Glob.separator]) 1 where
  length?_eq := rfl
  pos := Nat.one_pos
  piece := by
    intro u hu hfits
    obtain ⟨b, rfl, -⟩ := (fits_single_iff (hu rfl)).mp hfits
    exact ⟨hu rfl, rfl⟩

theorem cuts_choice {xs : List Text} {n : Nat} (hxs : ∀ x ∈ xs, x ≠ []) (hne : xs ≠ [])
    (h : ascii = true ∨ ∀ x ∈ xs, x.IsAscii) (hn : (Matcher.anyOf (xs.map .text)).length? = some n) :
    Cuts ascii (.anyOf (xs.map .text)) n where
  length?_eq := hn
  pos := by
    obtain ⟨x, hx⟩ := List.exists_mem_of_ne_nil xs hne
    rw [← length_of_length?_choice hn x hx]
    exact List.length_pos_iff.mpr (runes_ne_nil (hxs x hx))
  piece := by
    intro u hu hfits
    have hmem := fits_choice_iff.mp hfits
    have hascii : u.IsAscii := h.elim hu fun hall => hall u hmem
    exact ⟨hascii, by rw [← length_of_length?_choice hn u hmem, hascii.length_runes]⟩

end Piece

end Matcher

end ReflectGen

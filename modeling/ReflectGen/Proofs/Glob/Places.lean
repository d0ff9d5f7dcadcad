import Mathlib.Data.List.Pairwise
import ReflectGen.Proofs.Glob.Pivot

/-!
# Places in a text

A place in a text is a number of bytes, and a matcher tries the places where characters start.  None
is missed of those at which something can begin.  In an ASCII text they are all numbers up to the
length of the text.

* `Text.IsAscii`, `Matcher.Within`: ASCII texts, and texts that are ASCII if that is asked for.
* `Matcher.mem_positions`, `Matcher.mem_boundaries`: places where a character starts, or the text
  ends.
* `Matcher.Finds.earlier`: the first place of one of two kinds of pieces.
* `Matcher.Cuts`, `Matcher.rowAccepts_cons_iff`: a piece of a fixed length in front of a row.
* `Matcher.finds_row`: the first place of a row.
-/

namespace ReflectGen

namespace Text

/-- The text has ASCII bytes only. -/
def IsAscii (t : Text) : Prop := ∀ b ∈ t, b < 0x80

instance (t : Text) : Decidable t.IsAscii := inferInstanceAs (Decidable (∀ b ∈ t, b < 0x80))

theorem IsAscii.of_isInfix {s t : Text} (h : t.IsAscii) (hs : s <:+: t) : s.IsAscii :=
  fun b hb => h b (hs.subset hb)

theorem runes_cons_ascii {b : UInt8} (hb : b < 0x80) (t : Text) :
    runes (b :: t) = .char (Char.ofNat b.toNat) :: runes t := runes_append_ascii hb [] t

/-- An ASCII text in front of another one is read byte by byte. -/
theorem IsAscii.runes_append {s : Text} (h : s.IsAscii) (t : Text) :
    runes (s ++ t) = s.map (fun b => .char (Char.ofNat b.toNat)) ++ runes t := by
  induction s with
  | nil => rfl
  | cons b s ih =>
    rw [IsAscii, List.forall_mem_cons] at h
    rw [List.cons_append, runes_cons_ascii h.1, ih h.2]
    rfl

theorem IsAscii.runes_eq {t : Text} (h : t.IsAscii) :
    t.runes = t.map fun b => .char (Char.ofNat b.toNat) := by
  have happend := h.runes_append []
  rwa [List.append_nil, runes_nil, List.append_nil] at happend

theorem IsAscii.length_runes {t : Text} (h : t.IsAscii) : t.runes.length = t.length := by
  rw [h.runes_eq, List.length_map]

end Text

namespace Matcher

/-- The text is ASCII, if that is asked for. -/
def Within (ascii : Bool) (t : Text) : Prop := ascii = true → t.IsAscii

theorem Within.of_isInfix {ascii : Bool} {s t : Text} (h : Within ascii t) (hs : s <:+: t) :
    Within ascii s := fun hascii => (h hascii).of_isInfix hs

theorem Within.left {ascii : Bool} {s t : Text} (h : Within ascii (s ++ t)) : Within ascii s :=
  h.of_isInfix (List.prefix_append s t).isInfix

theorem Within.right {ascii : Bool} {s t : Text} (h : Within ascii (s ++ t)) : Within ascii t :=
  h.of_isInfix (List.suffix_append s t).isInfix

/-- An ASCII text that is not empty begins with a character. -/
theorem begins_of_isAscii {u : Text} (h : u.IsAscii) (hne : u ≠ []) : Begins u := by
  cases u with
  | nil => exact absurd rfl hne
  | cons b u => exact ⟨b, u, rfl, Text.isContinuation_of_ascii (h b List.mem_cons_self)⟩

/-- In front of something that begins with a character a text can be cut. -/
theorem runes_append_of_begins {u rest : Text} (h : rest = [] ∨ Begins rest) :
    (u ++ rest).runes = u.runes ++ rest.runes := by
  rcases h with rfl | ⟨b, t, rfl, hb⟩
  · rw [List.append_nil, Text.runes_nil, List.append_nil]
  · exact Text.runes_append hb u t

/-! ## Places where characters start -/

/-- The positions of the runes of a text. -/
def positions (t : Text) : List Nat := (starts t).map Prod.fst

theorem startsFrom_append (rs rs' : List Rune) : ∀ n : Nat,
    startsFrom n (rs ++ rs') = startsFrom n rs ++ startsFrom (n + (Text.ofRunes rs).length) rs' := by
  induction rs with
  | nil => exact fun _ => rfl
  | cons r rs ih =>
    intro n
    rw [List.cons_append, startsFrom, startsFrom, ih, Text.ofRunes_cons, List.length_append,
      Nat.add_assoc]
    rfl

theorem bytes_ne_nil (r : Rune) : r.bytes ≠ [] := by
  cases r with
  | char c => exact String.utf8EncodeChar_ne_nil
  | stray b => exact List.cons_ne_nil b []

/-- Positions come in order, and no rune starts behind the end. -/
theorem pairwise_startsFrom (rs : List Rune) : ∀ n : Nat,
    ((startsFrom n rs).map Prod.fst).Pairwise (· < ·) ∧
      ∀ i ∈ (startsFrom n rs).map Prod.fst, n ≤ i ∧ i < n + (Text.ofRunes rs).length := by
  induction rs with
  | nil => exact fun n => ⟨List.Pairwise.nil, fun i hi => absurd hi List.not_mem_nil⟩
  | cons r rs ih =>
    intro n
    obtain ⟨hpairwise, hbounds⟩ := ih (n + r.bytes.length)
    have hpos := List.length_pos_iff.mpr (bytes_ne_nil r)
    rw [startsFrom, List.map_cons, List.pairwise_cons, Text.ofRunes_cons, List.length_append]
    refine ⟨⟨fun i hi => ?_, hpairwise⟩, fun i hi => ?_⟩
    · have hle := (hbounds i hi).1
      dsimp only
      omega
    · rcases List.mem_cons.mp hi with rfl | hi
      · omega
      · obtain ⟨hle, hlt⟩ := hbounds i hi
        omega

theorem pairwise_positions (t : Text) : (positions t).Pairwise (· < ·) :=
  (pairwise_startsFrom t.runes 0).1

theorem lt_length_of_mem_positions {t : Text} {i : Nat} (h : i ∈ positions t) : i < t.length := by
  have hlt := ((pairwise_startsFrom t.runes 0).2 i h).2
  rwa [Text.ofRunes_runes, Nat.zero_add] at hlt

theorem starts_append {u rest : Text} (h : rest = [] ∨ Begins rest) :
    starts (u ++ rest) = starts u ++ startsFrom u.length rest.runes := by
  rw [starts, runes_append_of_begins h, startsFrom_append, Text.ofRunes_runes, Nat.zero_add]
  rfl

/-- A character starts where something begins. -/
theorem mem_positions {u rest : Text} (h : Begins rest) : u.length ∈ positions (u ++ rest) := by
  rw [positions, starts_append (.inr h), List.map_append]
  obtain ⟨b, t, rfl, -⟩ := h
  rw [Text.runes_cons, startsFrom]
  exact List.mem_append_right _ List.mem_cons_self

theorem mem_boundaries {u rest : Text} (h : rest = [] ∨ Begins rest) :
    u.length ∈ boundaries (u ++ rest) := by
  rw [boundaries, List.mem_append]
  rcases h with rfl | h
  · exact .inr (by rw [List.append_nil]; exact List.mem_singleton_self _)
  · exact .inl (mem_positions h)

theorem le_length_of_mem_boundaries {t : Text} {i : Nat} (h : i ∈ boundaries t) :
    i ≤ t.length := by
  rcases List.mem_append.mp h with h | h
  · exact (lt_length_of_mem_positions h).le
  · exact (List.mem_singleton.mp h).le

/-- Up to something that begins with a character the boundaries are those of the text in front of
it. -/
theorem mem_boundaries_left_iff {a rest : Text} {n : Nat} (h : Begins rest) (hn : n ≤ a.length) :
    n ∈ boundaries (a ++ rest) ↔ n ∈ boundaries a := by
  constructor
  · intro hmem
    rw [boundaries, starts_append (.inr h), List.map_append, List.append_assoc,
      List.mem_append] at hmem
    rcases hmem with hmem | hmem
    · exact List.mem_append_left _ hmem
    · have hle : a.length ≤ n := by
        rcases List.mem_append.mp hmem with hmem | hmem
        · exact ((pairwise_startsFrom rest.runes a.length).2 n hmem).1
        · rw [List.mem_singleton.mp hmem, List.length_append]
          omega
      exact List.mem_append_right _ (List.mem_singleton.mpr (Nat.le_antisymm hn hle))
  · intro hmem
    rcases List.mem_append.mp hmem with hmem | hmem
    · rw [boundaries, starts_append (.inr h), List.map_append, List.append_assoc]
      exact List.mem_append_left _ hmem
    · rw [List.mem_singleton.mp hmem]
      exact mem_boundaries (.inr h)

/-- In an ASCII text a character starts at every byte. -/
theorem startsFrom_of_isAscii {s : Text} (h : s.IsAscii) : ∀ n : Nat,
    startsFrom n (s.map fun b => .char (Char.ofNat b.toNat)) =
      (s.zipIdx n).map fun p => (p.2, .char (Char.ofNat p.1.toNat)) := by
  induction s with
  | nil => exact fun _ => rfl
  | cons b s ih =>
    intro n
    rw [Text.IsAscii, List.forall_mem_cons] at h
    rw [List.map_cons, startsFrom, Text.bytes_lead_ascii h.1, ih h.2]
    rfl

theorem map_fst_startsFrom_of_isAscii {s : Text} (h : s.IsAscii) (n : Nat) :
    (startsFrom n (s.map fun b => .char (Char.ofNat b.toNat))).map Prod.fst =
      List.range' n s.length := by
  rw [startsFrom_of_isAscii h, List.map_map, ← List.zipIdx_map_snd]
  rfl

theorem positions_append_of_isAscii {u : Text} (h : u.IsAscii) (rest : Text) :
    ∃ others, positions (u ++ rest) = List.range u.length ++ others := by
  refine ⟨(startsFrom u.length rest.runes).map Prod.fst, ?_⟩
  rw [positions, starts, h.runes_append rest, startsFrom_append, List.map_append,
    map_fst_startsFrom_of_isAscii h, ← h.runes_eq, Text.ofRunes_runes, Nat.zero_add,
    List.range_eq_range']

theorem mem_boundaries_iff_of_isAscii {s : Text} (h : s.IsAscii) {n : Nat} :
    n ∈ boundaries s ↔ n ≤ s.length := by
  rw [boundaries, starts, h.runes_eq, map_fst_startsFrom_of_isAscii h, List.mem_append,
    List.mem_range'_1, List.mem_singleton]
  omega

/-- In an ASCII text a character ends behind every byte. -/
theorem ends_of_isAscii {s : Text} (h : s.IsAscii) : ends 0 s = List.range' 1 s.length := by
  have hrange : List.range' 1 s.length = (List.range' 0 s.length).map (1 + ·) :=
    (List.map_add_range' 0 s.length 1).symm
  rw [hrange, ← List.zipIdx_map_snd 0 s, List.map_map, ends, starts, h.runes_eq,
    startsFrom_of_isAscii h, List.map_map]
  refine List.map_congr_left fun p hp => ?_
  have hb : p.1 < 0x80 := h _ (List.fst_mem_of_mem_zipIdx hp)
  have hrune : runeLength (.char (Char.ofNat p.1.toNat)) = 1 :=
    congrArg List.length (Text.bytes_lead_ascii hb)
  show 0 + p.2 + runeLength _ = 1 + p.2
  rw [hrune, Nat.zero_add, Nat.add_comm]

/-! ## The first place of one of two kinds of pieces -/

theorem mem_merge_iff {n : Nat} (xs ys : List Nat) :
    n ∈ Behaviour.merge xs ys ↔ n ∈ xs ∨ n ∈ ys := by
  fun_induction Behaviour.merge xs ys with
  | case1 ys => simp
  | case2 xs _ => simp
  | case3 x xs y ys heq ih =>
    obtain rfl := beq_iff_eq.mp heq
    rw [List.mem_cons, ih, List.mem_cons, List.mem_cons]
    tauto
  | case4 x xs y ys _ _ ih =>
    rw [List.mem_cons, ih, List.mem_cons, List.mem_cons]
    tauto
  | case5 x xs y ys _ _ ih =>
    rw [List.mem_cons, ih, List.mem_cons, List.mem_cons]
    tauto

/-- The earlier one of two places is the first one for both kinds of pieces. -/
theorem Finds.earlier {s : Text} {P Q : Text → Prop} {a b : Option (Nat × List Nat)}
    (ha : Finds s P a) (hb : Finds s Q b) :
    Finds s (fun u => P u ∨ Q u) (Behaviour.earlier a b) := by
  match a, b with
  | none, none => exact fun j u hu => not_or.mpr ⟨ha j u hu, hb j u hu⟩
  | none, some (j, ys) =>
    obtain ⟨hlengths, hwithin, hfirst⟩ := hb
    exact ⟨fun u hu => (or_iff_right (ha _ u hu)).trans (hlengths u hu), hwithin,
      fun k hk u hu => not_or.mpr ⟨ha k u hu, hfirst k hk u hu⟩⟩
  | some (i, xs), none =>
    obtain ⟨hlengths, hwithin, hfirst⟩ := ha
    exact ⟨fun u hu => (or_iff_left (hb _ u hu)).trans (hlengths u hu), hwithin,
      fun k hk u hu => not_or.mpr ⟨hfirst k hk u hu, hb k u hu⟩⟩
  | some (i, xs), some (j, ys) =>
    obtain ⟨hlengthsa, hwithina, hfirsta⟩ := ha
    obtain ⟨hlengthsb, hwithinb, hfirstb⟩ := hb
    rcases Nat.lt_trichotomy j i with hlt | rfl | hgt
    · have heq : Behaviour.earlier (some (i, xs)) (some (j, ys)) = some (j, ys) := if_pos hlt
      rw [heq]
      exact ⟨fun u hu => (or_iff_right (hfirsta j hlt u hu)).trans (hlengthsb u hu), hwithinb,
        fun k hk u hu => not_or.mpr ⟨hfirsta k (hk.trans hlt) u hu, hfirstb k hk u hu⟩⟩
    · have heq : Behaviour.earlier (some (j, xs)) (some (j, ys)) =
          some (j, Behaviour.merge xs ys) := by
        rw [Behaviour.earlier, if_neg (Nat.lt_irrefl j), if_neg (Nat.lt_irrefl j)]
      rw [heq]
      refine ⟨fun u hu => ?_, fun n hn => ?_, fun k hk u hu => ?_⟩
      · exact (or_congr (hlengthsa u hu) (hlengthsb u hu)).trans (mem_merge_iff xs ys).symm
      · exact ((mem_merge_iff xs ys).mp hn).elim (hwithina n) (hwithinb n)
      · exact not_or.mpr ⟨hfirsta k hk u hu, hfirstb k hk u hu⟩
    · have heq : Behaviour.earlier (some (i, xs)) (some (j, ys)) = some (i, xs) := by
        rw [Behaviour.earlier, if_neg (Nat.lt_asymm hgt), if_pos hgt]
      rw [heq]
      exact ⟨fun u hu => (or_iff_left (hfirstb i hgt u hu)).trans (hlengthsa u hu), hwithina,
        fun k hk u hu => not_or.mpr ⟨hfirsta k hk u hu, hfirstb k (hk.trans hgt) u hu⟩⟩

/-! ## Rows -/

mutual

/-- The length that a matcher tells and the one that it goes by are the same. -/
theorem length?_behaviour : ∀ m : Matcher, (behaviour m).length? = m.length?
  | .nothing => rfl
  | .text _ => rfl
  | .single _ => rfl
  | .list _ _ => rfl
  | .range _ _ _ => rfl
  | .any _ => rfl
  | .super => rfl
  | .least _ => rfl
  | .most _ => rfl
  | .contains _ _ => rfl
  | .starting _ => rfl
  | .ending _ => rfl
  | .startingEnding _ _ => rfl
  | .startingAny _ _ => rfl
  | .endingAny _ _ => rfl
  | .anyOf _ => rfl
  | .everyOf _ => rfl
  | .row _ _ => rfl
  | .pivot v left right => by
    show sum? _ (sum? _ _) = _
    rw [length?_behaviour v, partLength?_partBehaviour left, partLength?_partBehaviour right,
      length?]

theorem partLength?_partBehaviour :
    ∀ m : Option Matcher, Behaviour.partLength? (partBehaviour m) = partLength? m
  | none => rfl
  | some m => length?_behaviour m

end

/-- A matcher fits a piece. -/
def Fits (m : Matcher) (u : Text) : Prop := m.behaviour.Fits u

/-- Matchers fit a text, one behind the other. -/
def FitsAll : List Matcher → Text → Prop
  | [], t => t = []
  | m :: ms, t => ∃ u rest, t = u ++ rest ∧ m.Fits u ∧ FitsAll ms rest

theorem fits_iff {m : Matcher} {u : Text} :
    m.Fits u ↔ m.accepts u = true ∧ ∀ n ∈ m.length?, n ≤ u.length := by
  rw [← length?_behaviour]
  rfl

theorem fits_iff_accepts {m : Matcher} {u : Text} (h : m.length? = none) :
    m.Fits u ↔ m.accepts u = true := by
  rw [fits_iff, h]
  exact and_iff_left fun n hn => absurd hn (Option.not_mem_none n)

theorem fitsAll_append_iff {ms ns : List Matcher} {t : Text} :
    FitsAll (ms ++ ns) t ↔ ∃ a b, t = a ++ b ∧ FitsAll ms a ∧ FitsAll ns b := by
  induction ms generalizing t with
  | nil =>
    constructor
    · exact fun h => ⟨[], t, rfl, rfl, h⟩
    · rintro ⟨a, b, rfl, rfl, h⟩
      exact h
  | cons m ms ih =>
    rw [List.cons_append]
    constructor
    · rintro ⟨u, rest, rfl, hu, hrest⟩
      obtain ⟨a, b, rfl, ha, hb⟩ := ih.mp hrest
      exact ⟨u ++ a, b, by rw [List.append_assoc], ⟨u, a, rfl, hu, ha⟩, hb⟩
    · rintro ⟨_, b, rfl, ⟨u, a, rfl, hu, ha⟩, hb⟩
      exact ⟨u, a ++ b, by rw [List.append_assoc], hu, ih.mpr ⟨a, b, rfl, ha, hb⟩⟩

theorem fitsAll_singleton_iff {m : Matcher} {t : Text} : FitsAll [m] t ↔ m.Fits t := by
  constructor
  · rintro ⟨u, rest, rfl, hu, rfl⟩
    rwa [List.append_nil]
  · exact fun h => ⟨t, [], by rw [List.append_nil], h, rfl⟩

/-- A matcher fits ASCII pieces of one length only, so that characters and bytes of a piece are the
same. -/
structure Cuts (ascii : Bool) (m : Matcher) (n : Nat) : Prop where
  length?_eq : m.length? = some n
  pos : 0 < n
  piece : ∀ {u : Text}, Within ascii u → m.Fits u → u.IsAscii ∧ u.length = n

/-- There are at least as many bytes as positions in front of a position and at it. -/
theorem length_take_startsFrom_le (rs : List Rune) : ∀ (n k last : Nat),
    (((startsFrom k rs).map Prod.fst).take n).getLast? = some last →
      k + (((startsFrom k rs).map Prod.fst).take n).length ≤ last + 1 := by
  induction rs with
  | nil =>
    intro n k last h
    rw [startsFrom, List.map_nil, List.take_nil] at h
    exact absurd h (by simp)
  | cons r rs ih =>
    intro n k last h
    have hpos := List.length_pos_iff.mpr (bytes_ne_nil r)
    cases n with
    | zero => exact absurd h (by simp)
    | succ n =>
      rw [startsFrom, List.map_cons, List.take_succ_cons] at h ⊢
      rw [List.getLast?_cons] at h
      rw [List.length_cons]
      cases hrest : (((startsFrom (k + r.bytes.length) rs).map Prod.fst).take n).getLast? with
      | none =>
        rw [hrest] at h
        rw [List.getLast?_eq_none_iff.mp hrest]
        have hlast : k = last := Option.some.inj h
        rw [List.length_nil]
        omega
      | some last' =>
        rw [hrest] at h
        have hlast : last' = last := Option.some.inj h
        have hle := ih n _ last' hrest
        omega

/-- A row goes on behind a piece of the length of its first matcher. -/
theorem rowAccepts_cons_iff {ascii : Bool} {m : Matcher} {n : Nat} {bs : List Behaviour}
    (h : Cuts ascii m n) {t : Text} (ht : Within ascii t) :
    Behaviour.rowAccepts (m.behaviour :: bs) t = true ↔
      ∃ u rest, t = u ++ rest ∧ m.Fits u ∧ Behaviour.rowAccepts bs rest = true := by
  have hcount : (m.behaviour.length?).getD 0 = n := by
    rw [length?_behaviour, h.length?_eq]
    rfl
  have hn : ¬ (n == 0) = true := by
    have hpos := h.pos
    rw [beq_iff_eq]
    omega
  rw [Behaviour.rowAccepts, hcount, if_neg hn]
  constructor
  · intro hrow
    split at hrow
    · exact absurd hrow (by simp)
    · next last hlast =>
      rw [Bool.and_eq_true, Bool.and_eq_true, decide_eq_true_eq] at hrow
      obtain ⟨⟨hle, haccepts⟩, hrest⟩ := hrow
      have hlength := length_take_startsFrom_le t.runes n 0 last hlast
      have hlt := lt_length_of_mem_positions
        (List.mem_of_mem_take (List.mem_of_mem_getLast? hlast))
      refine ⟨_, _, (List.take_append_drop (last + 1) t).symm, fits_iff.mpr ⟨haccepts, ?_⟩, hrest⟩
      intro k hk
      rw [h.length?_eq, Option.mem_some_iff] at hk
      rw [List.length_take]
      have hle' : n ≤ (((startsFrom 0 t.runes).map Prod.fst).take n).length := hle
      omega
  · rintro ⟨u, rest, rfl, hu, hrest⟩
    obtain ⟨hascii, hlength⟩ := h.piece ht.left hu
    obtain ⟨others, hpositions⟩ := positions_append_of_isAscii hascii rest
    have htake : (positions (u ++ rest)).take n = List.range n := by
      rw [hpositions, hlength, List.take_left' (List.length_range)]
    have hlast : (List.range n).getLast? = some (n - 1) := by
      rw [List.getLast?_range, if_neg (by simpa using hn)]
    have hsub : n - 1 + 1 = u.length := by
      rw [hlength, Nat.sub_add_cancel h.pos]
    rw [show (starts (u ++ rest)).map (·.1) = positions (u ++ rest) from rfl, htake, hlast]
    dsimp only
    have haccepts : m.behaviour.accepts u = true := hu.1
    rw [hsub, List.take_left, List.drop_left, List.length_range, hrest, haccepts]
    simp

section Row

variable {ascii : Bool} {ms : List Matcher} {n : Nat} {t : Text}

/-- All matchers of a row have a fixed length, and `n` is the length of the row. -/
structure CutsAll (ascii : Bool) (ms : List Matcher) (n : Nat) : Prop where
  pos : 0 < n
  cuts : ∀ m ∈ ms, ∃ k, Cuts ascii m k
  length_eq : ∀ {t : Text}, Within ascii t → FitsAll ms t → t.length = n

theorem isAscii_of_fitsAll (h : ∀ m ∈ ms, ∃ k, Cuts ascii m k) :
    ∀ {t : Text}, Within ascii t → FitsAll ms t → t.IsAscii := by
  induction ms with
  | nil =>
    rintro t - rfl
    exact fun b hb => absurd hb List.not_mem_nil
  | cons m ms ih =>
    rw [List.forall_mem_cons] at h
    rintro _ ht ⟨u, rest, rfl, hu, hrest⟩
    obtain ⟨k, hk⟩ := h.1
    exact List.forall_mem_append.mpr ⟨(hk.piece ht.left hu).1, ih h.2 ht.right hrest⟩

/-- A row matches in front of a text if its matchers fit a piece of it. -/
theorem rowAccepts_iff (h : ∀ m ∈ ms, ∃ k, Cuts ascii m k) :
    ∀ {t : Text}, Within ascii t →
      (Behaviour.rowAccepts (behaviours ms) t = true ↔ ∃ u, u <+: t ∧ FitsAll ms u) := by
  induction ms with
  | nil =>
    intro t _
    exact iff_of_true rfl ⟨[], List.nil_prefix, rfl⟩
  | cons m ms ih =>
    intro t ht
    rw [List.forall_mem_cons] at h
    obtain ⟨k, hk⟩ := h.1
    rw [behaviours, rowAccepts_cons_iff hk ht]
    constructor
    · rintro ⟨u, rest, rfl, hu, hrest⟩
      obtain ⟨w, hw, hfits⟩ := (ih h.2 ht.right).mp hrest
      exact ⟨u ++ w, List.prefix_append_right_inj u |>.mpr hw, u, w, rfl, hu, hfits⟩
    · rintro ⟨_, ⟨b, rfl⟩, u, w, rfl, hu, hw⟩
      rw [List.append_assoc] at ht ⊢
      exact ⟨u, w ++ b, rfl, hu, (ih h.2 ht.right).mpr ⟨w, List.prefix_append w b, hw⟩⟩

/-- A row fits what its matchers fit. -/
theorem fits_row_iff (h : CutsAll ascii ms n) (ht : Within ascii t) :
    (Matcher.row n ms).Fits t ↔ FitsAll ms t := by
  have haccepts : (Matcher.row n ms).accepts t = true ↔
      t.runes.length = n ∧ ∃ u, u <+: t ∧ FitsAll ms u := by
    show (t.runes.length == n && Behaviour.rowAccepts (behaviours ms) t) = true ↔ _
    rw [Bool.and_eq_true, beq_iff_eq, rowAccepts_iff h.cuts ht]
  rw [fits_iff, haccepts]
  constructor
  · rintro ⟨⟨hcount, u, ⟨rest, rfl⟩, hu⟩, -⟩
    -- Behind the piece that fits there is no character left.
    have hascii := isAscii_of_fitsAll h.cuts ht.left hu
    have hlength := h.length_eq ht.left hu
    rw [hascii.runes_append, List.length_append, List.length_map, hlength,
      Nat.add_eq_left, List.length_eq_zero_iff] at hcount
    have hrest : rest = [] := by rw [← Text.ofRunes_runes rest, hcount]; rfl
    rwa [hrest, List.append_nil]
  · intro hfits
    have hlength := h.length_eq ht hfits
    refine ⟨⟨?_, t, List.prefix_refl t, hfits⟩, ?_⟩
    · rw [(isAscii_of_fitsAll h.cuts ht hfits).length_runes, hlength]
    · intro k hk
      rw [hlength]
      exact (Option.some.inj hk).ge

theorem cuts_row (h : CutsAll ascii ms n) : Cuts ascii (.row n ms) n where
  length?_eq := rfl
  pos := h.pos
  piece := fun hu hfits =>
    have hall := (fits_row_iff h hu).mp hfits
    ⟨isAscii_of_fitsAll h.cuts hu hall, h.length_eq hu hall⟩

/-- The first of some places, in order, where a row matches. -/
theorem locateRow_cases {bs : List Behaviour} {places : List Nat}
    (hplaces : places.Pairwise (· < ·)) :
    (∃ i ∈ places, Behaviour.locateRow n bs t places = some (i, [n]) ∧ n ≤ (t.drop i).length ∧
        Behaviour.rowAccepts bs (t.drop i) = true ∧
        ∀ j ∈ places, j < i → ¬ Behaviour.rowAccepts bs (t.drop j) = true) ∨
      Behaviour.locateRow n bs t places = none ∧
        ∀ j ∈ places, Behaviour.rowAccepts bs (t.drop j) = true → (t.drop j).length < n := by
  induction places with
  | nil => exact .inr ⟨rfl, fun j hj => absurd hj List.not_mem_nil⟩
  | cons i places ih =>
    rw [List.pairwise_cons] at hplaces
    rw [Behaviour.locateRow]
    by_cases hshort : (t.drop i).length < n
    · refine .inr ⟨if_pos hshort, fun j hj _ => ?_⟩
      rcases List.mem_cons.mp hj with rfl | hj
      · exact hshort
      · have hlt := hplaces.1 j hj
        rw [List.length_drop] at hshort ⊢
        omega
    · rw [if_neg hshort]
      by_cases hrow : Behaviour.rowAccepts bs (t.drop i) = true
      · rw [if_pos hrow]
        refine .inl ⟨i, List.mem_cons_self, rfl, Nat.le_of_not_lt hshort, hrow, fun j hj hji => ?_⟩
        rcases List.mem_cons.mp hj with rfl | hj
        · exact absurd hji (Nat.lt_irrefl j)
        · exact absurd (hplaces.1 j hj) (Nat.lt_asymm hji)
      · rw [if_neg hrow]
        rcases ih hplaces.2 with ⟨k, hk, hlocate, hle, haccepts, hfirst⟩ | ⟨hlocate, hnone⟩
        · refine .inl ⟨k, List.mem_cons_of_mem i hk, hlocate, hle, haccepts, fun j hj hjk => ?_⟩
          rcases List.mem_cons.mp hj with rfl | hj
          · exact hrow
          · exact hfirst j hj hjk
        · refine .inr ⟨hlocate, fun j hj hj' => ?_⟩
          rcases List.mem_cons.mp hj with rfl | hj
          · exact absurd hj' hrow
          · exact hnone j hj hj'

/-- What a row fits begins with a character. -/
theorem CutsAll.begins (h : CutsAll ascii ms n) (ht : Within ascii t) (hfits : FitsAll ms t) :
    Begins t := by
  refine begins_of_isAscii (isAscii_of_fitsAll h.cuts ht hfits) ?_
  rintro rfl
  exact absurd (h.length_eq ht hfits) h.pos.ne

/-- A piece that a row fits is one that the row matches in front of the rest, at a place that is
tried. -/
theorem CutsAll.place (h : CutsAll ascii ms n) (ht : Within ascii t) {i : Nat} {u : Text}
    (hu : u <+: t.drop i) (hfits : FitsAll ms u) :
    i ∈ positions t ∧ n ≤ (t.drop i).length ∧
      Behaviour.rowAccepts (behaviours ms) (t.drop i) = true := by
  have hrest : Within ascii (t.drop i) := ht.of_isInfix (List.drop_suffix i t).isInfix
  have hu' : Within ascii u := hrest.of_isInfix hu.isInfix
  have hlength := h.length_eq hu' hfits
  have hle := hu.length_le
  have hpos := h.pos
  refine ⟨?_, by omega, (rowAccepts_iff h.cuts hrest).mpr ⟨u, hu, hfits⟩⟩
  obtain ⟨rest, hcut⟩ := hu
  rw [List.length_drop] at hle
  have hi : (t.take i).length = i := by
    rw [List.length_take]
    omega
  have hmem := mem_positions (u := t.take i) ((h.begins hu' hfits).append rest)
  rwa [hcut, List.take_append_drop, hi] at hmem

/-- Where a row matches, it fits the pieces of one length. -/
theorem CutsAll.fitsAll_iff_length_eq (h : CutsAll ascii ms n) (ht : Within ascii t)
    (hmatch : Behaviour.rowAccepts (behaviours ms) t = true) {u : Text} (hu : u <+: t) :
    FitsAll ms u ↔ u.length = n := by
  refine ⟨h.length_eq (ht.of_isInfix hu.isInfix), fun hlength => ?_⟩
  obtain ⟨w, hw, hfits⟩ := (rowAccepts_iff h.cuts ht).mp hmatch
  have hequal : u.length = w.length :=
    hlength.trans (h.length_eq (ht.of_isInfix hw.isInfix) hfits).symm
  rwa [(List.prefix_of_prefix_length_le hu hw hequal.le).eq_of_length hequal]

/-- A row stands where it is found. -/
theorem locates_row (h : CutsAll ascii ms n) (ht : Within ascii t) :
    Locates t (behaviour (.row n ms)) (Matcher.row n ms).Fits := by
  refine ⟨fun {s} hs => ?_, fun hu hrow => ?_⟩
  · have hwithin := ht.of_isInfix hs
    have hdrop : ∀ j, Within ascii (s.drop j) := fun j =>
      hwithin.of_isInfix (List.drop_suffix j s).isInfix
    have hfits : ∀ {j u}, u <+: s.drop j → ((Matcher.row n ms).Fits u ↔ FitsAll ms u) :=
      fun {j u} hu => fits_row_iff h ((hdrop j).of_isInfix hu.isInfix)
    show Finds s (Matcher.row n ms).Fits (Behaviour.locateRow n (behaviours ms) s (positions s))
    rcases locateRow_cases (pairwise_positions s) with
      ⟨i, -, hlocate, hle, hmatch, hfirst⟩ | ⟨hlocate, hnone⟩
    · rw [hlocate]
      refine ⟨fun u hu => ?_, fun k hk => ?_, fun j hj u hu hrow => ?_⟩
      · rw [List.mem_singleton, hfits hu, h.fitsAll_iff_length_eq (hdrop i) hmatch hu]
      · rw [List.mem_singleton.mp hk]
        have hpos := h.pos
        rw [List.length_drop] at hle
        omega
      · obtain ⟨hmem, -, hmatch⟩ := h.place hwithin hu ((hfits hu).mp hrow)
        exact hfirst j hmem hj hmatch
    · rw [hlocate]
      intro j u hu hrow
      obtain ⟨hmem, hle, hmatch⟩ := h.place hwithin hu ((hfits hu).mp hrow)
      exact absurd (hnone j hmem hmatch) (Nat.not_lt.mpr hle)
  · have hwithin := ht.of_isInfix hu
    exact h.begins hwithin ((fits_row_iff h hwithin).mp hrow)

end Row

end Matcher

end ReflectGen

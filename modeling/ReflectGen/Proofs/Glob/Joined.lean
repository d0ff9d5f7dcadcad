import ReflectGen.Proofs.Glob.Compiled
import ReflectGen.Proofs.Glob.Glued

/-!
# Joining pieces

What is left when nothing more can be glued is joined around a pivot: around the longest of the
pieces that have a fixed length, or around the first one if none has.  What stands at the sides of
the pivot is joined in the same way.  This does not change which texts the pieces fit, one behind the
other.

* `Matcher.accepts_pivot_front_iff`: a pivot with nothing in front of it.
* `Matcher.Joins`: what pieces are joined to.
* `Matcher.joins_aroundText`, `Matcher.joins_pivot`, `Matcher.joins_front`: the kinds of pivots.
* `Matcher.joins_join`: joining, by induction on the number of pieces.
-/

namespace ReflectGen

namespace Matcher

variable {ascii : Bool} {m k : Matcher} {ms : List Matcher} {t : Text}

/-! ## Pivots -/

variable {x : Text} {left right : Option Matcher}

theorem le_length_of_accepts_pivot {v : Behaviour} {l r : Option Behaviour}
    (h : (Behaviour.pivot v l r).accepts t = true) :
    ∀ n ∈ (Behaviour.pivot v l r).length?, n ≤ t.length := by
  intro n hn
  have hshort := ((Bool.and_eq_true _ _).mp h).1
  rw [Bool.not_eq_true', Option.any_eq_false] at hshort
  simpa using hshort n hn

theorem le_length_of_accepts_aroundText (h : (aroundText x left right).accepts t = true) :
    ∀ n ∈ (aroundText x left right).length?, n ≤ t.length := by
  unfold aroundText at h ⊢
  split at h
  · have heq : (t == x) = true := h
    exact (fits_iff.mp (fits_text_iff.mpr (beq_iff_eq.mp heq))).2
  case h_9 =>
    rw [← length?_behaviour]
    exact le_length_of_accepts_pivot h
  all_goals exact fun n hn => absurd hn (Option.not_mem_none n)

theorem pivotAccepts_eq_false {v : Behaviour} {r : Option Behaviour} {limit : Nat}
    (hlimit : limit ≤ t.length) : ∀ {fuel offset : Nat}, 0 < offset →
      Behaviour.pivotAccepts v none r t limit fuel offset = false := by
  intro fuel
  induction fuel with
  | zero => exact fun _ => rfl
  | succ fuel ih =>
    intro offset hoffset
    rw [Behaviour.pivotAccepts]
    split
    · rfl
    · split
      · rfl
      · next i lengths _ =>
        have hfront : Behaviour.partAccepts none (t.take (offset + i)) = false := by
          rw [Behaviour.partAccepts, List.isEmpty_eq_false_iff, ne_eq, List.take_eq_nil_iff]
          rintro (hzero | rfl)
          · omega
          · exact absurd hlimit (by rw [List.length_nil]; omega)
        dsimp only
        rw [hfront, ih (by omega)]
        rfl

theorem IsOpen.getD_partLength? (h : IsOpen right) :
    (Behaviour.partLength? (partBehaviour right)).getD 0 = 0 := by
  cases right with
  | none => rfl
  | some m =>
    show ((behaviour m).length?).getD 0 = 0
    rw [h m rfl]
    rfl

/-- With nothing in front of it, a pivot that is found at the front of texts is tried nowhere
else. -/
theorem accepts_pivot_front_iff (hm : m.length? = none) (hright : IsOpen right)
    (hfront : Anchored t m) :
    (Matcher.pivot m none right).accepts t = true ↔
      t ≠ [] ∧ ∃ u b, t = u ++ b ∧ u.length ∈ boundaries t ∧ m.accepts u = true ∧
        Behaviour.FitsPart (partBehaviour right) b := by
  have hlength : (behaviour m).length? = none := (length?_behaviour m).trans hm
  have hat : AtFront _ _ := hfront
  have haccepts : (Matcher.pivot m none right).accepts t =
      Behaviour.pivotAccepts (behaviour m) none (partBehaviour right) t t.length
        (t.length + 1) 0 := by
    rw [accepts, behaviour, Behaviour.pivot]
    dsimp only
    rw [hlength, hright.getD_partLength?]
    rfl
  rw [haccepts, Behaviour.pivotAccepts]
  by_cases ht : t = []
  · rw [if_pos (by rw [ht]; rfl)]
    exact iff_of_false Bool.false_ne_true fun h => h.1 ht
  · rw [if_neg (by rw [Nat.le_zero, List.length_eq_zero_iff]; exact ht), List.take_length,
      List.drop_zero, and_iff_right ht]
    have hpiece : ∀ {u b : Text}, t = u ++ b → t.take u.length = u := by
      rintro u b rfl
      exact List.take_left
    cases hlocate : (behaviour m).locate t with
    | none =>
      rw [hlocate] at hat
      refine iff_of_false Bool.false_ne_true ?_
      rintro ⟨u, b, hcut, hu, hmatch, -⟩
      exact hat u.length ⟨hu, by rwa [hpiece hcut]⟩
    | some found =>
      obtain ⟨i, lengths⟩ := found
      rw [hlocate] at hat
      obtain ⟨rfl, hlengths⟩ := hat
      have hpos := firstLength_pos ht
      dsimp only
      rw [pivotAccepts_eq_false (Nat.le_refl _) (by rw [Nat.zero_add, List.drop_zero]; omega),
        Bool.or_false, Bool.and_eq_true, List.any_reverse, List.any_eq_true]
      constructor
      · rintro ⟨-, n, hn, hr⟩
        obtain ⟨hn, hmatch⟩ := (hlengths n).mp hn
        have hle := le_length_of_mem_boundaries hn
        rw [Nat.zero_add] at hr
        refine ⟨t.take n, t.drop n, (List.take_append_drop n t).symm, ?_, hmatch,
          hright.fitsPart_iff.mpr hr⟩
        rwa [List.length_take, Nat.min_eq_left hle]
      · rintro ⟨u, b, rfl, hu, hmatch, hr⟩
        refine ⟨rfl, u.length, (hlengths _).mpr ⟨hu, by rwa [hpiece rfl]⟩, ?_⟩
        rw [Nat.zero_add, List.drop_left]
        exact hr.1

/-! ## Joining -/

/-- What pieces are joined to; there may be nothing. -/
structure Joins (ascii : Bool) (ms : List Matcher) (m : Option Matcher) : Prop where
  fitsPart_iff : ∀ {t : Text}, Within ascii t →
    (Behaviour.FitsPart (partBehaviour m) t ↔ FitsAll ms t)
  fits_of_accepts : ∀ {t : Text}, t ≠ [] → Behaviour.partAccepts (partBehaviour m) t = true →
    Behaviour.FitsPart (partBehaviour m) t
  isOpen : (∀ k ∈ ms, k.length? = none) → IsOpen m
  ne_starting : ∀ front, m ≠ some (.starting front)
  ne_super : Matcher.super ∉ ms → m ≠ some .super
  ne_ending : Matcher.super ∉ ms → ∀ back, m ≠ some (.ending back)

theorem joins_nil : Joins ascii [] none where
  fitsPart_iff := fun _ => fitsPart_none_iff
  fits_of_accepts := fun _ h => fitsPart_none_iff.mpr (List.isEmpty_iff.mp h)
  isOpen := fun _ m hm => absurd hm (Option.not_mem_none m)
  ne_starting := fun _ => by simp
  ne_super := fun _ => by simp
  ne_ending := fun _ _ => by simp

/-- A piece is joined already. -/
theorem joins_piece (h : Piece ascii m) (hfits : ∀ {t : Text}, Within ascii t →
    (m.Fits t ↔ FitsAll ms t)) (hopen : (∀ k ∈ ms, k.length? = none) → m.length? = none)
    (hsuper : Matcher.super ∉ ms → m ≠ .super) : Joins ascii ms (some m) where
  fitsPart_iff := hfits
  fits_of_accepts := h.fits_of_accepts
  isOpen := by
    rintro hall _ ⟨⟩
    rw [length?_behaviour, hopen hall]
  ne_starting := fun front heq => h.ne_starting_ending.1 front (Option.some.inj heq)
  ne_super := fun hmem heq => hsuper hmem (Option.some.inj heq)
  ne_ending := fun _ back heq => h.ne_starting_ending.2 back (Option.some.inj heq)

/-- A matcher around a pivot matches only texts that are long enough. -/
theorem joins_of_accepts (haccepts : ∀ {t : Text}, Within ascii t →
      (m.accepts t = true ↔ FitsAll ms t))
    (hlength : ∀ {t : Text}, m.accepts t = true → ∀ n ∈ m.length?, n ≤ t.length)
    (hopen : (∀ k ∈ ms, k.length? = none) → m.length? = none)
    (hstarting : ∀ front, m ≠ .starting front) (hsuper : m ≠ .super)
    (hending : Matcher.super ∉ ms → ∀ back, m ≠ .ending back) : Joins ascii ms (some m) where
  fitsPart_iff := fun ht =>
    (fits_iff.trans (and_iff_left_of_imp hlength)).trans (haccepts ht)
  fits_of_accepts := fun _ h => fits_iff.mpr ⟨h, hlength h⟩
  isOpen := by
    rintro hall _ ⟨⟩
    rw [length?_behaviour, hopen hall]
  ne_starting := fun front heq => hstarting front (Option.some.inj heq)
  ne_super := fun _ heq => hsuper (Option.some.inj heq)
  ne_ending := fun hmem back heq => hending hmem back (Option.some.inj heq)

section Around

variable {l r : List Matcher} {p : Matcher}

theorem fitsAll_around_iff :
    FitsAll (l ++ p :: r) t ↔
      ∃ a u b, t = a ++ u ++ b ∧ p.Fits u ∧ FitsAll l a ∧ FitsAll r b := by
  rw [fitsAll_append_iff]
  constructor
  · rintro ⟨a, _, rfl, ha, u, b, rfl, hu, hb⟩
    exact ⟨a, u, b, by rw [List.append_assoc], hu, ha, hb⟩
  · rintro ⟨a, u, b, rfl, hu, ha, hb⟩
    exact ⟨a, u ++ b, by rw [List.append_assoc], ha, u, b, rfl, hu, hb⟩

/-- The parts around a pivot fit what was joined to them. -/
theorem fitsAll_around_iff_fitsPart (hl : Joins ascii l left) (hr : Joins ascii r right)
    (ht : Within ascii t) :
    (∃ a u b, t = a ++ u ++ b ∧ p.Fits u ∧ Behaviour.FitsPart (partBehaviour left) a ∧
        Behaviour.FitsPart (partBehaviour right) b) ↔ FitsAll (l ++ p :: r) t := by
  rw [fitsAll_around_iff]
  refine exists_congr fun a => exists_congr fun u => exists_congr fun b => and_congr_right ?_
  rintro rfl
  rw [hl.fitsPart_iff ht.left.left, hr.fitsPart_iff ht.right]

/-- **A text as the pivot.** -/
theorem joins_aroundText (h : Fitting ascii (l ++ .text x :: r)) (hl : Joins ascii l left)
    (hr : Joins ascii r right) : Joins ascii (l ++ .text x :: r) (some (aroundText x left right)) := by
  have hx := (h.pieces (.text x) (by simp)).of_text
  have hsuper : Matcher.super ∉ r := by
    have htail := h.super_notMem
    cases l with
    | nil => exact htail
    | cons k l => exact fun hmem => htail (List.mem_append_right l (List.mem_cons_of_mem _ hmem))
  refine joins_of_accepts (fun {t} ht => ?_) le_length_of_accepts_aroundText (fun hall => ?_)
    (fun front heq => ?_) ?_ (fun hmem back heq => ?_)
  · rw [accepts_aroundText_iff hx.1 hx.2 (fun _ => hl.ne_starting) (fun _ => hr.ne_ending hsuper),
      ← fitsAll_around_iff_fitsPart hl hr ht]
    simp only [fits_text_iff]
    constructor
    · rintro ⟨a, b, rfl, ha, hb⟩
      exact ⟨a, x, b, rfl, rfl, ha, hb⟩
    · rintro ⟨a, _, b, rfl, rfl, ha, hb⟩
      exact ⟨a, b, rfl, ha, hb⟩
  · exact absurd (hall (.text x) (by simp)) (by simp [length?])
  · unfold aroundText at heq
    split at heq
    case h_4 => exact hr.ne_super hsuper rfl
    all_goals exact absurd heq (by simp)
  · unfold aroundText
    split <;> simp
  · unfold aroundText at heq
    split at heq
    case h_3 =>
      rw [List.mem_append, not_or] at hmem
      exact hl.ne_super hmem.1 rfl
    all_goals exact absurd heq (by simp)

/-- **Another piece of a fixed length as the pivot.** -/
theorem joins_pivot (h : Fitting ascii (l ++ p :: r)) (hp : p.length? ≠ none)
    (hl : Joins ascii l left) (hr : Joins ascii r right) :
    Joins ascii (l ++ p :: r) (some (.pivot p left right)) := by
  refine joins_of_accepts (fun {t} ht => ?_) (fun {t} hmatch => ?_) (fun hall => ?_) (by simp)
    (by simp) (by simp)
  · have hlocates := ((h.pieces p (by simp)).locates_or_anchored ht).resolve_right fun h => hp h.1
    rw [accepts, behaviour, accepts_pivot_iff hlocates fun u hu => hu.2]
    exact fitsAll_around_iff_fitsPart hl hr ht
  · rw [← length?_behaviour]
    exact le_length_of_accepts_pivot hmatch
  · exact absurd (hall p (by simp)) hp

end Around

/-- One of two neighbours is no star, so that the text is not empty, and it begins with a character
behind a star. -/
theorem begins_of_fitsAll (h : Piece ascii m) (hm : m.isStar = false) (ht : Within ascii t)
    (hfits : FitsAll (m :: ms) t) : Begins t := by
  obtain ⟨u, rest, rfl, hu, -⟩ := hfits
  exact (h.begins hm ht.left hu).append rest

theorem ne_nil_of_fitsAll (h : Fitting ascii (m :: k :: ms)) (ht : Within ascii t)
    (hfits : FitsAll (m :: k :: ms) t) : t ≠ [] := by
  by_cases hm : m.isStar = true
  · have hk : k.isStar = false := Bool.eq_false_iff.mpr fun hk =>
      (List.isChain_cons_cons.mp h.meets).1.notStars ⟨hm, hk⟩
    obtain ⟨u, rest, rfl, -, hrest⟩ := hfits
    have hbegins := begins_of_fitsAll (h.pieces k (by simp)) hk ht.right hrest
    exact fun hnil => hbegins.ne_nil (List.append_eq_nil_iff.mp hnil).2
  · exact (begins_of_fitsAll (h.pieces m (by simp)) (Bool.eq_false_iff.mpr hm) ht hfits).ne_nil

/-- **The first piece as the pivot**, if none has a fixed length. -/
theorem joins_front (h : Fitting ascii (m :: k :: ms))
    (hopen : ∀ p ∈ m :: k :: ms, p.length? = none) (hr : Joins ascii (k :: ms) right) :
    Joins ascii (m :: k :: ms) (some (.pivot m none right)) := by
  have hm := hopen m (by simp)
  have hright : IsOpen right := hr.isOpen (List.forall_mem_cons.mp hopen).2
  refine joins_of_accepts (fun {t} ht => ?_) (fun {t} hmatch => ?_) (fun _ => ?_) (by simp)
    (by simp) (by simp)
  · rcases (h.pieces m (by simp)).locates_or_anchored ht with hlocates | ⟨-, hfront, hkind⟩
    · rw [accepts, behaviour, accepts_pivot_iff hlocates fun u hu => hu.2,
        fitsAll_around_iff_fitsPart joins_nil hr ht, List.nil_append]
    · rw [accepts_pivot_front_iff hm hright hfront]
      constructor
      · rintro ⟨-, u, b, rfl, -, hmatch, hb⟩
        exact ⟨u, b, rfl, (fits_iff_accepts hm).mpr hmatch, (hr.fitsPart_iff ht.right).mp hb⟩
      · intro hfits
        refine ⟨ne_nil_of_fitsAll h ht hfits, ?_⟩
        obtain ⟨u, rest, rfl, hu, hrest⟩ := hfits
        -- Behind the first piece there is a character, or nothing.
        have hcut : rest = [] ∨ Begins rest := by
          rcases hkind with hstar | hascii
          · have hk : k.isStar = false := Bool.eq_false_iff.mpr fun hk =>
              (List.isChain_cons_cons.mp h.meets).1.notStars ⟨hstar, hk⟩
            exact .inr (begins_of_fitsAll (h.pieces k (by simp)) hk ht.right hrest)
          · exact or_iff_not_imp_left.mpr fun hne => begins_of_isAscii (ht.right hascii) hne
        exact ⟨u, rest, rfl, mem_boundaries hcut, hu.1, (hr.fitsPart_iff ht.right).mpr hrest⟩
  · rw [← length?_behaviour]
    exact le_length_of_accepts_pivot hmatch
  · rw [length?, hm]
    rfl

theorem join_of_glue?_eq_some {g : Matcher} (hglue : glue? (m :: k :: ms) = some g) (n : Nat) :
    join (n + 1) (m :: k :: ms) = some g := by
  rw [join, hglue]
  · exact fun h => absurd h (by simp)
  · exact fun _ h => absurd h (by simp)

theorem join_of_pivotIndex?_eq_none (hglue : glue? (m :: k :: ms) = none)
    (hpivot : pivotIndex? (m :: k :: ms) = none) (n : Nat) :
    join (n + 1) (m :: k :: ms) = some (.pivot m none (join n (k :: ms))) := by
  rw [join, hglue, hpivot]
  · rfl
  · exact fun h => absurd h (by simp)
  · exact fun _ h => absurd h (by simp)

/-- Only around a text a matcher gets another shape. -/
theorem Piece.simplify_pivot (h : Piece ascii m) (hm : ∀ x, m ≠ .text x) :
    simplify (.pivot m left right) = .pivot m (simplifyPart left) (simplifyPart right) := by
  cases h with
  | text _ => exact absurd rfl (hm _)
  | run _ hasAny n =>
    rw [run_eq]
    rfl
  | _ => rfl

/-- **Joining.**  The induction is on the number of pieces. -/
theorem joins_join {n : Nat} : ∀ {ms : List Matcher}, Fitting ascii ms → ms.length < n →
    Joins ascii ms (simplifyPart (join n ms)) := by
  induction n with
  | zero => exact fun _ hn => absurd hn (Nat.not_lt_zero _)
  | succ n ih =>
    intro ms h hn
    match ms with
    | [] => exact joins_nil
    | [m] =>
      have hm := h.pieces m (by simp)
      show Joins ascii [m] (some (simplify m))
      rw [hm.simplify_eq]
      refine joins_piece hm (fun _ => fitsAll_singleton_iff.symm) (fun hall => hall m (by simp)) ?_
      rintro hmem rfl
      exact hmem (by simp)
    | m :: k :: ms =>
      cases hglue : glue? (m :: k :: ms) with
      | some g =>
        have hg := glues_of_glue? h hglue
        rw [join_of_glue?_eq_some hglue]
        show Joins ascii _ (some (simplify g))
        rw [hg.piece.simplify_eq]
        refine joins_piece hg.piece hg.fits_iff (fun hall => ?_) ?_
        · by_contra hne
          obtain ⟨j, hj⟩ := (hg.cuts hne).2 m (by simp)
          have heq := hj.length?_eq
          rw [hall m (by simp)] at heq
          exact absurd heq (by simp)
        · rintro - rfl
          exact absurd hg.isStar_eq (by simp [isStar])
      | none =>
        rcases pivotIndex?_cases (m :: k :: ms) with ⟨l, p, r, hms, hp, hpivot⟩ | ⟨hopen, hpivot⟩
        · rw [join_of_glue?_eq_none hglue hms hpivot]
          have hlength := congrArg List.length hms
          rw [List.length_append, List.length_cons (a := p)] at hlength
          rw [hms] at h ⊢
          have hl := ih h.left (by omega)
          have hr := ih (h.right.of_isInfix (List.suffix_cons p r).isInfix) (by omega)
          by_cases htext : ∃ x, p = .text x
          · obtain ⟨x, rfl⟩ := htext
            exact joins_aroundText h hl hr
          · have hnot : ∀ x, p ≠ .text x := fun x hx => htext ⟨x, hx⟩
            show Joins ascii _ (some (simplify _))
            rw [(h.pieces p (by simp)).simplify_pivot hnot]
            exact joins_pivot h hp hl hr
        · rw [join_of_pivotIndex?_eq_none hglue hpivot]
          have hnot : ∀ x, m ≠ .text x := by
            rintro x rfl
            exact absurd (hopen _ List.mem_cons_self) (by simp [length?])
          show Joins ascii _ (some (simplify _))
          rw [(h.pieces m (by simp)).simplify_pivot hnot]
          have htail := h.of_isInfix (List.suffix_cons m (k :: ms)).isInfix
          exact joins_front h hopen (ih htail (Nat.lt_of_succ_lt_succ hn))

end Matcher

end ReflectGen

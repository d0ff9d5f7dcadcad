import Mathlib.Data.List.Chain
import ReflectGen.Glob.Compile
import ReflectGen.Proofs.Glob.Pieces

/-!
# Gluing neighbours

Before the pieces of a pattern are joined, neighbours are glued together: pieces of fixed lengths to
rows, stars and question marks to runs.  This does not change which texts the pieces fit, one behind
the other.  Two conditions see to it: no star stands beside another one, and where pieces of fixed
lengths stand side by side, they fit ASCII pieces only.

* `Matcher.Fitting`: lists of pieces with these conditions.
* `Matcher.glues_of_glue?`: what neighbours are glued to.
* `Matcher.minimize_spec`: gluing as long as there is something to glue.
-/

namespace ReflectGen

namespace Matcher

variable {ascii : Bool} {m k : Matcher} {ms ns : List Matcher} {t : Text}

/-! ## Neighbours -/

/-- What is asked of neighbours. -/
structure Meets (ascii : Bool) (m k : Matcher) : Prop where
  notStars : ¬ (m.isStar = true ∧ k.isStar = true)
  cuts : m.length? ≠ none → k.length? ≠ none → (∃ n, Cuts ascii m n) ∧ ∃ n, Cuts ascii k n

/-- Pieces that can be put together.  A double star stands at the front only. -/
structure Fitting (ascii : Bool) (ms : List Matcher) : Prop where
  pieces : ∀ m ∈ ms, Piece ascii m
  meets : ms.IsChain (Meets ascii)
  super_notMem : Matcher.super ∉ ms.tail

theorem Fitting.of_isInfix (h : Fitting ascii ms) (hns : ns <:+: ms) : Fitting ascii ns where
  pieces := fun m hm => h.pieces m (hns.subset hm)
  meets := h.meets.infix hns
  super_notMem := fun hsuper => h.super_notMem <| by
    obtain ⟨a, c, rfl⟩ := hns
    cases a with
    | nil =>
      cases ns with
      | nil => exact absurd hsuper List.not_mem_nil
      | cons m ns => exact List.mem_append_left c hsuper
    | cons m a => exact List.mem_append_left c (List.mem_append_right a (List.mem_of_mem_tail hsuper))

theorem Fitting.left {a b : List Matcher} (h : Fitting ascii (a ++ b)) : Fitting ascii a :=
  h.of_isInfix (List.prefix_append a b).isInfix

theorem Fitting.right {a b : List Matcher} (h : Fitting ascii (a ++ b)) : Fitting ascii b :=
  h.of_isInfix (List.suffix_append a b).isInfix

/-- Two or more pieces of fixed lengths fit ASCII pieces only. -/
theorem Fitting.cuts (h : Fitting ascii (m :: k :: ms))
    (hfixed : ∀ x ∈ m :: k :: ms, x.length? ≠ none) : ∀ x ∈ m :: k :: ms, ∃ n, Cuts ascii x n := by
  induction ms generalizing m k with
  | nil =>
    have hcuts := (List.isChain_cons_cons.mp h.meets).1.cuts (hfixed m (by simp))
      (hfixed k (by simp))
    simpa using hcuts
  | cons x ms ih =>
    have hcuts := (List.isChain_cons_cons.mp h.meets).1.cuts (hfixed m (by simp))
      (hfixed k (by simp))
    rw [List.forall_mem_cons] at hfixed ⊢
    exact ⟨hcuts.1, ih (h.of_isInfix (List.suffix_cons m _).isInfix) hfixed.2⟩

/-! ## Runs -/

/-- Does the text consist of `n` characters that are no slashes, or of more if there is a star? -/
def FitsRun (hasAny : Bool) (n : Nat) (t : Text) : Prop :=
  Path.slash ∉ t ∧ n ≤ t.length ∧ (hasAny = false → t.length = n)

theorem fitsRun_any_iff {hasAny : Bool} {n : Nat} :
    (∃ u rest, t = u ++ rest ∧ Path.slash ∉ u ∧ FitsRun hasAny n rest) ↔ FitsRun true n t := by
  constructor
  · rintro ⟨u, rest, rfl, hu, hrest, hle, -⟩
    refine ⟨fun hmem => (List.mem_append.mp hmem).elim hu hrest, ?_, fun h => absurd h (by simp)⟩
    rw [List.length_append]
    omega
  · rintro ⟨ht, hle, -⟩
    refine ⟨t.take (t.length - n), t.drop (t.length - n), (List.take_append_drop _ t).symm,
      fun hmem => ht (List.mem_of_mem_take hmem), fun hmem => ht (List.mem_of_mem_drop hmem), ?_, ?_⟩
    all_goals
      rw [List.length_drop]
      omega

theorem fitsRun_single_iff {hasAny : Bool} {n : Nat} :
    (∃ u rest, t = u ++ rest ∧ (∃ b, u = [b] ∧ b ≠ Path.slash) ∧ FitsRun hasAny n rest) ↔
      FitsRun hasAny (n + 1) t := by
  constructor
  · rintro ⟨_, rest, rfl, ⟨b, rfl, hb⟩, hrest, hle, hexact⟩
    refine ⟨fun hmem => (List.mem_cons.mp hmem).elim (fun h => hb h.symm) hrest, ?_, fun h => ?_⟩
    · exact Nat.succ_le_succ hle
    · exact congrArg Nat.succ (hexact h)
  · rintro ⟨ht, hle, hexact⟩
    cases t with
    | nil => exact absurd hle (by simp)
    | cons b rest =>
      rw [List.mem_cons, not_or] at ht
      exact ⟨[b], rest, rfl, ⟨b, rfl, fun h => ht.1 h.symm⟩, ht.2, Nat.le_of_succ_le_succ hle,
        fun h => Nat.succ.inj (hexact h)⟩

/-- Stars and question marks as a run.  Among stars alone no characters are counted. -/
theorem foldlM_extend? (hms : ∀ m ∈ ms, Piece ascii m) :
    ∀ {hasAny : Bool} {n : Nat} {r : Run},
      ms.foldlM Run.extend? { separators := [Glob.separator], hasAny, singles := n } = some r →
      ∃ hasAny' n',
        r = { separators := [Glob.separator], hasAny := hasAny || hasAny', singles := n + n' } ∧
        (∀ t : Text, t.IsAscii → (FitsAll ms t ↔ FitsRun hasAny' n' t)) ∧
        (n' = 0 → ∀ m ∈ ms, m.isStar = true) ∧ (n' ≠ 0 → ascii = true) := by
  induction ms with
  | nil =>
    intro hasAny n r hr
    refine ⟨false, 0, ?_, fun t _ => ?_, fun _ m hm => absurd hm List.not_mem_nil,
      fun h => absurd rfl h⟩
    · rw [Bool.or_false]
      exact (Option.some.inj hr).symm
    · constructor
      · rintro rfl
        exact ⟨List.not_mem_nil, Nat.le_refl 0, fun _ => rfl⟩
      · exact fun h => List.length_eq_zero_iff.mp (h.2.2 rfl)
  | cons m ms ih =>
    intro hasAny n r hr
    rw [List.forall_mem_cons] at hms
    rw [List.foldlM_cons] at hr
    cases hms.1 with
    | any =>
      have hr : ms.foldlM Run.extend?
          { separators := [Glob.separator], hasAny := true, singles := n } = some r := hr
      obtain ⟨hasAny', n', rfl, hfits, hstars, hascii⟩ := ih hms.2 hr
      refine ⟨true, n', by simp, fun t ht => ?_, fun h => ?_, hascii⟩
      · rw [← @fitsRun_any_iff t hasAny']
        refine exists_congr fun u => exists_congr fun rest => and_congr_right ?_
        rintro rfl
        rw [hfits rest (ht.of_isInfix (List.suffix_append u rest).isInfix), fits_iff_accepts rfl,
          accepts_any_iff]
      · exact List.forall_mem_cons.mpr ⟨rfl, hstars h⟩
    | single hascii =>
      have hr : ms.foldlM Run.extend?
          { separators := [Glob.separator], hasAny, singles := n + 1 } = some r := hr
      obtain ⟨hasAny', n', rfl, hfits, -, -⟩ := ih hms.2 hr
      refine ⟨hasAny', n' + 1, ?_, fun t ht => ?_, fun h => absurd h (by simp), fun _ => hascii⟩
      · rw [Nat.add_assoc, Nat.add_comm 1]
      · rw [← fitsRun_single_iff]
        refine exists_congr fun u => exists_congr fun rest => and_congr_right ?_
        rintro rfl
        rw [hfits rest (ht.of_isInfix (List.suffix_append u rest).isInfix),
          fits_single_iff (ht.of_isInfix (List.prefix_append u rest).isInfix)]
    | run _ hasAny n =>
      rw [run_eq] at hr
      exact absurd hr (by simp [Run.extend?])
    | _ => exact absurd hr (by simp [Run.extend?])

/-- Neighbours that are glued to a run are stars and question marks. -/
theorem glueRun?_cases (h : Fitting ascii (m :: k :: ms)) {g : Matcher}
    (hg : glueRun? (m :: k :: ms) = some g) :
    ascii = true ∧ ∃ hasAny n, g = run hasAny n ∧
      ∀ t : Text, t.IsAscii → (FitsAll (m :: k :: ms) t ↔ FitsRun hasAny (n + 1) t) := by
  obtain ⟨r, hr, rfl⟩ := Option.map_eq_some_iff.mp hg
  obtain ⟨hm, hk⟩ : Piece ascii m ∧ Piece ascii k := ⟨h.pieces m (by simp), h.pieces k (by simp)⟩
  have hstars := (List.isChain_cons_cons.mp h.meets).1.notStars
  -- Only a star or a question mark can be the first one.
  have hfirst : excluded m = [Glob.separator] := by
    cases hm with
    | single _ => rfl
    | any => rfl
    | super =>
      exfalso
      rw [List.foldlM_cons] at hr
      cases hk with
      | super => exact hstars ⟨rfl, rfl⟩
      | run _ hasAny n =>
        rw [run_eq] at hr
        exact absurd hr (by simp [Run.extend?, excluded])
      | _ => exact absurd hr (by simp [Run.extend?, excluded])
    | run _ hasAny n =>
      rw [List.foldlM_cons, run_eq] at hr
      exact absurd hr (by simp [Run.extend?])
    | _ =>
      rw [List.foldlM_cons] at hr
      exact absurd hr (by simp [Run.extend?])
  rw [List.head?_cons, Option.map_some, Option.getD_some, hfirst] at hr
  obtain ⟨hasAny, n, rfl, hfits, hzero, hascii⟩ := foldlM_extend? h.pieces hr
  cases n with
  | zero => exact absurd ⟨hzero rfl m (by simp), hzero rfl k (by simp)⟩ hstars
  | succ n =>
    refine ⟨hascii (Nat.succ_ne_zero n), hasAny, n, ?_, hfits⟩
    rw [Bool.false_or, Nat.zero_add]
    rfl

/-! ## Rows -/

theorem le_foldl_add (ls : List Nat) : ∀ n : Nat, n ≤ ls.foldl (· + ·) n := by
  induction ls with
  | nil => exact fun n => Nat.le_refl n
  | cons k ls ih => exact fun n => (Nat.le_add_right n k).trans (ih (n + k))

/-- The matchers of a row have fixed lengths, and the row is as long as all of them. -/
theorem length_of_mapM_length? : ∀ {ms : List Matcher} {ls : List Nat},
    ms.mapM length? = some ls →
      (∀ m ∈ ms, m.length? ≠ none) ∧
        ((∀ m ∈ ms, ∃ n, Cuts ascii m n) → ∀ {t : Text}, Within ascii t → FitsAll ms t →
          ∀ n, ls.foldl (· + ·) n = n + t.length)
  | [], ls, h => by
    obtain rfl := Option.some.inj h
    refine ⟨fun m hm => absurd hm List.not_mem_nil, ?_⟩
    rintro - t - rfl n
    rfl
  | m :: ms, ls, h => by
    rw [List.mapM_cons] at h
    obtain ⟨l, hl, h⟩ := Option.bind_eq_some_iff.mp h
    obtain ⟨ls, hls, h⟩ := Option.bind_eq_some_iff.mp h
    obtain rfl := Option.some.inj h
    obtain ⟨hfixed, hlength⟩ := length_of_mapM_length? hls
    rw [List.forall_mem_cons]
    refine ⟨⟨by rw [hl]; simp, hfixed⟩, ?_⟩
    rintro hcuts _ ht ⟨u, rest, rfl, hu, hrest⟩ n
    rw [List.forall_mem_cons] at hcuts
    obtain ⟨k, hk⟩ := hcuts.1
    have heq : l = k := Option.some.inj (hl.symm.trans hk.length?_eq)
    rw [List.foldl_cons, hlength hcuts.2 ht.right hrest, heq, List.length_append,
      (hk.piece ht.left hu).2, Nat.add_assoc]

/-- Neighbours that are glued to a row have fixed lengths. -/
theorem glueRow?_cases (h : Fitting ascii (m :: k :: ms)) {g : Matcher}
    (hg : glueRow? (m :: k :: ms) = some g) :
    ∃ n, g = .row n (m :: k :: ms) ∧ CutsAll ascii (m :: k :: ms) n := by
  obtain ⟨ls, hls, rfl⟩ := Option.map_eq_some_iff.mp hg
  obtain ⟨hfixed, hlength⟩ := @length_of_mapM_length? ascii _ _ hls
  have hcuts := h.cuts hfixed
  refine ⟨_, rfl, ?_, hcuts, fun ht hfits => ?_⟩
  · rw [List.mapM_cons] at hls
    obtain ⟨l, hl, hls⟩ := Option.bind_eq_some_iff.mp hls
    obtain ⟨ls, -, hls⟩ := Option.bind_eq_some_iff.mp hls
    obtain rfl := Option.some.inj hls
    obtain ⟨n, hn⟩ := hcuts m (by simp)
    have heq : l = n := Option.some.inj (hl.symm.trans hn.length?_eq)
    have hle := le_foldl_add ls (0 + l)
    have hpos := hn.pos
    rw [List.foldl_cons]
    omega
  · rw [hlength hcuts ht hfits 0, Nat.zero_add]

/-! ## Gluing -/

/-- A piece that neighbours are glued to. -/
structure Glues (ascii : Bool) (ms : List Matcher) (m : Matcher) : Prop where
  piece : Piece ascii m
  isStar_eq : m.isStar = false
  cuts : m.length? ≠ none → (∃ n, Cuts ascii m n) ∧ ∀ k ∈ ms, ∃ n, Cuts ascii k n
  fits_iff : ∀ {t : Text}, Within ascii t → (m.Fits t ↔ FitsAll ms t)

/-- **Gluing** neighbours does not change what they fit. -/
theorem glues_of_glue? (h : Fitting ascii (m :: k :: ms)) {g : Matcher}
    (hg : glue? (m :: k :: ms) = some g) : Glues ascii (m :: k :: ms) g := by
  rw [glue?, if_neg (by simp)] at hg
  cases hrun : glueRun? (m :: k :: ms) with
  | some g' =>
    rw [hrun] at hg
    obtain rfl : g' = g := Option.some.inj hg
    obtain ⟨hascii, hasAny, n, rfl, hfits⟩ := glueRun?_cases h hrun
    refine ⟨.run hascii hasAny n, by rw [run_eq]; rfl, fun hne => ?_, fun ht => ?_⟩
    · exact absurd (length?_run hasAny n) hne
    · rw [fits_run_iff (ht hascii), hfits _ (ht hascii), FitsRun]
  | none =>
    rw [hrun] at hg
    obtain ⟨n, rfl, hcuts⟩ := glueRow?_cases h hg
    exact ⟨.row hcuts, rfl, fun _ => ⟨⟨n, cuts_row hcuts⟩, hcuts.cuts⟩, fun ht =>
      fits_row_iff hcuts ht⟩

section Replace

variable {a b c : List Matcher}

/-- The glued piece meets the neighbours of those that are glued. -/
theorem Fitting.replace (h : Fitting ascii (a ++ b ++ c)) (hb : b ≠ []) (hm : Glues ascii b m) :
    Fitting ascii (a ++ [m] ++ c) := by
  have hfixed : m.length? ≠ none → ∀ k ∈ b, k.length? ≠ none := by
    intro hne k hk
    obtain ⟨n, hn⟩ := (hm.cuts hne).2 k hk
    rw [hn.length?_eq]
    simp
  have hstar : ¬ m.isStar = true := by rw [hm.isStar_eq]; simp
  have hmeets := List.isChain_append.mp h.meets
  have hleft := List.isChain_append.mp hmeets.1
  refine ⟨?_, ?_, ?_⟩
  · rw [List.forall_mem_append, List.forall_mem_append, List.forall_mem_singleton]
    exact ⟨⟨h.left.left.pieces, hm.piece⟩, h.right.pieces⟩
  · refine List.isChain_append.mpr ⟨List.isChain_append.mpr ⟨hleft.1, List.isChain_singleton m, ?_⟩,
      hmeets.2.1, ?_⟩
    · intro x hx y hy
      obtain rfl : m = y := Option.some.inj hy
      obtain ⟨k, hk⟩ := Option.ne_none_iff_exists'.mp (mt List.head?_eq_none_iff.mp hb)
      refine ⟨fun hboth => hstar hboth.2, fun hfix hfix' => ⟨?_, (hm.cuts hfix').1⟩⟩
      exact ((hleft.2.2 x hx k hk).cuts hfix (hfixed hfix' k (List.mem_of_mem_head? hk))).1
    · intro x hx y hy
      rw [List.getLast?_concat] at hx
      obtain rfl : m = x := Option.some.inj hx
      obtain ⟨k, hk⟩ := Option.ne_none_iff_exists'.mp (mt List.getLast?_eq_none_iff.mp hb)
      have hlast : k ∈ (a ++ b).getLast? := by
        rw [List.getLast?_append_of_ne_nil a hb]
        exact hk
      refine ⟨fun hboth => hstar hboth.1, fun hfix hfix' => ⟨(hm.cuts hfix).1, ?_⟩⟩
      exact ((hmeets.2.2 k hlast y hy).cuts
        (hfixed hfix k (List.mem_of_mem_getLast? hk)) hfix').2
  · have hsuper := h.super_notMem
    have hm' : Matcher.super ≠ m := by
      rintro rfl
      exact hstar rfl
    cases a with
    | nil =>
      obtain ⟨k, b, rfl⟩ := List.exists_cons_of_ne_nil hb
      exact fun hmem => hsuper (List.mem_append_right b hmem)
    | cons x a =>
      simp only [List.cons_append, List.tail_cons, List.mem_append, List.mem_singleton] at hsuper ⊢
      tauto

theorem fitsAll_replace_iff (hm : Glues ascii b m) (ht : Within ascii t) :
    FitsAll (a ++ [m] ++ c) t ↔ FitsAll (a ++ b ++ c) t := by
  rw [List.append_assoc, List.append_assoc, fitsAll_append_iff, fitsAll_append_iff]
  refine exists_congr fun u => exists_congr fun v => and_congr_right ?_
  rintro rfl
  refine and_congr_right fun _ => ?_
  rw [fitsAll_append_iff, fitsAll_append_iff]
  refine exists_congr fun w => exists_congr fun x => and_congr_right ?_
  rintro rfl
  rw [fitsAll_singleton_iff, hm.fits_iff ht.right.left]

end Replace

theorem mem_of_foldl_pick {gs : List Glued} {g : Glued} :
    ∀ {o : Option Glued}, gs.foldl Glued.pick o = some g → g ∈ gs ∨ o = some g := by
  induction gs with
  | nil => exact fun h => .inr h
  | cons new gs ih =>
    intro o h
    rcases ih h with hmem | hpick
    · exact .inl (List.mem_cons_of_mem new hmem)
    · cases o with
      | none => exact .inl (Option.some.inj hpick ▸ List.mem_cons_self)
      | some old =>
        rw [Glued.pick] at hpick
        split at hpick
        · exact .inl (Option.some.inj hpick ▸ List.mem_cons_self)
        · exact .inr hpick

/-- What can be glued is a part of the list with at least two members. -/
theorem cut_of_mem_glueable {g : Glued} (h : g ∈ glueable ms) :
    ∃ m k b, ms = ms.take g.start ++ (m :: k :: b) ++ ms.drop g.stop ∧
      glue? (m :: k :: b) = some g.matcher := by
  rw [glueable, List.mem_flatMap] at h
  obtain ⟨start, -, h⟩ := h
  obtain ⟨i, -, h⟩ := List.mem_filterMap.mp h
  obtain ⟨matcher, hglue, rfl⟩ := Option.map_eq_some_iff.mp h
  dsimp only at hglue ⊢
  have hlength : ¬ ((ms.take (ms.length - i)).drop start).length < 2 := by
    intro hlt
    rw [glue?, if_pos hlt] at hglue
    exact absurd hglue (by simp)
  have hcut : ms = ms.take start ++ (ms.take (ms.length - i)).drop start ++
      ms.drop (ms.length - i) := by
    have hle : start ≤ ms.length - i := by
      rw [List.length_drop, List.length_take] at hlength
      omega
    rw [show ms.take start = (ms.take (ms.length - i)).take start by
      rw [List.take_take, Nat.min_eq_left hle], List.take_append_drop, List.take_append_drop]
  match hb : (ms.take (ms.length - i)).drop start with
  | [] => exact absurd (by rw [hb]; simp) hlength
  | [_] => exact absurd (by rw [hb]; simp) hlength
  | m :: k :: b =>
    rw [hb] at hcut hglue
    exact ⟨m, k, b, hcut, hglue⟩

/-- **Gluing as long as there is something to glue.**  The induction is on the steps. -/
theorem minimize_spec : ∀ (n : Nat) {ms : List Matcher}, Fitting ascii ms →
    Fitting ascii (minimize n ms) ∧ (minimize n ms).length ≤ ms.length ∧
      ∀ {t : Text}, Within ascii t → (FitsAll (minimize n ms) t ↔ FitsAll ms t)
  | 0, _, h => ⟨h, Nat.le_refl _, fun _ => Iff.rfl⟩
  | n + 1, ms, h => by
    rw [minimize]
    cases hpick : (glueable ms).foldl Glued.pick none with
    | none => exact ⟨h, Nat.le_refl _, fun _ => Iff.rfl⟩
    | some g =>
      obtain ⟨m, k, b, hcut, hglue⟩ := cut_of_mem_glueable
        ((mem_of_foldl_pick hpick).resolve_right (by simp))
      have hb : Glues ascii (m :: k :: b) g.matcher :=
        glues_of_glue? (by rw [hcut] at h; exact h.left.right) hglue
      have hfitting := (hcut ▸ h : Fitting ascii (_ ++ (m :: k :: b) ++ _)).replace (by simp) hb
      obtain ⟨hdone, hlength, hfits⟩ := minimize_spec n hfitting
      refine ⟨hdone, hlength.trans ?_, fun ht => (hfits ht).trans ?_⟩
      · conv_rhs => rw [hcut]
        simp only [List.length_append, List.length_cons, List.length_nil]
        omega
      · conv_rhs => rw [hcut]
        exact fitsAll_replace_iff hb ht

end Matcher

end ReflectGen

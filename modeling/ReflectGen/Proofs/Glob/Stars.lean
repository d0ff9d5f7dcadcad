import Mathlib.Data.List.Chain
import ReflectGen.Glob.Parse
import ReflectGen.Path
import ReflectGen.Proofs.Text.Utf8

/-!
# Patterns of texts and stars

Most patterns are made of texts that stand for themselves, with single or double stars between them.
Each part stands for pieces of a path, and the parts for paths that can be cut into such pieces.

* `Glob.Matches`: the paths that parts stand for, one part behind the other.
* `Glob.Alternates`: texts and stars by turns.
* `Glob.parse_writtenAll`: they are read as they are written.
-/

namespace ReflectGen

namespace Glob

/-! ## What parts stand for -/

/-- Does the part stand for this piece of a path? -/
def Fits : Glob → Text → Prop
  | .text x, u => u = x
  | .any, u => Path.slash ∉ u
  | .super, _ => True
  | _, _ => False

/-- Do the parts stand for this path, one behind the other? -/
def Matches : List Glob → Text → Prop
  | [], t => t = []
  | g :: gs, t => ∃ u rest, t = u ++ rest ∧ Fits g u ∧ Matches gs rest

theorem matches_append_iff {gs hs : List Glob} {t : Text} :
    Matches (gs ++ hs) t ↔ ∃ a b, t = a ++ b ∧ Matches gs a ∧ Matches hs b := by
  induction gs generalizing t with
  | nil =>
    constructor
    · exact fun h => ⟨[], t, rfl, rfl, h⟩
    · rintro ⟨a, b, rfl, rfl, h⟩
      exact h
  | cons g gs ih =>
    rw [List.cons_append]
    constructor
    · rintro ⟨u, rest, rfl, hu, hrest⟩
      obtain ⟨a, b, rfl, ha, hb⟩ := ih.mp hrest
      exact ⟨u ++ a, b, by rw [List.append_assoc], ⟨u, a, rfl, hu, ha⟩, hb⟩
    · rintro ⟨_, b, rfl, ⟨u, a, rfl, hu, ha⟩, hb⟩
      exact ⟨u, a ++ b, by rw [List.append_assoc], hu, ih.mpr ⟨a, b, rfl, ha, hb⟩⟩

theorem matches_singleton_iff {g : Glob} {t : Text} : Matches [g] t ↔ Fits g t := by
  constructor
  · rintro ⟨u, rest, rfl, hu, rfl⟩
    rwa [List.append_nil]
  · exact fun h => ⟨t, [], by rw [List.append_nil], h, rfl⟩

/-- A text between parts. -/
theorem matches_text_iff {l r : List Glob} {x t : Text} :
    Matches (l ++ .text x :: r) t ↔ ∃ a b, t = a ++ x ++ b ∧ Matches l a ∧ Matches r b := by
  rw [matches_append_iff]
  constructor
  · rintro ⟨a, _, rfl, ha, u, b, rfl, rfl, hb⟩
    exact ⟨a, b, by rw [List.append_assoc], ha, hb⟩
  · rintro ⟨a, b, rfl, ha, hb⟩
    exact ⟨a, x ++ b, by rw [List.append_assoc], ha, x, b, rfl, rfl, hb⟩

/-! ## Texts and stars by turns -/

/-- Is the part a single or a double star? -/
def isStar : Glob → Bool
  | .any => true
  | .super => true
  | _ => false

/-- Does the character stand for itself in a pattern? -/
def isPlainChar (c : Char) : Bool :=
  !isSpecial false c && c != '\\' && c.toNat != 0 && c != Rune.replacement

/-- A text that stands for itself in a pattern. -/
structure IsPlain (x : Text) : Prop where
  ne_nil : x ≠ []
  isUtf8 : x.isUtf8 = true
  chars : ∀ c ∈ x.chars, isPlainChar c = true

instance (x : Text) : Decidable (IsPlain x) :=
  decidable_of_iff (x ≠ [] ∧ x.isUtf8 = true ∧ x.chars.all isPlainChar = true)
    ⟨fun h => ⟨h.1, h.2.1, List.all_eq_true.mp h.2.2⟩,
      fun h => ⟨h.ne_nil, h.isUtf8, List.all_eq_true.mpr h.chars⟩⟩

/-- A plain text or a star. -/
def IsPart : Glob → Prop
  | .text x => IsPlain x
  | .any => True
  | .super => True
  | _ => False

instance : DecidablePred IsPart
  | .text x => inferInstanceAs (Decidable (IsPlain x))
  | .any => isTrue trivial
  | .super => isTrue trivial
  | .nothing => isFalse id
  | .single => isFalse id
  | .list _ _ => isFalse id
  | .range _ _ _ => isFalse id
  | .sequence _ => isFalse id
  | .choice _ => isFalse id

/-- Plain texts and stars by turns. -/
structure Alternates (gs : List Glob) : Prop where
  isPart : ∀ g ∈ gs, IsPart g
  turns : gs.IsChain fun g k => isStar g ≠ isStar k

instance (gs : List Glob) : Decidable (Alternates gs) :=
  decidable_of_iff ((∀ g ∈ gs, IsPart g) ∧ gs.IsChain fun g k => isStar g ≠ isStar k)
    ⟨fun h => ⟨h.1, h.2⟩, fun h => ⟨h.isPart, h.turns⟩⟩

/-- How a text or a star is written. -/
def written : Glob → Text
  | .text x => x
  | .any => lit "*"
  | .super => lit "**"
  | _ => []

/-- How texts and stars are written, one behind the other. -/
def writtenAll (gs : List Glob) : Text := gs.flatMap written

/-- Is the text a pattern of plain texts and stars by turns? -/
def IsStarPattern (t : Text) : Prop := ∃ gs, Alternates gs ∧ t = writtenAll gs

theorem isStar_iff {g : Glob} : isStar g = true ↔ g = .any ∨ g = .super := by
  cases g <;> simp [isStar]

theorem isPart_cases {g : Glob} (h : IsPart g) :
    isStar g = true ∨ ∃ x, IsPlain x ∧ g = .text x := by
  cases g with
  | text x => exact .inr ⟨x, h, rfl⟩
  | any => exact .inl rfl
  | super => exact .inl rfl
  | _ => exact h.elim

theorem IsPlain.chars_ne_nil {x : Text} (h : IsPlain x) : x.chars ≠ [] := by
  intro hnil
  apply h.ne_nil
  rw [← Text.isUtf8_iff.mp h.isUtf8, hnil, Text.ofChars_nil]

/-- There is no star in a plain text. -/
theorem IsPlain.star_notMem {x : Text} (h : IsPlain x) : 0x2A ∉ x := fun hmem =>
  absurd (h.chars _ (Text.mem_chars_of_mem h.isUtf8 (by decide) hmem)) (by decide)

theorem Alternates.of_isInfix {gs hs : List Glob} (h : Alternates gs) (hsub : hs <:+: gs) :
    Alternates hs where
  isPart g hg := h.isPart g (hsub.subset hg)
  turns := List.IsChain.infix h.turns hsub

theorem Alternates.tail {g : Glob} {gs : List Glob} (h : Alternates (g :: gs)) : Alternates gs :=
  h.of_isInfix (List.suffix_cons g gs).isInfix

theorem Alternates.turn {g k : Glob} {gs : List Glob} (h : Alternates (g :: k :: gs)) :
    isStar g ≠ isStar k := (List.isChain_cons_cons.mp h.turns).1

/-- Behind a star there is a text, and behind a text a star. -/
theorem Alternates.pair {g k : Glob} {gs : List Glob} (h : Alternates (g :: k :: gs)) :
    (isStar g = true ∧ ∃ x, IsPlain x ∧ k = .text x) ∨
      (∃ x, IsPlain x ∧ g = .text x) ∧ isStar k = true := by
  have hk := isPart_cases (h.tail.isPart k List.mem_cons_self)
  rcases isPart_cases (h.isPart g List.mem_cons_self) with hg | ⟨x, hx, rfl⟩
  · exact .inl ⟨hg, hk.resolve_left fun hstar => h.turn (hg.trans hstar.symm)⟩
  · have hturn : false ≠ isStar k := h.turn
    exact .inr ⟨⟨x, hx, rfl⟩, (Bool.not_eq_false _).mp hturn.symm⟩

/-- In front of a text there is nothing or a star, and so it is behind a text. -/
theorem Alternates.around {l r : List Glob} {x : Text} (h : Alternates (l ++ .text x :: r)) :
    (l = [] ∨ ∃ g ∈ l.getLast?, isStar g = true) ∧ (r = [] ∨ ∃ g ∈ r.head?, isStar g = true) := by
  have hturns := List.isChain_append.mp h.turns
  constructor
  · cases hl : l.getLast? with
    | none => exact .inl (List.getLast?_eq_none_iff.mp hl)
    | some g =>
      have hturn : isStar g ≠ false := hturns.2.2 g hl _ rfl
      exact .inr ⟨g, rfl, (Bool.not_eq_false _).mp hturn⟩
  · cases r with
    | nil => exact .inl rfl
    | cons g r =>
      have hturn : false ≠ isStar g := (List.isChain_cons_cons.mp hturns.2.1).1
      exact .inr ⟨g, rfl, (Bool.not_eq_false _).mp hturn.symm⟩

/-- In front of a star there is nothing or a text. -/
theorem Alternates.before_star {front : List Glob} {g : Glob} (h : Alternates (front ++ [g]))
    (hg : isStar g = true) : front = [] ∨ ∃ init x, front = init ++ [.text x] := by
  refine (List.eq_nil_or_concat front).imp_right ?_
  rintro ⟨init, k, rfl⟩
  rw [List.concat_eq_append] at *
  have hturn : isStar k ≠ isStar g := (List.isChain_append.mp h.turns).2.2 k (by simp) g rfl
  obtain ⟨x, -, rfl⟩ := (isPart_cases (h.isPart k (by simp))).resolve_left
    fun hk => hturn (hk.trans hg.symm)
  exact ⟨init, x, rfl⟩

/-! ## Reading -/

/-- A plain text is read up to its end, or up to a star. -/
theorem readText_of_plain {rest : List Char} (hrest : rest = [] ∨ ∃ cs, rest = '*' :: cs)
    {cs : List Char} (hcs : ∀ c ∈ cs, isPlainChar c = true) :
    ∀ done : List Char,
      readText (isSpecial false) false (cs ++ rest) done = (done.reverse ++ cs, rest) := by
  induction cs with
  | nil =>
    intro done
    rw [List.nil_append, List.append_nil]
    rcases hrest with rfl | ⟨rest, rfl⟩ <;> rfl
  | cons c cs ih =>
    intro done
    have hc := hcs c List.mem_cons_self
    simp only [isPlainChar, Bool.and_eq_true, Bool.not_eq_true', bne_iff_ne] at hc
    rw [List.cons_append, readText]
    simp only [hc, beq_iff_eq, Bool.not_false, Bool.true_and, if_false, Bool.false_eq_true]
    rw [ih (fun d hd => hcs d (List.mem_cons_of_mem c hd))]
    simp

theorem parseLoop_nil (fuel : Nat) (cur : List Glob) :
    parseLoop fuel [] [] cur = .ok (.sequence cur.reverse) := by
  cases fuel <;> rfl

theorem parseLoop_any {rest : List Char} (hrest : ∀ cs, rest ≠ '*' :: cs) (fuel : Nat)
    (cur : List Glob) :
    parseLoop (fuel + 1) ('*' :: rest) [] cur = parseLoop fuel rest [] (.any :: cur) := by
  cases rest with
  | nil => rfl
  | cons c rest =>
    have hc : c ≠ '*' := fun heq => hrest rest (by rw [heq])
    rw [parseLoop]
    intro cs hcs
    exact hc (List.cons.inj hcs).1

theorem parseLoop_text {rest : List Char} (hrest : rest = [] ∨ ∃ cs, rest = '*' :: cs) {x : Text}
    (hx : IsPlain x) (fuel : Nat) (cur : List Glob) :
    parseLoop (fuel + 1) (x.chars ++ rest) [] cur = parseLoop fuel rest [] (.text x :: cur) := by
  have hread := readText_of_plain hrest hx.chars []
  obtain ⟨c, cs, hcs⟩ := List.exists_cons_of_ne_nil hx.chars_ne_nil
  have hc : isPlainChar c = true := hx.chars c (by rw [hcs]; exact List.mem_cons_self)
  rw [List.reverse_nil, List.nil_append] at hread
  have htext : Text.ofChars (c :: cs) = x := by rw [← hcs, Text.isUtf8_iff.mp hx.isUtf8]
  rw [hcs, List.cons_append] at hread ⊢
  simp only [isPlainChar, isSpecial, Bool.and_eq_true, Bool.not_eq_true', bne_iff_ne,
    Bool.or_eq_false_iff, beq_eq_false_iff_ne] at hc
  rw [parseLoop]
  · simp [hc, hread, htext]
  all_goals simp_all

theorem chars_star_append (t : Text) : (lit "*" ++ t).chars = '*' :: t.chars :=
  Text.chars_append_of_isUtf8 (by decide) t

theorem chars_doubleStar_append (t : Text) : (lit "**" ++ t).chars = '*' :: '*' :: t.chars :=
  Text.chars_append_of_isUtf8 (by decide) t

theorem chars_writtenAll_of_star {g : Glob} {gs : List Glob} (h : Alternates (g :: gs))
    (hg : isStar g = true) (cs : List Char) : (writtenAll gs).chars ≠ '*' :: cs := by
  cases gs with
  | nil => exact fun hnil => absurd hnil (by simp [writtenAll, Text.chars])
  | cons k gs =>
    rcases h.pair with ⟨-, x, hx, rfl⟩ | ⟨⟨x, -, rfl⟩, -⟩
    · obtain ⟨c, ds, hds⟩ := List.exists_cons_of_ne_nil hx.chars_ne_nil
      have hc := hx.chars c (by rw [hds]; exact List.mem_cons_self)
      intro hstar
      rw [writtenAll, List.flatMap_cons, written, Text.chars_append_of_isUtf8 hx.isUtf8, hds,
        List.cons_append] at hstar
      rw [(List.cons.inj hstar).1] at hc
      exact absurd hc (by decide)
    · exact absurd hg (by simp [isStar])

theorem chars_writtenAll_of_text {x : Text} {gs : List Glob} (h : Alternates (.text x :: gs)) :
    (writtenAll gs).chars = [] ∨ ∃ cs, (writtenAll gs).chars = '*' :: cs := by
  cases gs with
  | nil => exact .inl rfl
  | cons k gs =>
    right
    rcases h.pair with ⟨hx, -⟩ | ⟨-, hk⟩
    · exact absurd hx (by simp [isStar])
    · rcases isStar_iff.mp hk with rfl | rfl
      · exact ⟨_, chars_star_append _⟩
      · exact ⟨_, chars_doubleStar_append _⟩

/-- Texts and stars are read as they are written, behind the parts that are read already. -/
theorem parseLoop_writtenAll {gs : List Glob} (h : Alternates gs) :
    ∀ {fuel : Nat} (cur : List Glob), gs.length ≤ fuel →
      parseLoop fuel (writtenAll gs).chars [] cur = .ok (.sequence (cur.reverse ++ gs)) := by
  induction gs with
  | nil =>
    intro fuel cur _
    rw [List.append_nil]
    exact parseLoop_nil fuel cur
  | cons g gs ih =>
    intro fuel cur hfuel
    obtain ⟨fuel, rfl⟩ : ∃ n, fuel = n + 1 :=
      ⟨fuel - 1, by rw [List.length_cons] at hfuel; omega⟩
    have hrest := ih h.tail (g :: cur) (Nat.le_of_succ_le_succ hfuel)
    rw [List.reverse_cons, List.append_assoc, List.singleton_append] at hrest
    rw [writtenAll, List.flatMap_cons, ← writtenAll, ← hrest]
    rcases isPart_cases (h.isPart g List.mem_cons_self) with hstar | ⟨x, hx, rfl⟩
    · rcases isStar_iff.mp hstar with rfl | rfl
      · rw [written, chars_star_append, parseLoop_any (chars_writtenAll_of_star h hstar)]
      · rw [written, chars_doubleStar_append, parseLoop]
    · rw [written, Text.chars_append_of_isUtf8 hx.isUtf8,
        parseLoop_text (chars_writtenAll_of_text h) hx]

/-- There are at least as many characters as parts. -/
theorem length_le_length_chars {gs : List Glob} (h : Alternates gs) :
    gs.length ≤ (writtenAll gs).chars.length := by
  induction gs with
  | nil => exact Nat.zero_le _
  | cons g gs ih =>
    have hle := ih h.tail
    rw [writtenAll, List.flatMap_cons, ← writtenAll, List.length_cons]
    rcases isPart_cases (h.isPart g List.mem_cons_self) with hstar | ⟨x, hx, rfl⟩
    · rcases isStar_iff.mp hstar with rfl | rfl
      · rw [written, chars_star_append, List.length_cons]
        omega
      · rw [written, chars_doubleStar_append, List.length_cons, List.length_cons]
        omega
    · have hpos := List.length_pos_iff.mpr hx.chars_ne_nil
      rw [written, Text.chars_append_of_isUtf8 hx.isUtf8, List.length_append]
      omega

/-- **Texts and stars are read as they are written.** -/
theorem parse_writtenAll {gs : List Glob} (h : Alternates gs) :
    parse (writtenAll gs) = .ok (.sequence gs) := by
  rw [parse]
  exact parseLoop_writtenAll h [] (Nat.le_succ_of_le (length_le_length_chars h))

end Glob

end ReflectGen

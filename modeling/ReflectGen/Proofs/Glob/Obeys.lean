import ReflectGen.Proofs.Glob.Assembled

/-!
# Patterns that obey the rules

The matcher of a pattern is assembled from pieces, and what it matches is put together from pieces of
the path.  The rules cut the path into pieces likewise, but between characters and not between bytes.
For patterns with flat braces this makes no difference, as long as the matcher need not count
characters that have more than one byte.

* `Pattern.ObeysRules`: a pattern can be read, and it matches a path if the rules say so.
* `PatternPart.CountsBytes`: there is nothing to be counted but bytes.
* `PatternPart.fitsAll_tokens_iff`: the tokens of a pattern fit what the parts are meant to match.
* `Pattern.obeysRules`: patterns with flat braces obey the rules.
-/

namespace ReflectGen

/-- A slash in a text is a slash among its runes. -/
theorem slash_mem_runes_iff {t : Text} : PatternPart.slash ∈ t.runes ↔ Path.slash ∈ t := by
  constructor
  · intro h
    exact Text.mem_of_mem_chars (b := Path.slash) (by decide) (List.mem_map_of_mem h)
  · intro h
    obtain ⟨front, back, rfl⟩ := List.append_of_mem h
    rw [Text.runes_append_ascii (by decide)]
    exact List.mem_append_right _ List.mem_cons_self

/-! ## The tokens of a pattern -/

namespace Token

variable {c : Char} {q : Token} {qs : List Token}

/-- The texts of a token are made of characters that satisfy `S`. -/
def IsOver (S : Char → Prop) (q : Token) : Prop :=
  ∀ x ∈ q.texts, ∃ cs, cs ≠ [] ∧ (∀ c ∈ cs, S c) ∧ x = Text.ofChars cs

theorem IsOver.imp {S S' : Char → Prop} (h : IsOver S q) (hS : ∀ c, S c → S' c) : IsOver S' q := by
  intro x hx
  obtain ⟨cs, hne, hcs, rfl⟩ := h x hx
  exact ⟨cs, hne, fun c hc => hS c (hcs c hc), rfl⟩

/-- A character is a text in front of the tokens, or it belongs to the one that is there. -/
theorem push_cases (c : Char) (qs : List Token) :
    (∃ x rest, qs = .text x :: rest ∧ push c qs = .text (String.utf8EncodeChar c ++ x) :: rest) ∨
      (∀ q ∈ qs.head?, q.isText = false) ∧ push c qs = .text (String.utf8EncodeChar c) :: qs := by
  cases qs with
  | nil => exact .inr ⟨by simp, rfl⟩
  | cons q qs =>
    cases q with
    | text x => exact .inl ⟨x, qs, rfl, rfl⟩
    | _ => exact .inr ⟨by rintro _ ⟨⟩; rfl, rfl⟩

theorem mem_push (h : q ∈ push c qs) : q.isText = true ∨ q ∈ qs := by
  rcases push_cases c qs with ⟨x, rest, rfl, heq⟩ | ⟨-, heq⟩
  · rw [heq, List.mem_cons] at h
    exact h.imp (by rintro rfl; rfl) (List.mem_cons_of_mem _)
  · rw [heq, List.mem_cons] at h
    exact h.imp_left (by rintro rfl; rfl)

theorem isOver_push {S : Char → Prop} (hc : S c) (h : ∀ q ∈ qs, IsOver S q) :
    ∀ q ∈ push c qs, IsOver S q := by
  rcases push_cases c qs with ⟨x, rest, rfl, heq⟩ | ⟨-, heq⟩
  · rw [List.forall_mem_cons] at h
    rw [heq, List.forall_mem_cons]
    refine ⟨fun y hy => ?_, h.2⟩
    obtain ⟨cs, -, hcs, rfl⟩ := h.1 x List.mem_cons_self
    rw [List.mem_singleton.mp hy]
    exact ⟨c :: cs, List.cons_ne_nil c cs, List.forall_mem_cons.mpr ⟨hc, hcs⟩,
      (Text.ofChars_cons c cs).symm⟩
  · rw [heq, List.forall_mem_cons]
    refine ⟨fun y hy => ⟨[c], List.cons_ne_nil c [], by simpa using hc, ?_⟩, h⟩
    rw [List.mem_singleton.mp hy, Text.ofChars_cons, Text.ofChars_nil, List.append_nil]

end Token

namespace PatternPart

open Matcher (Begins FitsAll Within)
open Token (IsOver IsProper IsRow)

variable {ascii : Bool} {p : PatternPart} {ps : List PatternPart} {c : Char} {t u : Text}
  {rs : List Rune}

/-- A token is a text, or what some part is read as. -/
theorem mem_tokens {q : Token} (h : q ∈ tokens ps) :
    q.isText = true ∨ ∃ p ∈ ps, p.token = q := by
  induction ps with
  | nil => exact absurd h List.not_mem_nil
  | cons p ps ih =>
    have hrest : q ∈ tokens ps → q.isText = true ∨ ∃ p' ∈ p :: ps, p'.token = q := fun hq =>
      (ih hq).imp_right fun ⟨p', hp', heq⟩ => ⟨p', List.mem_cons_of_mem p hp', heq⟩
    cases hp : p.char? with
    | some c =>
      rw [tokens_cons_of_char? hp] at h
      exact (Token.mem_push h).elim .inl hrest
    | none =>
      rw [tokens_cons_of_char?_eq_none hp] at h
      rcases List.mem_cons.mp h with rfl | h
      · exact .inr ⟨p, List.mem_cons_self, rfl⟩
      · exact hrest h

theorem mem_writtenAll {p : PatternPart} (hp : p ∈ ps) (hc : c ∈ written p) : c ∈ writtenAll ps := by
  induction ps with
  | nil => exact absurd hp List.not_mem_nil
  | cons p' ps ih =>
    rw [writtenAll, List.mem_append]
    rcases List.mem_cons.mp hp with rfl | hp
    · exact .inl hc
    · exact .inr (ih hp)

theorem mem_writtenOthers {row : List PatternPart} {others : List (List PatternPart)}
    (hrow : row ∈ others) (hc : c ∈ writtenAll row) : c ∈ writtenOthers others := by
  induction others with
  | nil => exact absurd hrow List.not_mem_nil
  | cons row' others ih =>
    rw [writtenOthers, List.mem_append, List.mem_cons]
    rcases List.mem_cons.mp hrow with rfl | hrow
    · exact .inl (.inr hc)
    · exact .inr (ih hrow)

theorem mem_written_of_char? (h : p.char? = some c) : c ∈ written p := by
  cases p with
  | plain d =>
    obtain rfl := Option.some.inj h
    exact List.mem_cons_self
  | escaped d =>
    obtain rfl := Option.some.inj h
    exact List.mem_cons_of_mem _ List.mem_cons_self
  | _ => exact absurd h (by simp [char?])

/-- The texts of a part are made of characters that are written. -/
theorem isOver_token (h : p.isFlat = true) : IsOver (· ∈ written p) p.token := by
  cases p with
  | choice first others =>
    intro x hx
    rw [token, Token.texts, ← List.map_cons] at hx
    obtain ⟨row, hrow, rfl⟩ := List.mem_map.mp hx
    obtain ⟨hne, hliteral⟩ := rows_of_isFlat h row hrow
    refine ⟨_, ?_, fun c hc => ?_, rfl⟩
    · obtain ⟨p, row, rfl⟩ := List.exists_cons_of_ne_nil hne
      obtain ⟨c, hc, -⟩ := isLiteral_cases (hliteral p List.mem_cons_self)
      rw [List.filterMap_cons_some hc]
      exact List.cons_ne_nil _ _
    · obtain ⟨p, hp, hc⟩ := List.mem_filterMap.mp hc
      have hmem := mem_writtenAll hp (mem_written_of_char? hc)
      rw [written, List.mem_append, List.mem_cons]
      rcases List.mem_cons.mp hrow with rfl | hrow
      · exact .inl (.inr hmem)
      · exact .inr (mem_writtenOthers hrow hmem)
  | plain c =>
    intro x hx
    rw [List.mem_singleton.mp hx]
    exact ⟨[c], by simp, by simp [written], by simp⟩
  | escaped c =>
    intro x hx
    rw [List.mem_singleton.mp hx]
    exact ⟨[c], by simp, by simp [written], by simp⟩
  | _ => exact fun x hx => absurd hx List.not_mem_nil

/-- The texts of a pattern are made of characters that are written. -/
theorem isOver_tokens (h : ∀ p ∈ ps, p.isFlat = true) :
    ∀ q ∈ tokens ps, IsOver (· ∈ writtenAll ps) q := by
  induction ps with
  | nil => exact fun q hq => absurd hq List.not_mem_nil
  | cons p ps ih =>
    rw [List.forall_mem_cons] at h
    have hrest : ∀ q ∈ tokens ps, IsOver (· ∈ writtenAll (p :: ps)) q := fun q hq =>
      (ih h.2 q hq).imp fun c hc => List.mem_append_right _ hc
    cases hp : p.char? with
    | some c =>
      rw [tokens_cons_of_char? hp]
      exact Token.isOver_push (mem_writtenAll List.mem_cons_self (mem_written_of_char? hp)) hrest
    | none =>
      rw [tokens_cons_of_char?_eq_none hp, List.forall_mem_cons]
      exact ⟨(isOver_token h.1).imp fun c hc => List.mem_append_left _ hc, hrest⟩

/-- The token at the front is a star, or a text, if the part there is one. -/
theorem head?_tokens {q : Token} (h : q ∈ (tokens ps).head?) :
    ∃ p ∈ ps.head?, q.isStar = p.isStar ∧ q.isText = p.char?.isSome := by
  cases ps with
  | nil => exact absurd h (Option.not_mem_none q)
  | cons p ps =>
    refine ⟨p, rfl, ?_⟩
    cases hp : p.char? with
    | some c =>
      have hstar : p.isStar = false := by
        cases p <;> first | rfl | exact absurd hp (by simp [char?])
      rw [tokens_cons_of_char? hp] at h
      rw [hstar]
      rcases Token.push_cases c (tokens ps) with ⟨x, rest, -, heq⟩ | ⟨-, heq⟩ <;>
      · rw [heq] at h
        obtain rfl := Option.some.inj h
        exact ⟨rfl, rfl⟩
    | none =>
      rw [tokens_cons_of_char?_eq_none hp] at h
      obtain rfl := Option.some.inj h
      cases p <;> first | exact ⟨rfl, rfl⟩ | exact absurd hp (by simp [char?])

/-- In the tokens no star and no text stands beside another one. -/
theorem isChain_tokens (h : IsFlatRow ps) :
    (tokens ps).IsChain fun q r => ¬ (q.isStar = true ∧ r.isStar = true) ∧
      ¬ (q.isText = true ∧ r.isText = true) := by
  induction ps with
  | nil => exact List.IsChain.nil
  | cons p ps ih =>
    have hrest := ih h.tail
    cases hp : p.char? with
    | some c =>
      rw [tokens_cons_of_char? hp]
      rcases Token.push_cases c (tokens ps) with ⟨x, rest, hqs, heq⟩ | ⟨hhead, heq⟩
      · rw [heq]
        rw [hqs, List.isChain_cons] at hrest
        exact List.isChain_cons.mpr hrest
      · rw [heq, List.isChain_cons]
        refine ⟨fun r hr => ⟨fun hboth => absurd hboth.1 (by simp [Token.isStar]), fun hboth => ?_⟩,
          hrest⟩
        rw [hhead r hr] at hboth
        exact absurd hboth.2 (by simp)
    | none =>
      rw [tokens_cons_of_char?_eq_none hp, List.isChain_cons]
      refine ⟨fun r hr => ⟨fun hboth => ?_, fun hboth => ?_⟩, hrest⟩
      · obtain ⟨p', hp', hstar, -⟩ := head?_tokens hr
        rw [hstar] at hboth
        have hp'' : p.token.isStar = p.isStar := by cases p <;> rfl
        rw [hp''] at hboth
        exact (List.isChain_cons.mp h.stars).1 p' hp' hboth
      · cases p with
        | plain _ => exact absurd hp (by simp [char?])
        | escaped _ => exact absurd hp (by simp [char?])
        | _ => exact absurd hboth.1 (by simp [token, Token.isText])

/-! ## Counting -/

/-- Is there nothing to be counted but bytes?  The path is an ASCII text; or the pattern has no
question mark, and if it has braces, it is an ASCII text itself. -/
def CountsBytes (ps : List PatternPart) (path : Text) : Prop :=
  path.IsAscii ∨ (∀ p ∈ ps, p ≠ .single) ∧
    ((spelling ps).IsAscii ∨ ∀ p ∈ ps, ∀ first others, p ≠ .choice first others)

theorem ofChars_ne_nil {cs : List Char} (h : cs ≠ []) : Text.ofChars cs ≠ [] := by
  obtain ⟨c, cs, rfl⟩ := List.exists_cons_of_ne_nil h
  rw [Text.ofChars_cons]
  exact fun hnil => String.utf8EncodeChar_ne_nil (List.append_eq_nil_iff.mp hnil).1

/-- What is written of ASCII characters is an ASCII text. -/
theorem isAscii_of_isOver {q : Token} (hq : IsOver (· ∈ writtenAll ps) q)
    (h : (spelling ps).IsAscii) : ∀ x ∈ q.texts, x.IsAscii := by
  intro x hx b hb
  obtain ⟨cs, -, hcs, rfl⟩ := hq x hx
  obtain ⟨c, hc, hbc⟩ := List.mem_flatMap.mp hb
  exact h b (List.mem_flatMap.mpr ⟨c, hcs c hc, hbc⟩)

/-- A double star is read only where one is written. -/
theorem super_notMem_tail_tokens (h : ∀ p ∈ ps.tail, p ≠ .doubleStar) :
    Token.super ∉ (tokens ps).tail := by
  cases ps with
  | nil => exact List.not_mem_nil
  | cons p ps =>
    have hrest : Token.super ∉ tokens ps := by
      intro hmem
      rcases mem_tokens hmem with htext | ⟨p', hp', heq⟩
      · exact absurd htext (by simp [Token.isText])
      · refine h p' hp' ?_
        cases p' <;> first | rfl | exact absurd heq (by simp [token])
    cases hp : p.char? with
    | some c =>
      rw [tokens_cons_of_char? hp]
      rcases Token.push_cases c (tokens ps) with ⟨x, rest, hqs, heq⟩ | ⟨-, heq⟩
      · rw [heq]
        rw [hqs] at hrest
        exact fun hmem => hrest (List.mem_cons_of_mem _ hmem)
      · rw [heq]
        exact hrest
    | none =>
      rw [tokens_cons_of_char?_eq_none hp]
      exact hrest

/-- A question mark is read only where one is written. -/
theorem isProper_tokens (h : IsFlatRow ps) (hsingle : ∀ p ∈ ps, p = .single → ascii = true) :
    ∀ q ∈ tokens ps, IsProper ascii q := by
  intro q hq
  refine ⟨fun x hx => ?_, ?_⟩
  · obtain ⟨cs, hne, -, rfl⟩ := isOver_tokens h.isFlat q hq x hx
    exact ⟨ofChars_ne_nil hne, Text.isUtf8_ofChars cs⟩
  · rintro rfl
    rcases mem_tokens hq with htext | ⟨p, hp, heq⟩
    · exact absurd htext (by simp [Token.isText])
    · refine hsingle p hp ?_
      cases p <;> first | rfl | exact absurd heq (by simp [token])

/-- **The tokens of a pattern with flat braces** can be put together. -/
theorem isRow_tokens (h : IsFlatRow ps) (hsuper : ∀ p ∈ ps.tail, p ≠ .doubleStar)
    (hcounts : ascii = true ∨ (∀ p ∈ ps, p ≠ .single) ∧
      ((spelling ps).IsAscii ∨ ∀ p ∈ ps, ∀ first others, p ≠ .choice first others)) :
    IsRow ascii (tokens ps) where
  isProper := isProper_tokens h fun p hp hsingle =>
    hcounts.resolve_right fun hnone => hnone.1 p hp hsingle
  counts := by
    refine hcounts.imp_right fun hnone => hnone.2.imp ?_ fun hchoice q hq => ?_
    · exact fun hascii q hq => isAscii_of_isOver (isOver_tokens h.isFlat q hq) hascii
    · rcases mem_tokens hq with htext | ⟨p, hp, rfl⟩
      · cases q <;> first | rfl | exact absurd htext (by simp [Token.isText])
      · cases p <;> first | rfl | exact absurd rfl (hchoice _ hp _ _)
  turns := isChain_tokens h
  super_notMem := super_notMem_tail_tokens hsuper

/-! ## What tokens fit -/

theorem fitsAll_push_iff {qs : List Token} :
    FitsAll ((Token.push c qs).map Token.matcher) t ↔
      ∃ rest, t = String.utf8EncodeChar c ++ rest ∧ FitsAll (qs.map Token.matcher) rest := by
  rcases Token.push_cases c qs with ⟨x, qs, rfl, heq⟩ | ⟨-, heq⟩
  · rw [heq]
    constructor
    · rintro ⟨_, rest, rfl, hu, hrest⟩
      obtain rfl := Matcher.fits_text_iff.mp hu
      exact ⟨x ++ rest, by rw [List.append_assoc], x, rest, rfl, Matcher.fits_text_iff.mpr rfl, hrest⟩
    · rintro ⟨_, rfl, _, rest, rfl, hu, hrest⟩
      obtain rfl := Matcher.fits_text_iff.mp hu
      exact ⟨_, rest, by rw [List.append_assoc], Matcher.fits_text_iff.mpr rfl, hrest⟩
  · rw [heq]
    constructor
    · rintro ⟨_, rest, rfl, hu, hrest⟩
      obtain rfl := Matcher.fits_text_iff.mp hu
      exact ⟨rest, rfl, hrest⟩
    · rintro ⟨rest, rfl, hrest⟩
      exact ⟨_, rest, rfl, Matcher.fits_text_iff.mpr rfl, hrest⟩

/-- A part that stands for a character. -/
theorem denotesAll_char_iff (h : p.char? = some c) :
    DenotesAll (p :: ps) rs ↔ ∃ rest, rs = .char c :: rest ∧ DenotesAll ps rest := by
  have hp : ∀ piece, Denotes p piece ↔ piece = [.char c] := by
    intro piece
    cases p with
    | plain d =>
      obtain rfl := Option.some.inj h
      rw [Denotes]
    | escaped d =>
      obtain rfl := Option.some.inj h
      rw [Denotes]
    | _ => exact absurd h (by simp [char?])
  rw [DenotesAll]
  constructor
  · rintro ⟨a, rest, rfl, ha, hrest⟩
    rw [(hp a).mp ha]
    exact ⟨rest, rfl, hrest⟩
  · rintro ⟨rest, rfl, hrest⟩
    exact ⟨_, rest, rfl, (hp _).mpr rfl, hrest⟩

/-- A row of characters matches its characters. -/
theorem denotesAll_row_iff {row : List PatternPart} (h : ∀ p ∈ row, p.isLiteral true = true) :
    DenotesAll row rs ↔ rs = (row.filterMap char?).map .char := by
  induction row generalizing rs with
  | nil => rw [DenotesAll, List.filterMap_nil, List.map_nil]
  | cons p row ih =>
    rw [List.forall_mem_cons] at h
    obtain ⟨c, hc, -⟩ := isLiteral_cases h.1
    rw [denotesAll_char_iff hc, List.filterMap_cons_some hc, List.map_cons]
    constructor
    · rintro ⟨rest, rfl, hrest⟩
      rw [(ih h.2).mp hrest]
    · rintro rfl
      exact ⟨_, rfl, (ih h.2).mpr rfl⟩

/-- The runes of a text are the characters of a row if the text is that of the row. -/
theorem runes_eq_iff {row : List PatternPart} :
    u.runes = (row.filterMap char?).map .char ↔ u = rowText row := by
  constructor
  · intro hu
    rw [← Text.ofRunes_runes u, hu, Text.ofRunes_map_char, rowText]
  · rintro rfl
    exact Text.runes_ofChars _

theorem denotesSome_iff {others : List (List PatternPart)} :
    DenotesSome others rs ↔ ∃ row ∈ others, DenotesAll row rs := by
  induction others with
  | nil => simp [DenotesSome]
  | cons row others ih => simp [DenotesSome, ih]

theorem fits_choice_iff {first : Text} {others : List Text} :
    (Token.choice first others).matcher.Fits u ↔ u ∈ first :: others := by
  rcases Token.matcher_choice_cases first others with ⟨heq, hsame⟩ | ⟨heq, -⟩
  · rw [heq, Matcher.fits_text_iff, List.mem_cons]
    exact (or_iff_left_of_imp fun hu => hsame u hu).symm
  · rw [heq, Matcher.fits_choice_iff]

/-- Braces match the characters of their rows. -/
theorem denotes_choice_iff {first : List PatternPart} {others : List (List PatternPart)}
    (h : (PatternPart.choice first others).isFlat = true) :
    Denotes (.choice first others) rs ↔
      ∃ row ∈ first :: others, rs = (row.filterMap char?).map .char := by
  have hrows := rows_of_isFlat h
  have hsome : Denotes (.choice first others) rs ↔ ∃ row ∈ first :: others, DenotesAll row rs := by
    rw [Denotes, denotesSome_iff]
    simp
  rw [hsome]
  exact exists_congr fun row => and_congr_right fun hrow => denotesAll_row_iff (hrows row hrow).2

/-- A token fits the pieces that the part is meant to match. -/
theorem fits_token_iff (hp : p.char? = none) (hflat : p.isFlat = true)
    (hsingle : p = .single → u.IsAscii) : p.token.matcher.Fits u ↔ Denotes p u.runes := by
  cases p with
  | plain _ => exact absurd hp (by simp [char?])
  | escaped _ => exact absurd hp (by simp [char?])
  | single =>
    have hu := hsingle rfl
    rw [token, Token.matcher, Matcher.fits_single_iff hu, Denotes, hu.runes_eq]
    constructor
    · rintro ⟨b, rfl, hb⟩
      refine ⟨_, rfl, fun heq => hb ?_⟩
      exact (Matcher.ofNat_eq_separator_iff (hu b List.mem_cons_self)).mp (Rune.char.inj heq)
    · rintro ⟨r, hr, hslash⟩
      obtain ⟨b, rfl, rfl⟩ := List.map_eq_singleton_iff.mp hr
      refine ⟨b, rfl, fun heq => hslash ?_⟩
      rw [heq]
      rfl
  | star =>
    rw [token, Token.matcher, Matcher.fits_iff_accepts rfl, Matcher.accepts_any_iff, Denotes,
      slash_mem_runes_iff]
  | doubleStar => exact iff_of_true ⟨rfl, fun _ hn => absurd hn (Option.not_mem_none _)⟩ trivial
  | choice first others =>
    rw [token, fits_choice_iff, denotes_choice_iff hflat, ← List.map_cons, List.mem_map]
    refine exists_congr fun row => and_congr_right fun _ => ?_
    rw [runes_eq_iff, eq_comm]

/-- A path is cut between two characters: at both sides of a choice, since its texts are made of
characters, and behind a star or a question mark, since something begins there. -/
theorem runes_append_of_fitsAll (hp : p.char? = none) (h : IsFlatRow (p :: ps))
    (hsingle : ∀ p' ∈ p :: ps, p' = .single → ascii = true) {rest : Text}
    (hchoice : (∀ first others, p ≠ .choice first others) ∨ u.isUtf8 = true)
    (hrest : Within ascii rest) (hfits : FitsAll ((tokens ps).map Token.matcher) rest) :
    (u ++ rest).runes = u.runes ++ rest.runes := by
  rcases hchoice with hchoice | hutf
  · have hproper := isProper_tokens h hsingle
    have hturns := isChain_tokens h
    rw [tokens_cons_of_char?_eq_none hp] at hproper hturns
    refine Matcher.runes_append_of_begins (Token.eq_nil_or_begins hproper (fun r hr => ?_) ?_ hrest
      hfits)
    · exact ((List.isChain_cons.mp hturns).1 r hr).1
    · cases p with
      | plain _ => exact absurd hp (by simp [char?])
      | escaped _ => exact absurd hp (by simp [char?])
      | single => exact .inr rfl
      | star => exact .inl rfl
      | doubleStar => exact .inl rfl
      | choice first others => exact absurd rfl (hchoice first others)
  · rw [← Text.isUtf8_iff.mp hutf, Text.runes_ofChars_append, Text.runes_ofChars]

/-- What is left of the runes of a text, and is meant to match, are the bytes that are left of the
text, and they fit. -/
theorem fitsAll_ofRunes {a b : List Rune} (ht : Within ascii t) (hcut : t.runes = a ++ b)
    (hiff : ∀ {t : Text}, Within ascii t →
      (FitsAll ((tokens ps).map Token.matcher) t ↔ DenotesAll ps t.runes)) (hb : DenotesAll ps b) :
    t = Text.ofRunes a ++ Text.ofRunes b ∧ Within ascii (Text.ofRunes b) ∧
      FitsAll ((tokens ps).map Token.matcher) (Text.ofRunes b) := by
  have hbytes : t = Text.ofRunes a ++ Text.ofRunes b := by
    rw [← Text.ofRunes_append, ← hcut, Text.ofRunes_runes]
  have hwithin : Within ascii (Text.ofRunes b) := by
    rw [hbytes] at ht
    exact ht.right
  rw [← Text.runes_ofRunes_of_runes_eq_append hcut] at hb
  exact ⟨hbytes, hwithin, (hiff hwithin).mpr hb⟩

/-- A part that stands for no character, in front of parts whose tokens fit what they are meant to
match. -/
theorem fitsAll_part_iff (hp : p.char? = none) (h : IsFlatRow (p :: ps))
    (hsingle : ∀ p' ∈ p :: ps, p' = .single → ascii = true)
    (hiff : ∀ {t : Text}, Within ascii t →
      (FitsAll ((tokens ps).map Token.matcher) t ↔ DenotesAll ps t.runes))
    (ht : Within ascii t) :
    FitsAll ((p.token :: tokens ps).map Token.matcher) t ↔ DenotesAll (p :: ps) t.runes := by
  have hflat := h.isFlat p List.mem_cons_self
  have hfits : ∀ {u : Text}, Within ascii u → (p.token.matcher.Fits u ↔ Denotes p u.runes) :=
    fun hu => fits_token_iff hp hflat fun heq => hu (hsingle p List.mem_cons_self heq)
  constructor
  · rintro ⟨u, rest, rfl, hu, hrest⟩
    refine ⟨u.runes, rest.runes, ?_, (hfits ht.left).mp hu, (hiff ht.right).mp hrest⟩
    refine runes_append_of_fitsAll hp h hsingle ?_ ht.right hrest
    by_cases hchoice : ∃ first others, p = .choice first others
    · obtain ⟨first, others, rfl⟩ := hchoice
      obtain ⟨row, -, hrow⟩ := (denotes_choice_iff hflat).mp ((hfits ht.left).mp hu)
      rw [runes_eq_iff.mp hrow]
      exact .inr (Text.isUtf8_ofChars _)
    · exact .inl fun first others heq => hchoice ⟨first, others, heq⟩
  · rintro ⟨a, b, hcut, ha, hb⟩
    obtain ⟨hbytes, hwithin, hrest⟩ := fitsAll_ofRunes ht hcut hiff hb
    have hrunes : (Text.ofRunes a).runes = a := by
      by_cases hchoice : ∃ first others, p = .choice first others
      · obtain ⟨first, others, rfl⟩ := hchoice
        obtain ⟨row, -, rfl⟩ := (denotes_choice_iff hflat).mp ha
        rw [Text.ofRunes_map_char, Text.runes_ofChars]
      · have hsplit := runes_append_of_fitsAll (u := Text.ofRunes a) hp h hsingle
          (.inl fun first others heq => hchoice ⟨first, others, heq⟩) hwithin hrest
        rw [← hbytes, hcut, Text.runes_ofRunes_of_runes_eq_append hcut,
          List.append_cancel_right_eq] at hsplit
        exact hsplit.symm
    refine ⟨Text.ofRunes a, Text.ofRunes b, hbytes, ?_, hrest⟩
    rw [hbytes] at ht
    rwa [hfits ht.left, hrunes]

/-- **Tokens fit what the parts are meant to match.**  The induction is on the parts. -/
theorem fitsAll_tokens_iff (h : IsFlatRow ps) (hsingle : ∀ p ∈ ps, p = .single → ascii = true) :
    ∀ {t : Text}, Within ascii t →
      (FitsAll ((tokens ps).map Token.matcher) t ↔ DenotesAll ps t.runes) := by
  induction ps with
  | nil =>
    intro t _
    rw [DenotesAll]
    refine ⟨fun ht => ?_, fun ht => ?_⟩
    · rw [show t = [] from ht, Text.runes_nil]
    · rw [← Text.ofRunes_runes t, ht]
      rfl
  | cons p ps ih =>
    intro t ht
    have hiff := @ih h.tail fun p' hp' => hsingle p' (List.mem_cons_of_mem p hp')
    cases hp : p.char? with
    | some c =>
      rw [tokens_cons_of_char? hp, fitsAll_push_iff, denotesAll_char_iff hp]
      constructor
      · rintro ⟨rest, rfl, hrest⟩
        exact ⟨rest.runes, Text.runes_utf8EncodeChar_append c rest, (hiff ht.right).mp hrest⟩
      · rintro ⟨b, hcut, hb⟩
        have hcut' : t.runes = [.char c] ++ b := hcut
        obtain ⟨hbytes, -, hrest⟩ := fitsAll_ofRunes ht hcut' hiff hb
        refine ⟨Text.ofRunes b, ?_, hrest⟩
        rw [hbytes]
        simp [Text.ofRunes, Rune.bytes]
    | none =>
      rw [tokens_cons_of_char?_eq_none hp]
      exact fitsAll_part_iff hp h hsingle hiff ht

end PatternPart

namespace Pattern

open PatternPart (CountsBytes DenotesAll IsFlatRow spelling)

/-- The pattern can be read, and its matcher does on this path what the rules say. -/
def ObeysRules (ps : List PatternPart) (path : Text) : Prop :=
  ∃ g, Glob.parse (spelling ps) = .ok g ∧
    (g.compile.accepts path = true ↔ DenotesAll ps path.runes)

/-- **Patterns with flat braces obey the rules**, as long as there is nothing to be counted but
bytes.  A double star may stand at the front. -/
theorem obeysRules {ps : List PatternPart} {path : Text} (h : IsFlatRow ps)
    (hsuper : ∀ p ∈ ps.tail, p ≠ .doubleStar) (hcounts : CountsBytes ps path) (hne : path ≠ []) :
    ObeysRules ps path := by
  refine ⟨_, PatternPart.parse_spelling h, ?_⟩
  obtain ⟨ascii, hwithin, hrow⟩ : ∃ ascii, Matcher.Within ascii path ∧
      (ascii = true ∨ (∀ p ∈ ps, p ≠ .single) ∧
        ((spelling ps).IsAscii ∨ ∀ p ∈ ps, ∀ first others, p ≠ .choice first others)) := by
    rcases hcounts with hpath | hnone
    · exact ⟨true, fun _ => hpath, .inl rfl⟩
    · exact ⟨false, fun hfalse => absurd hfalse (by simp), .inr hnone⟩
  rw [Token.accepts_compile_iff (PatternPart.isRow_tokens h hsuper hrow) hwithin hne]
  refine PatternPart.fitsAll_tokens_iff h (fun p hp hsingle => ?_) hwithin
  exact hrow.resolve_right fun hnone => hnone.1 p hp hsingle

end Pattern

end ReflectGen

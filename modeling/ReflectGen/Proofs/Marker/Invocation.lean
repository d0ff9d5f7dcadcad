import ReflectGen.Marker.Classify
import ReflectGen.Proofs.Text.Utf8

/-!
# Markers that are written out

A marker is written as its token, an opening parenthesis, its arguments with commas between them and
a closing parenthesis.  Such a line is read as that marker with these arguments, as long as each
argument could stand alone: it has no blanks at its ends, no character in it ends an argument, and
it closes the brackets it opens.  Tokens, parentheses and hash signs inside the arguments play no
part, because the token in front comes first.

* `Depths.Unbroken`, `IsArgument`: texts that can stand as an argument.
* `Arguments.split_written`: arguments that are written out are read as they are.
* `Tokens.word_of_error?_eq_none`: usable tokens.
* `Marker.classify_invocation`: the line of a marker is read as that marker.
-/

namespace ReflectGen

/-! ## Texts that can stand as an argument -/

namespace Depths

/-- The depths behind a row of characters. -/
def afterAll (d : Depths) (cs : List Char) : Depths := cs.foldl after d

/-- Read from the depths `d` on, no character ends an argument: there is no closing parenthesis
outside of parentheses, and no comma outside of all brackets. -/
def Unbroken (d : Depths) (cs : List Char) : Prop :=
  ∀ front c back, cs = front ++ c :: back →
    (c = ')' → (d.afterAll front).paren ≠ 0) ∧ (c = ',' → (d.afterAll front).isTop = false)

theorem unbroken_nil (d : Depths) : d.Unbroken [] := by
  intro front c back h
  exact absurd h (by simp)

theorem unbroken_cons_iff {d : Depths} {c : Char} {cs : List Char} :
    d.Unbroken (c :: cs) ↔
      ((c = ')' → d.paren ≠ 0) ∧ (c = ',' → d.isTop = false)) ∧ (d.after c).Unbroken cs := by
  constructor
  · intro h
    refine ⟨h [] c cs rfl, fun front c' back heq => ?_⟩
    exact h (c :: front) c' back (by rw [heq]; rfl)
  · rintro ⟨hc, h⟩ front c' back heq
    cases front with
    | nil =>
      obtain ⟨rfl, -⟩ := List.cons.inj heq
      exact hc
    | cons a front =>
      obtain ⟨rfl, htail⟩ := List.cons.inj heq
      exact h front c' back htail

/-- Whether a text is unbroken can be found out character by character. -/
instance decidableUnbroken : (d : Depths) → (cs : List Char) → Decidable (d.Unbroken cs)
  | d, [] => .isTrue (unbroken_nil d)
  | d, c :: cs =>
    have := decidableUnbroken (d.after c) cs
    decidable_of_iff' _ unbroken_cons_iff

end Depths

/-- The text can stand as an argument of a marker: it is not empty, it has no blanks at its ends, it
is UTF-8 on one line, and, read on its own, it is unbroken and leaves no bracket open. -/
structure IsArgument (t : Text) : Prop where
  ne_nil : t ≠ []
  trimmed : t.trim = t
  utf8 : t.isUtf8 = true
  oneLine : 0x0A ∉ t
  unbroken : Depths.Unbroken {} t.chars
  balanced : Depths.afterAll {} t.chars = {}

theorem isArgument_iff {t : Text} : IsArgument t ↔
    t ≠ [] ∧ t.trim = t ∧ t.isUtf8 = true ∧ 0x0A ∉ t ∧ Depths.Unbroken {} t.chars ∧
      Depths.afterAll {} t.chars = {} :=
  ⟨fun h => ⟨h.ne_nil, h.trimmed, h.utf8, h.oneLine, h.unbroken, h.balanced⟩,
    fun ⟨h₁, h₂, h₃, h₄, h₅, h₆⟩ => ⟨h₁, h₂, h₃, h₄, h₅, h₆⟩⟩

instance (t : Text) : Decidable (IsArgument t) := decidable_of_iff' _ isArgument_iff

/-! ## Arguments that are written out -/

/-- Trimming characters as runes is trimming them as characters. -/
theorem trimBy_map_char (cs : List Char) :
    Text.trimBy (Rune.isCharWith isBlank) (cs.map Rune.char) = (trimChars cs).map Rune.char := by
  simp only [Text.trimBy, trimChars, List.dropWhile_map, ← List.map_reverse]
  rfl

/-- Trimming a text of characters is trimming its characters. -/
theorem Text.trim_ofChars (cs : List Char) : (ofChars cs).trim = ofChars (trimChars cs) := by
  rw [trim, runes_ofChars, trimBy_map_char, ofRunes, List.flatMap_map]
  rfl

theorem IsArgument.trimChars_eq {t : Text} (h : IsArgument t) : trimChars t.chars = t.chars := by
  have htrim := congrArg Text.chars (Text.trim_ofChars t.chars)
  rw [Text.isUtf8_iff.mp h.utf8, h.trimmed, Text.chars_ofChars] at htrim
  exact htrim.symm

/-- A space in front of an argument is trimmed with the other blanks. -/
theorem trimChars_space_cons (cs : List Char) : trimChars (' ' :: cs) = trimChars cs := by
  rw [trimChars, Text.trimBy, List.dropWhile_cons_of_pos (by decide)]
  rfl

namespace Arguments

/-- Unbroken characters go to the current argument. -/
theorem loop_append {p rest : List Char} : ∀ {d : Depths} {cur : List Char}
    {done : List (List Char)}, d.Unbroken p →
    loop (p ++ rest) d cur done = loop rest (d.afterAll p) (p.reverse ++ cur) done := by
  induction p with
  | nil => exact fun _ => rfl
  | cons c p ih =>
    intro d cur done h
    obtain ⟨⟨hparen, hcomma⟩, hrest⟩ := Depths.unbroken_cons_iff.mp h
    have hclose : ¬ (c == ')' && d.paren == 0) = true := by
      simpa using hparen
    have hcut : ¬ (c == ',' && d.isTop) = true := by
      simpa using hcomma
    rw [List.cons_append, loop, if_neg hclose, if_neg hcut, ih hrest]
    simp [Depths.afterAll]

/-- The pieces of arguments that are written one behind the other, up to the closing parenthesis.
The induction is on the arguments that follow the current one. -/
theorem loop_written (rest : List Char) (args : List (List Char)) :
    ∀ (a cur : List Char) (done : List (List Char)),
      (∀ p ∈ a :: args, Depths.Unbroken {} p ∧ Depths.afterAll {} p = {}) →
      loop (List.intercalate [',', ' '] (a :: args) ++ ')' :: rest) {} cur done =
        (done.reverse ++ (cur.reverse ++ a) :: args.map (' ' :: ·), true) := by
  induction args with
  | nil =>
    intro a cur done h
    obtain ⟨hunbroken, hbalanced⟩ := h a List.mem_cons_self
    rw [List.intercalate_singleton, loop_append hunbroken, hbalanced, loop, if_pos (by decide)]
    simp
  | cons b args ih =>
    intro a cur done h
    obtain ⟨hunbroken, hbalanced⟩ := h a List.mem_cons_self
    have hrest := ih b [' '] ((a.reverse ++ cur).reverse :: done)
      fun p hp => h p (List.mem_cons_of_mem a hp)
    rw [List.intercalate_cons_cons, List.append_assoc, List.append_assoc, loop_append hunbroken,
      hbalanced, List.cons_append, loop, if_neg (by decide), if_pos (by decide), List.cons_append,
      loop, if_neg (by decide), if_neg (by decide), List.nil_append]
    -- a space opens no bracket
    show loop _ {} _ _ = _
    simpa using hrest

/-- The text of arguments that are written out, by its characters. -/
theorem join_eq_ofChars {args : List Text} (h : ∀ a ∈ args, IsArgument a) :
    Text.join (lit ", ") args =
      Text.ofChars (List.intercalate [',', ' '] (args.map Text.chars)) := by
  induction args with
  | nil => rfl
  | cons a args ih =>
    have ha := Text.isUtf8_iff.mp (h a List.mem_cons_self).utf8
    cases args with
    | nil => simpa [Text.join, List.intercalate_singleton] using ha.symm
    | cons b args =>
      have hrest := ih fun c hc => h c (List.mem_cons_of_mem a hc)
      rw [Text.join_cons_cons, hrest]
      simp only [List.map_cons]
      rw [List.intercalate_cons_cons, Text.ofChars_append, Text.ofChars_append, ha]
      rfl

/-- Arguments that are written out are read as they are. -/
theorem split_written {args : List Text} (hne : args ≠ []) (h : ∀ a ∈ args, IsArgument a) :
    split (Text.join (lit ", ") args ++ lit ")") = (args, true) := by
  obtain ⟨a, args, rfl⟩ := List.exists_cons_of_ne_nil hne
  have hchars : (Text.join (lit ", ") (a :: args) ++ lit ")").chars =
      List.intercalate [',', ' '] (a.chars :: args.map Text.chars) ++ [')'] := by
    rw [join_eq_ofChars h, show lit ")" = Text.ofChars [')'] from rfl, ← Text.ofChars_append,
      Text.chars_ofChars, List.map_cons]
  have hpieces := loop_written [] (args.map Text.chars) a.chars [] [] (by
    intro p hp
    rw [← List.map_cons, List.mem_map] at hp
    obtain ⟨b, hb, rfl⟩ := hp
    exact ⟨(h b hb).unbroken, (h b hb).balanced⟩)
  have hback : ∀ b ∈ a :: args, Text.ofChars (trimChars b.chars) = b := by
    intro b hb
    rw [(h b hb).trimChars_eq, Text.isUtf8_iff.mp (h b hb).utf8]
  rw [split, hchars, pieces, hpieces]
  simp only [List.reverse_nil, List.nil_append, List.map_cons, List.map_map, Prod.mk.injEq,
    List.cons.injEq, and_true]
  refine ⟨hback a List.mem_cons_self, ?_⟩
  refine (List.map_congr_left fun b hb => ?_).trans (List.map_id args)
  show Text.ofChars (trimChars (' ' :: b.chars)) = b
  rw [trimChars_space_cons]
  exact hback b (List.mem_cons_of_mem a hb)

end Arguments

/-! ## Tokens -/

theorem all_isWord_of_isIdentifier {t : Text} (h : isIdentifier t = true) :
    t.all isWord = true := by
  match t with
  | [] => rfl
  | b :: t =>
    rw [isIdentifier, Bool.and_eq_true, Bool.and_eq_true] at h
    rw [List.all_cons, h.1.1, h.2]
    rfl

namespace Tokens

/-- The token for a kind of marker. -/
def word (tokens : Tokens) : MarkerKind → Text
  | .opening => tokens.opening
  | .member => tokens.member
  | .closing => tokens.closing

/-- There is no error exactly if all tokens are identifiers and none was seen before. -/
theorem firstError?_eq_none_iff {ts : List Text} : ∀ {seen : List Text},
    firstError? seen ts = none ↔
      (∀ t ∈ ts, isIdentifier t = true) ∧ ts.Nodup ∧ ∀ t ∈ ts, t ∉ seen := by
  induction ts with
  | nil => simp [firstError?]
  | cons t ts ih =>
    intro seen
    by_cases hident : isIdentifier t = true
    · by_cases hseen : t ∈ seen
      · simp [firstError?, hident, hseen]
      · have hcontains : ¬ seen.contains t = true := mt List.contains_iff_mem.mp hseen
        rw [firstError?, if_neg (by simp [hident]), if_neg hcontains, ih]
        rw [List.forall_mem_cons, List.forall_mem_cons, List.nodup_cons]
        constructor
        · rintro ⟨hall, hnodup, hnew⟩
          refine ⟨⟨hident, hall⟩, ⟨fun hmem => hnew t hmem List.mem_cons_self, hnodup⟩, hseen, ?_⟩
          exact fun u hu hu' => hnew u hu (List.mem_cons_of_mem t hu')
        · rintro ⟨⟨-, hall⟩, ⟨hmem, hnodup⟩, -, hnew⟩
          refine ⟨hall, hnodup, fun u hu hu' => ?_⟩
          rcases List.mem_cons.mp hu' with rfl | hu'
          · exact hmem hu
          · exact hnew u hu hu'
    · simp [firstError?, hident]

/-- Usable tokens are identifiers, and a token tells its kind. -/
theorem word_of_error?_eq_none {tokens : Tokens} (h : tokens.error? = none) (k : MarkerKind) :
    isIdentifier (tokens.word k) = true ∧ tokens.kind? (tokens.word k) = some k := by
  obtain ⟨hident, hnodup, -⟩ := firstError?_eq_none_iff.mp h
  simp only [List.nodup_cons, List.mem_cons, List.not_mem_nil, or_false, not_or] at hnodup
  obtain ⟨⟨hom, hoc⟩, hmc, -⟩ := hnodup
  cases k with
  | opening => exact ⟨hident _ (by simp [word]), by simp [word, kind?]⟩
  | member => exact ⟨hident _ (by simp [word]), by simp [word, kind?, Ne.symm hom]⟩
  | closing => exact ⟨hident _ (by simp [word]), by simp [word, kind?, Ne.symm hoc, Ne.symm hmc]⟩

end Tokens

namespace Marker

/-- The invocation of a token with arguments, as it is written on a line. -/
def invocation (token : Text) (args : List Text) : Text :=
  token ++ lit "(" ++ Text.join (lit ", ") args ++ lit ")"

/-- A word in front of a parenthesis is an invocation if it is a token. -/
theorem findLoop_append {tokens : Tokens} {k : MarkerKind} {w : Text} (rest : Text)
    (hw : w.all isWord = true) : ∀ word : Text, tokens.kind? (word.reverse ++ w) = some k →
      findLoop tokens (w ++ 0x28 :: rest) word = some (k, rest) := by
  induction w with
  | nil =>
    intro word hk
    rw [List.append_nil] at hk
    rw [List.nil_append, findLoop, if_neg (by decide), hk]
    rfl
  | cons b w ih =>
    intro word hk
    rw [List.all_cons, Bool.and_eq_true] at hw
    rw [List.cons_append, findLoop, if_pos hw.1]
    exact ih hw.2 (b :: word) (by simpa using hk)

/-- A word byte is neither a space nor the sign that starts a directive. -/
theorem isSpace_of_isWord {b : UInt8} (h : isWord b = true) : isSpace b = false ∧ b ≠ 0x23 := by
  have key : ∀ n : Fin 256, isWord (UInt8.ofNat n) = true →
      isSpace (UInt8.ofNat n) = false ∧ UInt8.ofNat n ≠ 0x23 := by
    decide +kernel
  have hb := key ⟨b.toNat, UInt8.toNat_lt b⟩
  rw [UInt8.ofNat_toNat] at hb
  exact hb h

/-- A line that starts with a word is no directive. -/
theorem isDefinition_cons_of_isWord (tokens : Tokens) {b : UInt8} (h : isWord b = true) (t : Text) :
    isDefinition tokens (b :: t) = false := by
  obtain ⟨hspace, hhash⟩ := isSpace_of_isWord h
  have hskip : skipSpaces (b :: t) = b :: t := by
    rw [skipSpaces, List.dropWhile_cons_of_neg (by simp [hspace])]
  rw [isDefinition, hskip]
  split
  · next heq => exact absurd (List.cons.inj heq).1 hhash
  · rfl

/-- A token with arguments that are written out is read as that marker with these arguments. -/
theorem classify_invocation {tokens : Tokens} (htokens : tokens.error? = none) (k : MarkerKind)
    {args : List Text} (hne : args ≠ []) (h : ∀ a ∈ args, IsArgument a) :
    classify tokens (invocation (tokens.word k) args) =
      some { kind := k, args, closed := true } := by
  obtain ⟨hident, hkind⟩ := Tokens.word_of_error?_eq_none htokens k
  rw [invocation, List.append_assoc, List.append_assoc]
  generalize tokens.word k = token at hident hkind
  match token with
  | [] => exact absurd hident (by decide)
  | b :: token =>
    have hword := all_isWord_of_isIdentifier hident
    have hfirst : isWord b = true := List.all_eq_true.mp hword b List.mem_cons_self
    have hfind : findInvocation? tokens (b :: token ++ (lit "(" ++
        (Text.join (lit ", ") args ++ lit ")"))) =
          some (k, Text.join (lit ", ") args ++ lit ")") := findLoop_append _ hword [] hkind
    rw [classify, hfind, List.cons_append, isDefinition_cons_of_isWord tokens hfirst]
    simp only [Arguments.split_written hne h]
    rfl

end Marker

end ReflectGen

import Mathlib.Data.List.TakeWhile
import Mathlib.Logic.Equiv.Defs
import ReflectGen.Proofs.Marker.Invocation

/-!
# The first invocation on a line

A token is invoked at a place of a line if it stands there as a whole word, so that no word byte
comes directly before or behind it, and a parenthesis follows, with nothing but spaces between them.
A line that defines a token as a macro is no marker line; on all others the first place where a
token is invoked tells what the line is.  Tokens that start alike cause no doubt, since a token is
compared with a whole word, and so it does not matter in which order the tokens are tried.

* `Marker.Defines`, `Marker.InvokesAt`: definitions and invocations of tokens, as texts.
* `Marker.findInvocation?_cases`: what is found is the first invocation.
* `Marker.classify_leftmost`: what a line is.
-/

namespace ReflectGen

/-- A list is cut behind its first entries that satisfy `p`. -/
theorem takeWhile_dropWhile_iff {α : Type} {p : α → Bool} {l a b : List α} :
    (l.takeWhile p = a ∧ l.dropWhile p = b) ↔
      l = a ++ b ∧ (∀ x ∈ a, p x = true) ∧ ∀ x ∈ b.head?, p x = false := by
  constructor
  · rintro ⟨rfl, rfl⟩
    refine ⟨List.takeWhile_append_dropWhile.symm, fun x hx => List.mem_takeWhile_imp hx, ?_⟩
    intro x hx
    have hnot := List.head?_dropWhile_not p l
    rw [hx] at hnot
    simpa using hnot
  · rintro ⟨rfl, ha, hb⟩
    rw [List.takeWhile_append_of_pos ha, List.dropWhile_append_of_pos ha]
    cases b with
    | nil => simp
    | cons x b =>
      have hx : ¬ p x = true := by simp [hb x rfl]
      rw [List.takeWhile_cons_of_neg hx, List.dropWhile_cons_of_neg hx, List.append_nil]
      exact ⟨rfl, rfl⟩

namespace Tokens

variable {tokens : Tokens}

/-- A word that names a kind is the token for it. -/
theorem word_of_kind?_eq_some {w : Text} {k : MarkerKind} (h : tokens.kind? w = some k) :
    w = tokens.word k := by
  unfold kind? at h
  split at h
  · next heq => rw [← Option.some.inj h, word, beq_iff_eq.mp heq]
  · split at h
    · next heq => rw [← Option.some.inj h, word, beq_iff_eq.mp heq]
    · split at h
      · next heq => rw [← Option.some.inj h, word, beq_iff_eq.mp heq]
      · exact absurd h (by simp)

/-- Tokens that are identifiers and differ from each other are usable. -/
theorem error?_eq_none (hident : ∀ k, isIdentifier (tokens.word k) = true)
    (hdistinct : Function.Injective tokens.word) : tokens.error? = none := by
  have hne : ∀ k k', k ≠ k' → tokens.word k ≠ tokens.word k' := fun _ _ hk heq =>
    hk (hdistinct heq)
  refine firstError?_eq_none_iff.mpr ⟨?_, ?_, by simp⟩
  · simp only [List.forall_mem_cons, List.not_mem_nil, IsEmpty.forall_iff, implies_true, and_true]
    exact ⟨hident .opening, hident .member, hident .closing⟩
  · simp only [List.nodup_cons, List.mem_cons, List.not_mem_nil, or_false, not_or,
      not_false_eq_true, List.nodup_nil, and_true]
    exact ⟨⟨hne .opening .member (by decide), hne .opening .closing (by decide)⟩,
      hne .member .closing (by decide)⟩

/-- A usable token is told by its word. -/
theorem kind?_eq_some_iff (h : tokens.error? = none) {w : Text} {k : MarkerKind} :
    tokens.kind? w = some k ↔ w = tokens.word k := by
  refine ⟨word_of_kind?_eq_some, ?_⟩
  rintro rfl
  exact (word_of_error?_eq_none h k).2

end Tokens

namespace Marker

variable {tokens : Tokens} {line t rest : Text} {i : Nat} {k : MarkerKind}

/-! ## Definitions and invocations -/

/-- The line starts with a directive that defines a token as a macro. -/
def Defines (tokens : Tokens) (line : Text) : Prop :=
  ∃ lead gap sep k rest,
    line = lead ++ [0x23] ++ gap ++ lit "define" ++ sep ++ tokens.word k ++ rest ∧
    (∀ b ∈ lead, isSpace b = true) ∧ (∀ b ∈ gap, isSpace b = true) ∧
    (sep ≠ [] ∧ ∀ b ∈ sep, isSpace b = true) ∧ ∀ b ∈ rest.head?, isWord b = false

/-- At the place `i` stands the token for `k` as a whole word, and behind it, and behind spaces, a
parenthesis that is followed by `rest`. -/
def InvokesAt (tokens : Tokens) (line : Text) (i : Nat) (k : MarkerKind) (rest : Text) : Prop :=
  ∃ front back spaces, line = front ++ tokens.word k ++ back ∧ front.length = i ∧
    (∀ b ∈ front.getLast?, isWord b = false) ∧ (∀ b ∈ back.head?, isWord b = false) ∧
    back = spaces ++ 0x28 :: rest ∧ ∀ b ∈ spaces, isSpace b = true

/-- What follows the spaces in front of a text. -/
theorem skipSpaces_append {spaces u : Text} (hspaces : ∀ b ∈ spaces, isSpace b = true)
    (hu : ∀ b ∈ u.head?, isSpace b = false) : skipSpaces (spaces ++ u) = u :=
  (takeWhile_dropWhile_iff.mpr ⟨rfl, hspaces, hu⟩).2

theorem exists_spaces {u : Text} (h : skipSpaces t = u) :
    ∃ spaces, t = spaces ++ u ∧ ∀ b ∈ spaces, isSpace b = true := by
  obtain ⟨heq, hspaces, -⟩ := takeWhile_dropWhile_iff.mp ⟨rfl, h⟩
  exact ⟨_, heq, hspaces⟩

/-! ## Looking for the first invocation -/

/-- The invocation in front of a text. -/
def leading? (tokens : Tokens) (t : Text) : Option (MarkerKind × Text) :=
  match tokens.kind? (t.takeWhile isWord), skipSpaces (t.dropWhile isWord) with
  | some k, 0x28 :: rest => some (k, rest)
  | _, _ => none

/-- A token and a parenthesis lead the text, or they do not. -/
theorem leading?_cases (tokens : Tokens) (t : Text) :
    (∃ k rest, tokens.kind? (t.takeWhile isWord) = some k ∧
      skipSpaces (t.dropWhile isWord) = 0x28 :: rest ∧ leading? tokens t = some (k, rest)) ∨
    (∀ k rest, tokens.kind? (t.takeWhile isWord) = some k →
      skipSpaces (t.dropWhile isWord) ≠ 0x28 :: rest) ∧ leading? tokens t = none := by
  unfold leading?
  split
  · next k rest hkind hskip => exact .inl ⟨k, rest, hkind, hskip, rfl⟩
  · next hnone => exact .inr ⟨hnone, rfl⟩

/-- What stands at the beginning of a text is found there. -/
theorem leading?_eq_some_iff (htokens : tokens.error? = none) :
    leading? tokens t = some (k, rest) ↔ InvokesAt tokens t 0 k rest := by
  constructor
  · intro h
    rcases leading?_cases tokens t with ⟨k', rest', hkind, hskip, heq⟩ | ⟨-, heq⟩
    · obtain ⟨rfl, rfl⟩ := Prod.mk.inj (Option.some.inj (heq.symm.trans h))
      obtain ⟨heq, -, hback⟩ := takeWhile_dropWhile_iff.mp
        ⟨Tokens.word_of_kind?_eq_some hkind, rfl⟩
      exact ⟨[], _, _, heq, rfl, by simp, hback, (exists_spaces hskip).choose_spec⟩
    · exact absurd (heq.symm.trans h) (by simp)
  · rintro ⟨front, back, spaces, rfl, hfront, -, hback, hparen, hspaces⟩
    obtain ⟨hident, hkind⟩ := Tokens.word_of_error?_eq_none htokens k
    have hword := List.all_eq_true.mp (all_isWord_of_isIdentifier hident)
    rw [List.length_eq_zero_iff] at hfront
    obtain ⟨htake, hdrop⟩ := takeWhile_dropWhile_iff.mpr ⟨rfl, hword, hback⟩
    have hhead : ∀ b ∈ (0x28 :: rest).head?, isSpace b = false := by
      rintro b ⟨⟩
      decide
    rw [hfront, List.nil_append, leading?, htake, hdrop, hkind, hparen,
      skipSpaces_append hspaces hhead]
    rfl

/-- An invocation at a place is one in front of what follows, and no word ends there. -/
theorem invokesAt_iff :
    InvokesAt tokens line i k rest ↔
      i ≤ line.length ∧ (∀ b ∈ (line.take i).getLast?, isWord b = false) ∧
        InvokesAt tokens (line.drop i) 0 k rest := by
  constructor
  · rintro ⟨front, back, spaces, rfl, rfl, hfront, h⟩
    rw [List.append_assoc, List.take_left, List.drop_left, List.length_append]
    exact ⟨Nat.le_add_right _ _, hfront, [], back, spaces, rfl, rfl, by simp, h⟩
  · rintro ⟨hi, hfront, front', back, spaces, hdrop, hnil, -, h⟩
    rw [List.length_eq_zero_iff] at hnil
    refine ⟨line.take i, back, spaces, ?_, List.length_take_of_le hi, hfront, h⟩
    have hline := (List.take_append_drop i line).symm
    rw [hdrop, hnil, List.nil_append, ← List.append_assoc] at hline
    exact hline

/-- No word ends at the end of a text. -/
theorem noWord_getLast?_iff :
    (∀ b ∈ t.getLast?, isWord b = false) ↔ t.getLast?.any isWord = false :=
  (Option.any_eq_false isWord t.getLast?).symm

/-- An invocation is told by its place. -/
theorem InvokesAt.unique (htokens : tokens.error? = none) {k' : MarkerKind} {rest' : Text}
    (h : InvokesAt tokens line i k rest) (h' : InvokesAt tokens line i k' rest') :
    k = k' ∧ rest = rest' := by
  have hlead := (leading?_eq_some_iff htokens).mpr (invokesAt_iff.mp h).2.2
  have hlead' := (leading?_eq_some_iff htokens).mpr (invokesAt_iff.mp h').2.2
  exact Prod.mk.inj (Option.some.inj (hlead.symm.trans hlead'))

/-- Within a word a token is invoked at most at its beginning, since inside of the word another byte
of it comes directly before. -/
theorem InvokesAt.eq_zero_of_word {w : Text} (hw : ∀ c ∈ w, isWord c = true)
    (h : InvokesAt tokens (w ++ t) i k rest) (hi : i ≤ w.length) : i = 0 := by
  by_contra hpos
  obtain ⟨-, hend, -⟩ := invokesAt_iff.mp h
  rw [List.take_append_of_le_length hi] at hend
  have hne : w.take i ≠ [] := by
    rw [← List.length_pos_iff, List.length_take]
    omega
  have hword := hw _ (List.mem_of_mem_take (List.getLast_mem hne))
  rw [hend _ (List.getLast?_eq_getLast_of_ne_nil hne)] at hword
  exact absurd hword (by simp)

/-- Behind a word and the byte after it a line is like the rest of it. -/
theorem invokesAt_add_iff {w : Text} {b : UInt8} (hb : isWord b = false) {j : Nat} :
    InvokesAt tokens (w ++ b :: t) (w.length + 1 + j) k rest ↔ InvokesAt tokens t j k rest := by
  have hbehind : (w ++ b :: t).take (w.length + 1 + j) = w ++ b :: t.take j := by
    rw [Nat.add_assoc, List.take_length_add_append, Nat.add_comm 1 j, List.take_succ_cons]
  have hdrop : (w ++ b :: t).drop (w.length + 1 + j) = t.drop j := by
    rw [Nat.add_assoc, List.drop_length_add_append, Nat.add_comm 1 j, List.drop_succ_cons]
  have hlast : (∀ c ∈ (w ++ b :: t.take j).getLast?, isWord c = false) ↔
      ∀ c ∈ (t.take j).getLast?, isWord c = false := by
    rw [List.getLast?_append_of_ne_nil _ (List.cons_ne_nil _ _), List.getLast?_cons]
    cases (t.take j).getLast? with
    | none => simp [hb]
    | some c => simp
  have hlength : w.length + 1 + j ≤ (w ++ b :: t).length ↔ j ≤ t.length := by
    rw [List.length_append, List.length_cons]
    omega
  rw [invokesAt_iff, hbehind, hdrop, hlast, hlength, ← invokesAt_iff]

/-- Words that are no token and the byte behind them are passed over. -/
theorem invokesAt_behind_word {w : Text} {b : UInt8} (hw : ∀ c ∈ w, isWord c = true)
    (hb : isWord b = false) (hlead : ∀ k rest, ¬ InvokesAt tokens (w ++ b :: t) 0 k rest) :
    InvokesAt tokens (w ++ b :: t) i k rest ↔
      ∃ j, i = w.length + 1 + j ∧ InvokesAt tokens t j k rest := by
  constructor
  · intro h
    rcases Nat.lt_or_ge w.length i with hlt | hge
    · obtain ⟨j, rfl⟩ : ∃ j, i = w.length + 1 + j := ⟨i - (w.length + 1), by omega⟩
      exact ⟨j, rfl, (invokesAt_add_iff hb).mp h⟩
    · have hzero := h.eq_zero_of_word hw hge
      rw [hzero] at h
      exact absurd h (hlead k rest)
  · rintro ⟨j, rfl, h⟩
    exact (invokesAt_add_iff hb).mpr h

/-- No token is invoked on a line that is one word. -/
theorem not_invokesAt_word (hw : ∀ c ∈ line, isWord c = true) :
    ¬ InvokesAt tokens line i k rest := by
  rintro ⟨front, back, spaces, rfl, -, -, -, rfl, -⟩
  exact absurd (hw 0x28 (by simp)) (by decide)

/-! ## The loop -/

/-- A word is read up to its end. -/
theorem findLoop_word {w : Text} (hw : ∀ c ∈ w, isWord c = true) (t : Text) : ∀ word : Text,
    findLoop tokens (w ++ t) word = findLoop tokens t (w.reverse ++ word) := by
  induction w with
  | nil => exact fun _ => rfl
  | cons c w ih =>
    intro word
    rw [List.cons_append, findLoop, if_pos (hw c List.mem_cons_self),
      ih fun d hd => hw d (List.mem_cons_of_mem c hd), List.reverse_cons, List.append_assoc]
    rfl

/-- Behind a word that is not invoked the search begins anew. -/
theorem findInvocation?_word {w : Text} {b : UInt8} (hw : ∀ c ∈ w, isWord c = true)
    (hb : isWord b = false) :
    findInvocation? tokens (w ++ b :: t) =
      (leading? tokens (w ++ b :: t)).or (findInvocation? tokens t) := by
  have hhead : ∀ c ∈ (b :: t).head?, isWord c = false := by
    rintro c ⟨⟩
    exact hb
  obtain ⟨htake, hdrop⟩ := takeWhile_dropWhile_iff.mpr ⟨rfl, hw, hhead⟩
  rw [findInvocation?, findLoop_word hw, List.append_nil, findLoop, if_neg (by simp [hb]),
    List.reverse_reverse]
  have hcases := leading?_cases tokens (w ++ b :: t)
  rw [htake, hdrop] at hcases
  rcases hcases with ⟨k, rest, hkind, hskip, hlead⟩ | ⟨hnone, hlead⟩
  · rw [hlead, hkind, hskip]
    rfl
  · rw [hlead]
    split
    · next k rest hkind hskip => exact absurd hskip (hnone k rest hkind)
    · rfl

/-- No token is invoked in front of the place `i`. -/
def NoneBefore (tokens : Tokens) (line : Text) (i : Nat) : Prop :=
  ∀ j < i, ∀ k rest, ¬ InvokesAt tokens line j k rest

/-- **The first invocation on a line is found**, or none if there is none.  The induction is on the
length of the line, which is read word by word. -/
theorem findInvocation?_cases (htokens : tokens.error? = none) (line : Text) :
    (∃ i k rest, InvokesAt tokens line i k rest ∧ NoneBefore tokens line i ∧
      findInvocation? tokens line = some (k, rest)) ∨
    (∀ i k rest, ¬ InvokesAt tokens line i k rest) ∧ findInvocation? tokens line = none := by
  induction hn : line.length using Nat.strongRecOn generalizing line with
  | ind n ih =>
    obtain ⟨hline, hw, hhead⟩ := takeWhile_dropWhile_iff.mp
      ⟨rfl, (rfl : line.dropWhile isWord = _)⟩
    generalize line.takeWhile isWord = w at hline hw
    generalize line.dropWhile isWord = back at hline hhead
    subst hline
    cases back with
    | nil =>
      rw [List.append_nil]
      refine .inr ⟨fun _ _ _ => not_invokesAt_word hw, ?_⟩
      have hloop : findLoop tokens (w ++ []) [] = none := findLoop_word hw [] []
      rw [List.append_nil] at hloop
      exact hloop
    | cons b t =>
      have hb : isWord b = false := hhead b rfl
      rw [findInvocation?_word hw hb]
      cases hlead : leading? tokens (w ++ b :: t) with
      | some found =>
        obtain ⟨k, rest⟩ := found
        refine .inl ⟨0, k, rest, (leading?_eq_some_iff htokens).mp hlead, ?_, rfl⟩
        exact fun j hj => absurd hj (Nat.not_lt_zero j)
      | none =>
        have hnone : ∀ k rest, ¬ InvokesAt tokens (w ++ b :: t) 0 k rest := by
          intro k rest h
          rw [(leading?_eq_some_iff htokens).mpr h] at hlead
          exact absurd hlead (by simp)
        have hlt : t.length < n := by
          rw [← hn, List.length_append, List.length_cons]
          omega
        rw [Option.none_or]
        rcases ih t.length hlt t rfl with ⟨i, k, rest, hinvokes, hbefore, hfind⟩ | ⟨hall, hfind⟩
        · refine .inl ⟨w.length + 1 + i, k, rest, ?_, ?_, hfind⟩
          · exact (invokesAt_behind_word hw hb hnone).mpr ⟨i, rfl, hinvokes⟩
          · intro j hj k' rest' h
            obtain ⟨j', rfl, h'⟩ := (invokesAt_behind_word hw hb hnone).mp h
            exact hbefore j' (by omega) k' rest' h'
        · refine .inr ⟨fun i k rest h => ?_, hfind⟩
          obtain ⟨j, -, h'⟩ := (invokesAt_behind_word hw hb hnone).mp h
          exact hall j k rest h'

/-! ## Definitions -/

/-- A line that is passed over defines a token. -/
theorem defines_of_isDefinition (h : isDefinition tokens line = true) : Defines tokens line := by
  unfold isDefinition at h
  split at h
  · next t hsign =>
    split at h
    · next b u hdefine =>
      obtain ⟨hb, hkind⟩ := (Bool.and_eq_true _ _).mp h
      obtain ⟨k, hk⟩ := Option.isSome_iff_exists.mp hkind
      obtain ⟨hword, -, hrest⟩ := takeWhile_dropWhile_iff.mp
        ⟨Tokens.word_of_kind?_eq_some hk, rfl⟩
      generalize (skipSpaces u).dropWhile isWord = rest at hword hrest
      obtain ⟨lead, rfl, hlead⟩ := exists_spaces hsign
      obtain ⟨gap, rfl, hgap⟩ := exists_spaces (Text.after?_eq_some_iff.mp hdefine)
      obtain ⟨sep, rfl, hsep⟩ := exists_spaces hword
      exact ⟨lead, gap, b :: sep, k, rest, by simp, hlead, hgap,
        ⟨by simp, List.forall_mem_cons.mpr ⟨hb, hsep⟩⟩, hrest⟩
    · exact absurd h (by simp)
  · exact absurd h (by simp)

/-- A line that defines a token is passed over. -/
theorem isDefinition_of_defines (htokens : tokens.error? = none) (h : Defines tokens line) :
    isDefinition tokens line = true := by
  obtain ⟨lead, gap, sep, k, rest, rfl, hlead, hgap, ⟨hne, hsep⟩, hrest⟩ := h
  obtain ⟨b, sep, rfl⟩ := List.exists_cons_of_ne_nil hne
  obtain ⟨hb, hsep⟩ := List.forall_mem_cons.mp hsep
  obtain ⟨hident, hkind⟩ := Tokens.word_of_error?_eq_none htokens k
  have hword := List.all_eq_true.mp (all_isWord_of_isIdentifier hident)
  generalize tokens.word k = token at hident hkind hword
  obtain ⟨a, token, rfl⟩ : ∃ a u, token = a :: u :=
    List.exists_cons_of_ne_nil fun hnil => by rw [hnil] at hident; exact absurd hident (by decide)
  -- neither the sign nor the two words start with a space
  have hsign : ∀ u : Text, ∀ c ∈ (0x23 :: u).head?, isSpace c = false := by
    rintro u c ⟨⟩
    decide
  have hdefine : ∀ u : Text, ∀ c ∈ (lit "define" ++ u).head?, isSpace c = false := by
    rintro u c ⟨⟩
    decide
  have htoken : ∀ c ∈ (a :: token ++ rest).head?, isSpace c = false := by
    rintro c ⟨⟩
    exact (isSpace_of_isWord (hword a List.mem_cons_self)).1
  have hline : lead ++ [0x23] ++ gap ++ lit "define" ++ b :: sep ++ a :: token ++ rest =
      lead ++ 0x23 :: (gap ++ (lit "define" ++ b :: (sep ++ (a :: token ++ rest)))) := by
    simp
  rw [hline]
  simp only [isDefinition, skipSpaces_append hlead (hsign _), skipSpaces_append hgap (hdefine _),
    Text.after?_eq_some_iff.mpr rfl, skipSpaces_append hsep htoken,
    (takeWhile_dropWhile_iff.mpr ⟨rfl, hword, hrest⟩).1, hb, hkind]
  rfl

/-- The lines that are passed over are those that define a token. -/
theorem isDefinition_iff (htokens : tokens.error? = none) :
    isDefinition tokens line = true ↔ Defines tokens line :=
  ⟨defines_of_isDefinition, isDefinition_of_defines htokens⟩

/-! ## What a line is -/

/-- A marker with its kind renamed. -/
def rename (σ : MarkerKind → MarkerKind) (m : Marker) : Marker := { m with kind := σ m.kind }

/-- A line that is no definition is what its first invocation says. -/
theorem classify_of_not_defines (htokens : tokens.error? = none) (h : ¬ Defines tokens line) :
    classify tokens line = (findInvocation? tokens line).map fun found =>
      { kind := found.1, args := (Arguments.split found.2).1,
        closed := (Arguments.split found.2).2 } := by
  have hnot : ¬ isDefinition tokens line = true := mt (isDefinition_iff htokens).mp h
  rw [classify, if_neg hnot]
  cases findInvocation? tokens line <;> rfl

/-- Words name the same kinds, renamed, when the tokens change their places. -/
theorem kind?_rename {tokens' : Tokens} (htokens : tokens.error? = none)
    (htokens' : tokens'.error? = none) (σ : Equiv.Perm MarkerKind)
    (hσ : ∀ k, tokens'.word (σ k) = tokens.word k) (w : Text) :
    tokens'.kind? w = (tokens.kind? w).map σ := by
  ext k
  rw [Tokens.kind?_eq_some_iff htokens', Option.map_eq_some_iff]
  constructor
  · intro hw
    refine ⟨σ.symm k, (Tokens.kind?_eq_some_iff htokens).mpr ?_, σ.apply_symm_apply k⟩
    rw [hw, ← hσ, σ.apply_symm_apply]
  · rintro ⟨k', hk', rfl⟩
    rw [hσ]
    exact (Tokens.kind?_eq_some_iff htokens).mp hk'

/-- The search finds the same place, whatever places the tokens have. -/
theorem findLoop_rename {tokens' : Tokens} {σ : MarkerKind → MarkerKind}
    (hkind : ∀ w, tokens'.kind? w = (tokens.kind? w).map σ) (t : Text) : ∀ word : Text,
      findLoop tokens' t word = (findLoop tokens t word).map (Prod.map σ id) := by
  induction t with
  | nil => exact fun _ => rfl
  | cons b t ih =>
    intro word
    rw [findLoop, findLoop]
    split
    · exact ih _
    · rw [hkind]
      cases tokens.kind? word.reverse with
      | none => exact ih []
      | some k =>
        rw [Option.map_some]
        split
        · next k' rest heq hparen =>
          obtain rfl := Option.some.inj heq
          rw [hparen]
          rfl
        · next hnone =>
          split
          · next k' rest heq hparen => exact (hnone (σ k) rest rfl hparen).elim
          · exact ih []

/-- When the tokens change their places, the kinds are renamed and nothing else changes. -/
theorem classify_rename {tokens' : Tokens} (htokens : tokens.error? = none)
    (htokens' : tokens'.error? = none) (σ : Equiv.Perm MarkerKind)
    (hσ : ∀ k, tokens'.word (σ k) = tokens.word k) (line : Text) :
    classify tokens' line = (classify tokens line).map (rename σ) := by
  have hkind := kind?_rename htokens htokens' σ hσ
  have hdefines : isDefinition tokens' line = isDefinition tokens line := by
    simp only [isDefinition, hkind, Option.isSome_map]
  have hfind : findInvocation? tokens' line =
      (findInvocation? tokens line).map (Prod.map σ id) := findLoop_rename hkind line []
  rw [classify, classify, hdefines, hfind]
  split
  · rfl
  · cases findInvocation? tokens line <;> rfl

/-- Of two first places neither comes before the other. -/
theorem InvokesAt.first_unique (htokens : tokens.error? = none) {i' : Nat} {k' : MarkerKind}
    {rest' : Text} (h : InvokesAt tokens line i k rest) (hbefore : NoneBefore tokens line i)
    (h' : InvokesAt tokens line i' k' rest') (hbefore' : NoneBefore tokens line i') :
    k = k' ∧ rest = rest' := by
  have hplace : i = i' := by
    rcases Nat.lt_trichotomy i i' with hlt | heq | hlt
    · exact absurd h (hbefore' i hlt k rest)
    · exact heq
    · exact absurd h' (hbefore i' hlt k' rest')
  subst hplace
  exact h.unique htokens h'

/-- **A line is what its first invocation says.**  Three identifiers that differ from each other are
usable as tokens.  A line that defines one of them is no marker line.  On another line there is no
marker exactly if no token is invoked there, and else the marker is that of the first place where
one is invoked.  The order in which the tokens are tried plays no part. -/
theorem classify_leftmost (tokens : Tokens)
    (hident : ∀ k, isIdentifier (tokens.word k) = true)
    (hdistinct : Function.Injective tokens.word) (line : Text) :
    tokens.error? = none ∧
    (Defines tokens line → classify tokens line = none) ∧
    (¬ Defines tokens line →
      (classify tokens line = none ↔ ∀ i k rest, ¬ InvokesAt tokens line i k rest) ∧
      ∀ i k rest, InvokesAt tokens line i k rest → NoneBefore tokens line i →
        classify tokens line = some
          { kind := k, args := (Arguments.split rest).1, closed := (Arguments.split rest).2 }) ∧
    ∀ (tokens' : Tokens) (σ : Equiv.Perm MarkerKind),
      (∀ k, tokens'.word (σ k) = tokens.word k) →
        classify tokens' line = (classify tokens line).map (rename σ) := by
  have htokens := Tokens.error?_eq_none hident hdistinct
  refine ⟨htokens, fun h => ?_, fun h => ?_, fun tokens' σ hσ => ?_⟩
  · rw [classify, if_pos (isDefinition_of_defines htokens h)]
  · rw [classify_of_not_defines htokens h]
    rcases findInvocation?_cases htokens line with
      ⟨i, k, rest, hinvokes, hbefore, hfind⟩ | ⟨hnone, hfind⟩
    · rw [hfind]
      refine ⟨⟨fun hnil => absurd hnil (by simp), fun hnone => ?_⟩, ?_⟩
      · exact absurd hinvokes (hnone i k rest)
      · intro i' k' rest' hinvokes' hbefore'
        obtain ⟨rfl, rfl⟩ := hinvokes.first_unique htokens hbefore hinvokes' hbefore'
        rfl
    · rw [hfind]
      exact ⟨⟨fun _ => hnone, fun _ => rfl⟩, fun i k rest h => absurd h (hnone i k rest)⟩
  · have hword : ∀ k, tokens'.word k = tokens.word (σ.symm k) := fun k => by
      rw [← hσ, σ.apply_symm_apply]
    have htokens' : tokens'.error? = none := by
      refine Tokens.error?_eq_none (fun k => ?_) fun k k' heq => ?_
      · rw [hword]
        exact hident _
      · rw [hword, hword] at heq
        exact σ.symm.injective (hdistinct heq)
    exact classify_rename htokens htokens' σ hσ line

/-- A line on which a token comes first that is a part of a longer word, and then one that has
another token as its beginning. -/
def crowdedLine : Text := lit "xVX_RF_DATA(0); VX_RF_DATA_END (a, b) VX_RF_DATA(c)"

/-- The first invocation on the line is the one at the place 16. -/
theorem classify_leftmost_crowdedLine :
    (∀ k, isIdentifier (Tokens.standard.word k) = true) ∧
      Function.Injective Tokens.standard.word ∧ ¬ Defines Tokens.standard crowdedLine ∧
      InvokesAt Tokens.standard crowdedLine 16 .closing (lit "a, b) VX_RF_DATA(c)") ∧
      NoneBefore Tokens.standard crowdedLine 16 ∧
      classify Tokens.standard crowdedLine =
        some { kind := .closing, args := [lit "a", lit "b"], closed := true } := by
  have htokens : Tokens.standard.error? = none := by decide
  have hident : ∀ k, isIdentifier (Tokens.standard.word k) = true := by
    intro k
    cases k <;> decide
  have hdistinct : Function.Injective Tokens.standard.word := by
    intro k k' heq
    have hkind := congrArg Tokens.standard.kind? heq
    rw [(Tokens.word_of_error?_eq_none htokens k).2,
      (Tokens.word_of_error?_eq_none htokens k').2] at hkind
    exact Option.some.inj hkind
  have hdefines : ¬ Defines Tokens.standard crowdedLine := by
    rw [← isDefinition_iff htokens]
    decide
  have hinvokes : InvokesAt Tokens.standard crowdedLine 16 .closing
      (lit "a, b) VX_RF_DATA(c)") :=
    invokesAt_iff.mpr ⟨by decide, noWord_getLast?_iff.mpr (by decide),
      (leading?_eq_some_iff htokens).mp (by decide)⟩
  have hbefore : NoneBefore Tokens.standard crowdedLine 16 := by
    intro j hj k rest h
    obtain ⟨-, hend, hlead⟩ := invokesAt_iff.mp h
    have hplaces : ∀ j < 16, (crowdedLine.take j).getLast?.any isWord = false →
        leading? Tokens.standard (crowdedLine.drop j) = none := by decide
    have hnone := hplaces j hj (noWord_getLast?_iff.mp hend)
    rw [(leading?_eq_some_iff htokens).mpr hlead] at hnone
    exact absurd hnone (by simp)
  refine ⟨hident, hdistinct, hdefines, hinvokes, hbefore, ?_⟩
  have hline := classify_leftmost Tokens.standard hident hdistinct crowdedLine
  rw [(hline.2.2.1 hdefines).2 16 .closing _ hinvokes hbefore]
  decide

end Marker

end ReflectGen

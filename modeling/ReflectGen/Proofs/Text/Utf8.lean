import Mathlib.Data.List.Basic
import ReflectGen.Text.Utf8

/-!
# Reading and writing characters

A text is read as a row of runes, and characters are written as bytes.  The two undo each other:
the runes of a text have the bytes of the text, and characters that are written in front of anything
are read again as they were, because the first byte of a character tells how many more belong to it.

* `Text.multibyte?_eq_some`, `Text.multibyte?_of_utf8EncodeChar`: a character of several bytes is
  read where its bytes stand, and nowhere else.
* `Text.ofRunes_runes`: reading loses nothing.
* `Text.runes_ofChars_append`: characters in front of a text.
* `Text.isUtf8_iff`: the texts without stray bytes are those of characters.
* `Text.runes_append`: in front of a byte that does not go on with a character a text can be cut;
  `Text.chars_append_ascii` for ASCII bytes.
* `Text.mem_of_mem_chars`: an ASCII character is an ASCII byte.
-/

namespace ReflectGen

namespace Text

/-! ## The bytes of one character -/

theorem isContinuation_iff {b : UInt8} :
    isContinuation b = true ↔ 0x80 ≤ b.toNat ∧ b.toNat ≤ 0xBF := by
  simp [isContinuation, UInt8.le_iff_toNat_le]

theorem scalar?_eq_some_iff {least n : Nat} {c : Char} :
    scalar? least n = some c ↔ least ≤ n ∧ c.toNat = n := by
  unfold scalar?
  by_cases hle : least ≤ n
  · rw [if_pos hle]
    by_cases hv : n.isValidChar
    · rw [dif_pos hv, Option.some.injEq]
      constructor
      · rintro rfl
        exact ⟨hle, rfl⟩
      · rintro ⟨-, rfl⟩
        rfl
    · rw [dif_neg hv]
      have hvalid : c.toNat.isValidChar := c.valid
      exact ⟨fun h => absurd h (by simp), fun h => absurd (h.2 ▸ hvalid) hv⟩
  · rw [if_neg hle]
    exact ⟨fun h => absurd h (by simp), fun h => absurd h.1 hle⟩

/-- The bytes of a character, by the number of its continuation bytes. -/
theorem utf8EncodeChar_cases (c : Char) :
    (c.toNat ≤ 0x7F ∧ ∃ b : UInt8, String.utf8EncodeChar c = [b] ∧ b.toNat = c.toNat) ∨
    (0x7F < c.toNat ∧ c.toNat ≤ 0x7FF ∧ ∃ b c₁ : UInt8, String.utf8EncodeChar c = [b, c₁] ∧
      b.toNat = c.toNat / 64 + 0xC0 ∧ c₁.toNat = c.toNat % 64 + 0x80) ∨
    (0x7FF < c.toNat ∧ c.toNat ≤ 0xFFFF ∧ ∃ b c₁ c₂ : UInt8,
      String.utf8EncodeChar c = [b, c₁, c₂] ∧ b.toNat = c.toNat / 4096 + 0xE0 ∧
      c₁.toNat = c.toNat / 64 % 64 + 0x80 ∧ c₂.toNat = c.toNat % 64 + 0x80) ∨
    (0xFFFF < c.toNat ∧ c.toNat ≤ 0x10FFFF ∧ ∃ b c₁ c₂ c₃ : UInt8,
      String.utf8EncodeChar c = [b, c₁, c₂, c₃] ∧ b.toNat = c.toNat / 262144 + 0xF0 ∧
      c₁.toNat = c.toNat / 4096 % 64 + 0x80 ∧ c₂.toNat = c.toNat / 64 % 64 + 0x80 ∧
      c₃.toNat = c.toNat % 64 + 0x80) := by
  have hmax : c.toNat ≤ 0x10FFFF := by
    have hvalid := c.valid
    have hval : c.toNat = c.val.toNat := rfl
    rcases hvalid with h | ⟨-, h⟩ <;> omega
  have hbyte : ∀ {n m : Nat}, n < 256 → n = m → (UInt8.ofNat n).toNat = m :=
    fun hlt heq => (UInt8.toNat_ofNat_of_lt' hlt).trans heq
  unfold String.utf8EncodeChar
  dsimp only
  rw [show c.val.toNat = c.toNat from rfl]
  split
  · next h => exact .inl ⟨h, _, rfl, hbyte (by omega) rfl⟩
  · split
    · next h h' =>
      refine .inr (.inl ⟨by omega, h', _, _, rfl, hbyte ?_ ?_, hbyte ?_ ?_⟩) <;> omega
    · split
      · next h h' h'' =>
        refine .inr (.inr (.inl ⟨by omega, h'', _, _, _, rfl, hbyte ?_ ?_, hbyte ?_ ?_,
          hbyte ?_ ?_⟩)) <;> omega
      · next h h' h'' =>
        refine .inr (.inr (.inr ⟨by omega, hmax, _, _, _, _, rfl, hbyte ?_ ?_, hbyte ?_ ?_,
          hbyte ?_ ?_, hbyte ?_ ?_⟩)) <;> omega

/-- A number of four digits to the base 64 and its digits. -/
theorem sextets {x y z w : Nat} (hy : y < 64) (hz : z < 64) (hw : w < 64) :
    (((x * 64 + y) * 64 + z) * 64 + w) / 262144 = x ∧
      (((x * 64 + y) * 64 + z) * 64 + w) / 4096 % 64 = y ∧
      (((x * 64 + y) * 64 + z) * 64 + w) / 64 % 64 = z ∧
      (((x * 64 + y) * 64 + z) * 64 + w) % 64 = w := by
  omega

/-- A character of several bytes is read only where its bytes stand. -/
theorem multibyte?_eq_some {b : UInt8} {rest : Text} {c : Char} {k : Nat}
    (h : multibyte? b rest = some (c, k)) :
    k ≤ rest.length ∧ String.utf8EncodeChar c = b :: rest.take k := by
  have hbytes := utf8EncodeChar_cases c
  unfold multibyte? at h
  simp only [isContinuation_iff, Bool.and_eq_true, decide_eq_true_eq, UInt8.le_iff_toNat_le,
    UInt8.reduceToNat] at h
  -- the bytes of the character have the values of those that were read
  split at h
  · next hb =>
    split at h
    · next c₁ tail =>
      split at h
      · next hc =>
        simp only [Option.map_eq_some_iff, scalar?_eq_some_iff, Prod.mk.injEq, low6] at h
        obtain ⟨_, ⟨hle, hn⟩, rfl, rfl⟩ := h
        rcases hbytes with ⟨h, -⟩ | ⟨-, -, b', c₁', e, hb', h₁⟩ | ⟨h, -⟩ | ⟨h, -⟩
        · omega
        · have hlead : b' = b := UInt8.toNat_inj.mp (by omega)
          have hlast : c₁' = c₁ := UInt8.toNat_inj.mp (by omega)
          rw [e, hlead, hlast]
          exact ⟨by simp, rfl⟩
        · omega
        · omega
      · exact absurd h (by simp)
    · exact absurd h (by simp)
  · split at h
    · next hb =>
      split at h
      · next c₁ c₂ tail =>
        split at h
        · next hc =>
          simp only [Option.map_eq_some_iff, scalar?_eq_some_iff, Prod.mk.injEq, low6] at h
          obtain ⟨_, ⟨hle, hn⟩, rfl, rfl⟩ := h
          rcases hbytes with ⟨h, -⟩ | ⟨-, h, -⟩ | ⟨-, -, b', c₁', c₂', e, hb', h₁, h₂⟩ | ⟨h, -⟩
          · omega
          · omega
          · have hlead : b' = b := UInt8.toNat_inj.mp (by omega)
            have hmid : c₁' = c₁ := UInt8.toNat_inj.mp (by omega)
            have hlast : c₂' = c₂ := UInt8.toNat_inj.mp (by omega)
            rw [e, hlead, hmid, hlast]
            exact ⟨by simp, rfl⟩
          · omega
        · exact absurd h (by simp)
      · exact absurd h (by simp)
    · split at h
      · next hb =>
        split at h
        · next c₁ c₂ c₃ tail =>
          split at h
          · next hc =>
            simp only [Option.map_eq_some_iff, scalar?_eq_some_iff, Prod.mk.injEq, low6] at h
            obtain ⟨_, ⟨hle, hn⟩, rfl, rfl⟩ := h
            rcases hbytes with ⟨h, -⟩ | ⟨-, h, -⟩ | ⟨-, h, -⟩ |
              ⟨-, -, b', c₁', c₂', c₃', e, hb', h₁, h₂, h₃⟩
            · omega
            · omega
            · omega
            · have hlt : ∀ n : Nat, n % 64 < 64 := fun n => Nat.mod_lt n (by decide)
              obtain ⟨d₀, d₁, d₂, d₃⟩ := sextets (x := b.toNat % 8) (hlt c₁.toNat) (hlt c₂.toNat)
                (hlt c₃.toNat)
              rw [← hn] at d₀ d₁ d₂ d₃
              rw [d₀] at hb'
              rw [d₁] at h₁
              rw [d₂] at h₂
              rw [d₃] at h₃
              have hlead : b' = b := UInt8.toNat_inj.mp (by omega)
              have hmid : c₁' = c₁ := UInt8.toNat_inj.mp (by omega)
              have hmid' : c₂' = c₂ := UInt8.toNat_inj.mp (by omega)
              have hlast : c₃' = c₃ := UInt8.toNat_inj.mp (by omega)
              rw [e, hlead, hmid, hmid', hlast]
              exact ⟨by simp, rfl⟩
          · exact absurd h (by simp)
        · exact absurd h (by simp)
      · exact absurd h (by simp)

/-- The bytes of a character of several bytes are read as that character. -/
theorem multibyte?_of_utf8EncodeChar {c : Char} {b : UInt8} {tail : Text} (rest : Text)
    (h : String.utf8EncodeChar c = b :: tail) (htail : tail ≠ []) :
    multibyte? b (tail ++ rest) = some (c, tail.length) := by
  simp only [multibyte?, isContinuation_iff, Bool.and_eq_true, decide_eq_true_eq,
    UInt8.le_iff_toNat_le, UInt8.reduceToNat]
  rcases utf8EncodeChar_cases c with ⟨-, b', e, -⟩ | ⟨hlo, hhi, b', c₁, e, hb, h₁⟩ |
    ⟨hlo, hhi, b', c₁, c₂, e, hb, h₁, h₂⟩ | ⟨hlo, hhi, b', c₁, c₂, c₃, e, hb, h₁, h₂, h₃⟩
  · exact absurd (List.cons.inj (h.symm.trans e)).2 htail
  · obtain ⟨rfl, rfl⟩ := List.cons.inj (h.symm.trans e)
    rw [if_pos (by omega)]
    simp only [List.cons_append, List.nil_append]
    rw [if_pos (by omega), Option.map_eq_some_iff]
    refine ⟨c, scalar?_eq_some_iff.mpr ?_, rfl⟩
    rw [low6]
    omega
  · obtain ⟨rfl, rfl⟩ := List.cons.inj (h.symm.trans e)
    rw [if_neg (by omega), if_pos (by omega)]
    simp only [List.cons_append, List.nil_append]
    rw [if_pos (by omega), Option.map_eq_some_iff]
    refine ⟨c, scalar?_eq_some_iff.mpr ?_, rfl⟩
    rw [low6, low6]
    omega
  · obtain ⟨rfl, rfl⟩ := List.cons.inj (h.symm.trans e)
    rw [if_neg (by omega), if_neg (by omega), if_pos (by omega)]
    simp only [List.cons_append, List.nil_append]
    rw [if_pos (by omega), Option.map_eq_some_iff]
    refine ⟨c, scalar?_eq_some_iff.mpr ?_, rfl⟩
    rw [low6, low6, low6]
    omega

/-! ## The first rune -/

/-- The rune in front of a text that starts with a character is that character. -/
theorem lead_of_utf8EncodeChar {c : Char} {b : UInt8} {tail : Text} (rest : Text)
    (h : String.utf8EncodeChar c = b :: tail) :
    lead b (tail ++ rest) = (.char c, tail.length) := by
  have hmulti : 0x80 ≤ b.toNat → tail ≠ [] → lead b (tail ++ rest) = (.char c, tail.length) := by
    intro hb htail
    have hlt : ¬ b < 0x80 := by
      rw [UInt8.lt_iff_toNat_lt]
      exact Nat.not_lt.mpr hb
    rw [lead, if_neg hlt, multibyte?_of_utf8EncodeChar rest h htail]
  rcases utf8EncodeChar_cases c with ⟨hlo, b', e, hb⟩ | ⟨-, -, b', _, e, hb, -⟩ |
    ⟨-, -, b', _, _, e, hb, -⟩ | ⟨-, -, b', _, _, _, e, hb, -⟩
  · obtain ⟨rfl, rfl⟩ := List.cons.inj (h.symm.trans e)
    have hlt : b < 0x80 := by
      rw [UInt8.lt_iff_toNat_lt, hb]
      exact Nat.lt_succ_of_le hlo
    rw [lead, if_pos hlt, hb, Char.ofNat_toNat]
    rfl
  all_goals
    obtain ⟨rfl, rfl⟩ := List.cons.inj (h.symm.trans e)
    exact hmulti (by omega) (by simp)

/-- An ASCII byte of a character is the whole character. -/
theorem eq_of_mem_utf8EncodeChar {c : Char} {b : UInt8} (hb : b < 0x80)
    (h : b ∈ String.utf8EncodeChar c) : c = Char.ofNat b.toNat := by
  have hlt : b.toNat < 0x80 := by simpa [UInt8.lt_iff_toNat_lt] using hb
  have hne : ∀ {x : UInt8}, 0x80 ≤ x.toNat → b ≠ x := by
    rintro x hx rfl
    omega
  rcases utf8EncodeChar_cases c with ⟨-, b', e, hb'⟩ | ⟨-, -, b', c₁, e, hb', h₁⟩ |
    ⟨-, -, b', c₁, c₂, e, hb', h₁, h₂⟩ | ⟨-, -, b', c₁, c₂, c₃, e, hb', h₁, h₂, h₃⟩
  · rw [e, List.mem_singleton] at h
    rw [h, hb', Char.ofNat_toNat]
  -- The bytes of longer characters are no ASCII bytes.
  · rw [e] at h
    simp only [List.mem_cons, List.not_mem_nil, or_false] at h
    rcases h with h | h <;> exact absurd h (hne (by omega))
  · rw [e] at h
    simp only [List.mem_cons, List.not_mem_nil, or_false] at h
    rcases h with h | h | h <;> exact absurd h (hne (by omega))
  · rw [e] at h
    simp only [List.mem_cons, List.not_mem_nil, or_false] at h
    rcases h with h | h | h | h <;> exact absurd h (hne (by omega))

/-- The rune in front of a text has the bytes that it was read from. -/
theorem bytes_lead (b : UInt8) (rest : Text) :
    (lead b rest).2 ≤ rest.length ∧ (lead b rest).1.bytes = b :: rest.take (lead b rest).2 := by
  unfold lead
  split
  · next hlt => exact ⟨Nat.zero_le _, bytes_lead_ascii hlt⟩
  · split
    · next c k h => exact multibyte?_eq_some h
    · exact ⟨Nat.zero_le _, rfl⟩

/-! ## All runes of a text -/

theorem runesLoop_eq (t : Text) : ∀ (k : Nat) (done : List Rune),
    runesLoop t k done = done.reverse ++ runes (t.drop k) := by
  induction t with
  | nil => intro k done; simp [runesLoop, runes]
  | cons b t ih =>
    intro k done
    cases k with
    | zero =>
      rw [List.drop_zero, runes, runesLoop, runesLoop, ih, ih]
      simp
    | succ k =>
      rw [runesLoop, ih, List.drop_succ_cons]

@[simp] theorem runes_nil : runes [] = [] := rfl

theorem runes_cons (b : UInt8) (t : Text) :
    runes (b :: t) = (lead b t).1 :: runes (t.drop (lead b t).2) := by
  rw [runes, runesLoop, runesLoop_eq]
  rfl

@[simp] theorem ofRunes_cons (r : Rune) (rs : List Rune) :
    ofRunes (r :: rs) = r.bytes ++ ofRunes rs := by
  rw [ofRunes, List.flatMap_cons, ← ofRunes]

/-- Reading loses nothing: a text is the row of the bytes of its runes. -/
theorem ofRunes_runes (t : Text) : ofRunes t.runes = t := by
  induction hn : t.length using Nat.strongRecOn generalizing t with
  | ind n ih =>
    cases t with
    | nil => rfl
    | cons b t =>
      obtain ⟨-, hbytes⟩ := bytes_lead b t
      have hlt : (t.drop (lead b t).2).length < n := by
        rw [← hn, List.length_drop, List.length_cons]
        omega
      rw [runes_cons, ofRunes_cons, hbytes, ih _ hlt _ rfl, List.cons_append,
        List.take_append_drop]

/-! ## Texts of characters -/

/-- A character in front of a text is read as such, whatever follows. -/
theorem runes_utf8EncodeChar_append (c : Char) (t : Text) :
    runes (String.utf8EncodeChar c ++ t) = .char c :: runes t := by
  obtain ⟨b, tail, h⟩ := List.exists_cons_of_ne_nil (String.utf8EncodeChar_ne_nil (c := c))
  rw [h, List.cons_append, runes_cons, lead_of_utf8EncodeChar t h, List.drop_left]

@[simp] theorem ofChars_nil : ofChars [] = [] := rfl

@[simp] theorem ofChars_cons (c : Char) (cs : List Char) :
    ofChars (c :: cs) = String.utf8EncodeChar c ++ ofChars cs := rfl

@[simp] theorem ofChars_append (cs cs' : List Char) :
    ofChars (cs ++ cs') = ofChars cs ++ ofChars cs' := List.flatMap_append

/-- Characters in front of a text are read one by one. -/
theorem runes_ofChars_append (cs : List Char) (t : Text) :
    runes (ofChars cs ++ t) = cs.map Rune.char ++ runes t := by
  induction cs with
  | nil => rfl
  | cons c cs ih =>
    rw [ofChars_cons, List.append_assoc, runes_utf8EncodeChar_append, ih]
    rfl

theorem runes_ofChars (cs : List Char) : runes (ofChars cs) = cs.map Rune.char := by
  have h := runes_ofChars_append cs []
  rwa [List.append_nil, runes_nil, List.append_nil] at h

/-- Writing characters and reading them gives them back. -/
@[simp] theorem chars_ofChars (cs : List Char) : chars (ofChars cs) = cs := by
  rw [chars, runes_ofChars, List.map_map]
  exact List.map_id cs

/-- The texts that are UTF-8 throughout are those of characters. -/
theorem isUtf8_iff {t : Text} : isUtf8 t = true ↔ ofChars t.chars = t := by
  constructor
  · intro h
    have hrunes : t.runes = t.chars.map Rune.char := by
      rw [chars, List.map_map]
      refine (List.map_id' t.runes).symm.trans (List.map_congr_left fun r hr => ?_)
      have hchar := List.all_eq_true.mp h r hr
      cases r with
      | char c => rfl
      | stray b => exact absurd hchar (by simp [Rune.isCharWith])
    have hback := ofRunes_runes t
    rw [hrunes, ofRunes, List.flatMap_map] at hback
    exact hback
  · intro h
    have hrunes := runes_ofChars t.chars
    rw [h] at hrunes
    rw [isUtf8, hrunes, List.all_map]
    exact List.all_eq_true.mpr fun _ _ => rfl

/-- Characters in front of a text are its first characters. -/
theorem chars_append_of_isUtf8 {s : Text} (h : isUtf8 s = true) (t : Text) :
    (s ++ t).chars = s.chars ++ t.chars := by
  have hrunes := runes_ofChars_append s.chars t
  rw [isUtf8_iff.mp h] at hrunes
  rw [chars, hrunes, List.map_append, List.map_map]
  exact congrArg (· ++ t.chars) (List.map_id _)

/-- An ASCII byte of a text is one of its characters, if the text is UTF-8 throughout. -/
theorem mem_chars_of_mem {s : Text} (h : isUtf8 s = true) {b : UInt8} (hb : b < 0x80)
    (hmem : b ∈ s) : Char.ofNat b.toNat ∈ s.chars := by
  rw [← isUtf8_iff.mp h, ofChars, List.mem_flatMap] at hmem
  obtain ⟨c, hc, hbyte⟩ := hmem
  rwa [← eq_of_mem_utf8EncodeChar hb hbyte]

/-- Texts of characters are UTF-8. -/
theorem isUtf8_ofChars (cs : List Char) : isUtf8 (ofChars cs) = true :=
  isUtf8_iff.mpr (by rw [chars_ofChars])

/-! ## ASCII bytes in a text -/

/-- An ASCII character of a text is one of its bytes. -/
theorem mem_of_mem_chars {b : UInt8} (hb : b < 0x80) {t : Text}
    (h : Char.ofNat b.toNat ∈ t.chars) : b ∈ t := by
  obtain ⟨r, hr, hchar⟩ := List.mem_map.mp h
  have hbytes : r.bytes = [b] := by
    cases r with
    | char c =>
      obtain rfl : c = Char.ofNat b.toNat := hchar
      exact bytes_lead_ascii hb
    | stray x =>
      -- a stray byte stands for the replacement character, which has three bytes
      have hreplacement : Rune.replacement = Char.ofNat b.toNat := hchar
      have hlength := congrArg List.length (bytes_lead_ascii hb)
      rw [← hreplacement, List.length_singleton] at hlength
      exact absurd hlength (by decide)
  rw [← ofRunes_runes t, ofRunes, List.mem_flatMap]
  refine ⟨r, hr, ?_⟩
  rw [hbytes]
  exact List.mem_singleton.mpr rfl

/-! ## Where a text can be cut -/

/-- A byte that does not go on with a character belongs to none that begins before it. -/
theorem multibyte?_append {b : UInt8} (hcont : isContinuation b = false) (c : UInt8) (s t : Text) :
    multibyte? c (s ++ b :: t) = multibyte? c s := by
  unfold multibyte?
  rcases s with _ | ⟨c₁, _ | ⟨c₂, _ | ⟨c₃, s⟩⟩⟩ <;> rcases t with _ | ⟨d₁, _ | ⟨d₂, t⟩⟩ <;>
    simp [hcont]

theorem lead_append {b : UInt8} (hcont : isContinuation b = false) (c : UInt8) (s t : Text) :
    lead c (s ++ b :: t) = lead c s := by
  rw [lead, lead, multibyte?_append hcont]

/-- In front of a byte that does not go on with a character a text can be cut. -/
theorem runes_append {b : UInt8} (hcont : isContinuation b = false) (s t : Text) :
    runes (s ++ b :: t) = runes s ++ runes (b :: t) := by
  induction hn : s.length using Nat.strongRecOn generalizing s with
  | ind n ih =>
    cases s with
    | nil => rfl
    | cons c s =>
      have hle := (bytes_lead c s).1
      have hlt : (s.drop (lead c s).2).length < n := by
        rw [← hn, List.length_drop, List.length_cons]
        omega
      rw [List.cons_append, runes_cons, runes_cons c s, lead_append hcont,
        List.drop_append_of_le_length hle, ih _ hlt _ rfl]
      rfl

theorem isContinuation_of_ascii {b : UInt8} (hb : b < 0x80) : isContinuation b = false := by
  rw [← Bool.not_eq_true, isContinuation_iff]
  have hlt : b.toNat < 0x80 := by simpa [UInt8.lt_iff_toNat_lt] using hb
  omega

/-- The first byte of a character does not go on with another one. -/
theorem isContinuation_of_utf8EncodeChar {c : Char} {b : UInt8} {tail : Text}
    (h : String.utf8EncodeChar c = b :: tail) : isContinuation b = false := by
  rw [← Bool.not_eq_true, isContinuation_iff]
  rcases utf8EncodeChar_cases c with ⟨hlo, b', e, hb⟩ | ⟨-, -, b', _, e, hb, -⟩ |
    ⟨-, -, b', _, _, e, hb, -⟩ | ⟨-, -, b', _, _, _, e, hb, -⟩
  all_goals
    obtain ⟨rfl, -⟩ := List.cons.inj (h.symm.trans e)
    omega

/-- An ASCII byte is read as itself, whatever stands in front of it. -/
theorem runes_append_ascii {b : UInt8} (hb : b < 0x80) (s t : Text) :
    runes (s ++ b :: t) = runes s ++ .char (Char.ofNat b.toNat) :: runes t := by
  rw [runes_append (isContinuation_of_ascii hb), runes_cons, lead, if_pos hb]
  rfl

/-- An ASCII byte cuts a text into what stands before it and behind it. -/
theorem chars_append_ascii {b : UInt8} (hb : b < 0x80) (s t : Text) :
    chars (s ++ b :: t) = chars s ++ Char.ofNat b.toNat :: chars t := by
  rw [chars, runes_append_ascii hb, List.map_append]
  rfl

/-- What is left of the runes of a text when some are taken away are the runes of what is left of
the text. -/
theorem runes_ofRunes_of_runes_eq_append {a b : List Rune} : ∀ {t : Text}, t.runes = a ++ b →
    (ofRunes b).runes = b := by
  induction a with
  | nil =>
    intro t h
    rw [List.nil_append] at h
    rw [← h, ofRunes_runes]
  | cons r a ih =>
    intro t h
    cases t with
    | nil => exact absurd h (by simp)
    | cons c t =>
      rw [runes_cons] at h
      exact ih (List.cons.inj h).2

theorem ofRunes_append (a b : List Rune) : ofRunes (a ++ b) = ofRunes a ++ ofRunes b :=
  List.flatMap_append

theorem ofRunes_map_char (cs : List Char) : ofRunes (cs.map Rune.char) = ofChars cs := by
  rw [ofRunes, List.flatMap_map]
  rfl

end Text

end ReflectGen

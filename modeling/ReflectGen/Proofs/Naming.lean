import Mathlib.Data.List.Forall2
import ReflectGen.Marker.Word
import ReflectGen.Naming
import ReflectGen.Proofs.Path

/-!
# Derived names

The output path of a source keeps the directory part and replaces the name by its stem and a suffix,
so two sources share an output path exactly if they share the directory part and the stem.

The variable that describes a type is named after it: blank characters are left out, ASCII letters
and digits stay, and every other character becomes an underscore.  So the name is an identifier
whatever the type is called, if what stands in front of it is one; and different types may get the
same name.  Whether they do can be read off the types alone: but for blank characters, they have the
same letters and digits at the same places.

* `outputPath_eq_iff`: when two sources get the same output path.
* `identifierByte?_eq`: what becomes of a character.
* `isIdentifier_descriptorName`: variable names are identifiers.
* `ShownAlike`, `descriptorName_eq_iff`: when two types get the same name.
* `InsertsBlanks`, `DifferInBlanks`: blank characters are put into a text.
* `descriptorName_laws`: the three together.
-/

namespace ReflectGen

/-! ## Output paths -/

theorem slash_notMem_stem {base : Text} (h : Path.slash ∉ base) : Path.slash ∉ stem base :=
  fun hs => h ((List.takeWhile_prefix _).mem hs)

theorem outputPath_eq (source suffix : Text) :
    outputPath source suffix = (Path.split source).1 ++ stem (Path.split source).2 ++ suffix := rfl

/-- Two sources have the same output path exactly if they lie in the same directory and their names
agree up to the first point. -/
theorem outputPath_eq_iff (p q suffix : Text) :
    outputPath p suffix = outputPath q suffix ↔
      (Path.split p).1 = (Path.split q).1 ∧ stem (Path.split p).2 = stem (Path.split q).2 := by
  constructor
  · intro h
    rw [outputPath_eq, outputPath_eq] at h
    obtain ⟨-, hp, hp'⟩ := Path.split_spec p
    obtain ⟨-, hq, hq'⟩ := Path.split_spec q
    exact Path.isDirPart_append_inj hp hq (slash_notMem_stem hp') (slash_notMem_stem hq')
      (List.append_cancel_right h)
  · rintro ⟨hd, hs⟩
    rw [outputPath_eq, outputPath_eq, hd, hs]

/-! ## Characters in variable names -/

theorem toNat_of_isAsciiAlphanumeric {c : Char} (h : isAsciiAlphanumeric c = true) :
    48 ≤ c.toNat ∧ c.toNat < 123 := by
  simp only [isAsciiAlphanumeric, Char.le_def, UInt32.le_iff_toNat_le, Bool.or_eq_true,
    Bool.and_eq_true, decide_eq_true_eq] at h
  rcases h with (⟨hlo, hhi⟩ | ⟨hlo, hhi⟩) | ⟨hlo, hhi⟩
  · exact ⟨Nat.le_trans (by decide) hlo, Nat.lt_of_le_of_lt hhi (by decide)⟩
  · exact ⟨Nat.le_trans (by decide) hlo, Nat.lt_of_le_of_lt hhi (by decide)⟩
  · exact ⟨Nat.le_trans (by decide) hlo, Nat.lt_of_le_of_lt hhi (by decide)⟩

/-- A byte of a variable name that stands for a character is in a word. -/
theorem isWord_of_identifierByte?_eq_some {c : Char} {b : UInt8} (h : identifierByte? c = some b) :
    isWord b = true := by
  have key : ∀ n : Fin 128, (Char.ofNat n == '_' || isAsciiAlphanumeric (Char.ofNat n)) = true →
      isWord (Char.ofNat n).toUInt8 = true := by
    decide
  unfold identifierByte? at h
  split at h
  · next hc =>
    obtain rfl := Option.some.inj h
    have hlt : c.toNat < 128 := by
      rw [Bool.or_eq_true, beq_iff_eq] at hc
      rcases hc with rfl | hc
      · decide
      · exact Nat.lt_trans (toNat_of_isAsciiAlphanumeric hc).2 (by decide)
    have hword := key ⟨c.toNat, hlt⟩
    rw [Char.ofNat_toNat] at hword
    exact hword hc
  · split at h
    · exact absurd h (by simp)
    · obtain rfl := Option.some.inj h
      decide

/-- The byte for a character that is not blank. -/
def identifierByte (c : Char) : UInt8 := if isAsciiAlphanumeric c then c.toUInt8 else 0x5F

theorem isBlank_of_isAsciiAlphanumeric {c : Char} (h : isAsciiAlphanumeric c = true) :
    isBlank c = false := by
  obtain ⟨hlo, hhi⟩ := toNat_of_isAsciiAlphanumeric h
  simp only [isBlank, inRanges, blankRanges, List.any_cons, List.any_nil, Bool.or_false,
    Bool.or_eq_false_iff, Bool.and_eq_false_iff, decide_eq_false_iff_not]
  omega

/-- Blank characters are left out, and every other one has a byte. -/
theorem identifierByte?_eq (c : Char) :
    identifierByte? c = if isBlank c then none else some (identifierByte c) := by
  unfold identifierByte? identifierByte
  by_cases hletter : isAsciiAlphanumeric c = true
  · rw [if_pos (by simp [hletter]), if_pos hletter,
      if_neg (by simp [isBlank_of_isAsciiAlphanumeric hletter])]
  · by_cases hline : c = '_'
    · subst hline
      decide
    · rw [if_neg (by simp [hletter, hline]), if_neg hletter]

/-- The characters of a text that are not blank. -/
def solidChars (t : Text) : List Char := t.chars.filter (!isBlank ·)

theorem descriptorName_eq (lead name : Text) :
    descriptorName lead name = lead ++ (solidChars name).map identifierByte := by
  rw [descriptorName, solidChars]
  refine congrArg (lead ++ ·) ?_
  induction name.chars with
  | nil => rfl
  | cons c cs ih =>
    rw [List.filterMap_cons, List.filter_cons, ih, identifierByte?_eq]
    cases isBlank c <;> rfl

/-! ## Identifiers -/

theorem isIdentifier_append {lead t : Text} (hlead : isIdentifier lead = true)
    (ht : ∀ b ∈ t, isWord b = true) : isIdentifier (lead ++ t) = true := by
  cases lead with
  | nil => exact absurd hlead (by decide)
  | cons b lead =>
    rw [isIdentifier, Bool.and_eq_true] at hlead
    rw [List.cons_append, isIdentifier, List.all_append, hlead.1, hlead.2]
    exact List.all_eq_true.mpr ht

/-- Behind an identifier the name of any type gives an identifier. -/
theorem isIdentifier_descriptorName {lead : Text} (h : isIdentifier lead = true) (name : Text) :
    isIdentifier (descriptorName lead name) = true := by
  refine isIdentifier_append h fun b hb => ?_
  obtain ⟨c, -, hc⟩ := List.mem_filterMap.mp hb
  exact isWord_of_identifierByte?_eq_some hc

/-! ## Types with the same variable name -/

/-- Two characters are the same, or both are shown as an underscore. -/
def ShownAlike (c d : Char) : Prop :=
  c = d ∨ isAsciiAlphanumeric c = false ∧ isAsciiAlphanumeric d = false

theorem toNat_toUInt8_of_isAsciiAlphanumeric {c : Char} (h : isAsciiAlphanumeric c = true) :
    c.toUInt8.toNat = c.toNat := by
  obtain ⟨-, hhi⟩ := toNat_of_isAsciiAlphanumeric h
  rw [Char.toUInt8, UInt32.toNat_toUInt8]
  exact Nat.mod_eq_of_lt (Nat.lt_trans hhi (by decide))

/-- No letter or digit is shown as an underscore. -/
theorem toUInt8_ne_underscore {c : Char} (h : isAsciiAlphanumeric c = true) :
    c.toUInt8 ≠ 0x5F := by
  intro heq
  have hnat : c.toNat = '_'.toNat := by
    rw [← toNat_toUInt8_of_isAsciiAlphanumeric h, heq]
    rfl
  rw [Char.toNat_inj.mp hnat] at h
  exact absurd h (by decide)

theorem identifierByte_eq_iff (c d : Char) :
    identifierByte c = identifierByte d ↔ ShownAlike c d := by
  unfold identifierByte ShownAlike
  cases hc : isAsciiAlphanumeric c with
  | true =>
    cases hd : isAsciiAlphanumeric d with
    | true =>
      simp only [if_true, Bool.true_eq_false, false_and, or_false]
      constructor
      · intro h
        have hnat := congrArg UInt8.toNat h
        rw [toNat_toUInt8_of_isAsciiAlphanumeric hc, toNat_toUInt8_of_isAsciiAlphanumeric hd] at hnat
        exact Char.toNat_inj.mp hnat
      · exact congrArg Char.toUInt8
    | false =>
      refine iff_of_false (toUInt8_ne_underscore hc) ?_
      rintro (rfl | ⟨h, -⟩)
      · exact absurd (hc.symm.trans hd) (by decide)
      · exact absurd h (by decide)
  | false =>
    cases hd : isAsciiAlphanumeric d with
    | true =>
      refine iff_of_false (Ne.symm (toUInt8_ne_underscore hd)) ?_
      rintro (rfl | ⟨-, h⟩)
      · exact absurd (hc.symm.trans hd) (by decide)
      · exact absurd h (by decide)
    | false => exact iff_of_true rfl (.inr ⟨rfl, rfl⟩)

/-- Two types get the same variable name exactly if their characters, apart from blank ones, are
shown alike, whatever stands in front. -/
theorem descriptorName_eq_iff (lead a b : Text) :
    descriptorName lead a = descriptorName lead b ↔
      List.Forall₂ ShownAlike (solidChars a) (solidChars b) := by
  rw [descriptorName_eq, descriptorName_eq, List.append_cancel_left_eq, ← List.forall₂_eq_eq_eq,
    List.forall₂_map_left_iff, List.forall₂_map_right_iff]
  simp only [identifierByte_eq_iff]

/-! ## Blank characters -/

/-- The second row of characters is the first one with blank characters put in. -/
inductive InsertsBlanks : List Char → List Char → Prop where
  | nil : InsertsBlanks [] []
  | keep (c : Char) {cs ds : List Char} (h : InsertsBlanks cs ds) :
    InsertsBlanks (c :: cs) (c :: ds)
  | blank {c : Char} (hc : isBlank c = true) {cs ds : List Char} (h : InsertsBlanks cs ds) :
    InsertsBlanks cs (c :: ds)

/-- Both texts are one row of characters with blank characters put in.  A byte that is part of no
character counts as the replacement character. -/
def DifferInBlanks (a b : Text) : Prop :=
  ∃ cs, InsertsBlanks cs a.chars ∧ InsertsBlanks cs b.chars

theorem InsertsBlanks.filter_eq {cs ds : List Char} (h : InsertsBlanks cs ds) :
    cs.filter (!isBlank ·) = ds.filter (!isBlank ·) := by
  induction h with
  | nil => rfl
  | keep c _ ih => rw [List.filter_cons, List.filter_cons, ih]
  | blank hc _ ih => rw [ih, List.filter_cons_of_neg (by simp [hc])]

theorem insertsBlanks_filter (cs : List Char) : InsertsBlanks (cs.filter (!isBlank ·)) cs := by
  induction cs with
  | nil => exact .nil
  | cons c cs ih =>
    cases hc : isBlank c with
    | true =>
      rw [List.filter_cons_of_neg (by simp [hc])]
      exact .blank hc ih
    | false =>
      rw [List.filter_cons_of_pos (by simp [hc])]
      exact .keep c ih

/-- Texts differ in blank characters exactly if they agree without them. -/
theorem differInBlanks_iff {a b : Text} : DifferInBlanks a b ↔ solidChars a = solidChars b := by
  constructor
  · rintro ⟨cs, ha, hb⟩
    exact ha.filter_eq.symm.trans hb.filter_eq
  · intro h
    refine ⟨solidChars a, insertsBlanks_filter a.chars, ?_⟩
    rw [h]
    exact insertsBlanks_filter b.chars

/-- **Variable names are identifiers, and their clashes do not depend on what stands in front.**
Behind an identifier the name of any type gives an identifier.  Two types have the same variable
name behind one text exactly if they have it behind any other: if their characters, apart from blank
ones, are shown alike.  This holds for texts that differ in blank characters only. -/
theorem descriptorName_laws :
    (∀ lead name : Text, isIdentifier lead = true →
      isIdentifier (descriptorName lead name) = true) ∧
    (∀ lead lead' a b : Text, descriptorName lead a = descriptorName lead b ↔
      descriptorName lead' a = descriptorName lead' b) ∧
    (∀ lead a b : Text, descriptorName lead a = descriptorName lead b ↔
      List.Forall₂ ShownAlike (solidChars a) (solidChars b)) ∧
    ∀ lead a b : Text, DifferInBlanks a b → descriptorName lead a = descriptorName lead b := by
  refine ⟨fun lead name h => isIdentifier_descriptorName h name, fun lead lead' a b => ?_,
    descriptorName_eq_iff, fun lead a b h => ?_⟩
  · rw [descriptorName_eq_iff, descriptorName_eq_iff]
  · rw [descriptorName_eq, descriptorName_eq, differInBlanks_iff.mp h]

/-- Blank characters of several kinds, a letter that is not ASCII, and a stray byte. -/
theorem descriptorName_laws_vecTypes :
    isIdentifier (lit "g_rf_") = true ∧
      isIdentifier (descriptorName (lit "g_rf_") (lit "Vec<é, 3>" ++ [0xFF])) = true ∧
      DifferInBlanks (lit "Vec<é,\u2003 3>") (lit "Vec <é, 3>\n") ∧
      descriptorName (lit "g_rf_") (lit "Vec<é,\u2003 3>") =
        descriptorName (lit "g_rf_") (lit "Vec <é, 3>\n") := by
  have hlead : isIdentifier (lit "g_rf_") = true := by decide
  have hblanks : DifferInBlanks (lit "Vec<é,\u2003 3>") (lit "Vec <é, 3>\n") :=
    differInBlanks_iff.mpr (by decide +kernel)
  obtain ⟨hidentifier, -, -, hsame⟩ := descriptorName_laws
  exact ⟨hlead, hidentifier _ _ hlead, hblanks, hsame _ _ _ hblanks⟩

end ReflectGen

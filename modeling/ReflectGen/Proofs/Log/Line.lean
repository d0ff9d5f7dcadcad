import ReflectGen.Log.Line
import ReflectGen.Proofs.Document.Json

/-!
# A record is one line

Whatever line feeds there are in the message of a record, in its keys and values or in the names of
groups, the line of the record has one, at its end.  A text with a line feed in it is quoted, because
a control character is unsafe, and in a quoted text every control character is an escape.

* `Text.lineFeed_notMem_quote`: quoted texts.
* `lineFeed_notMem_loggedText`, `lineFeed_notMem_loggedAttr`, `Severity.lineFeed_notMem_text`: the
  parts of a line.
* `LogRecord.exists_line_eq`: the line of a record.
-/

namespace ReflectGen

/-! ## Quoted texts -/

theorem lineFeed_notMem_utf8EncodeChar {c : Char} (h : c ≠ '\n') :
    0x0A ∉ String.utf8EncodeChar c := fun hmem =>
  h (Text.eq_of_mem_utf8EncodeChar (by decide) hmem)

namespace Text

theorem lineFeed_notMem_hex (w n : Nat) : 0x0A ∉ hex w n := by
  have hdigit : ∀ k : Fin 16, hexDigit k ≠ 0x0A := by decide
  induction w generalizing n with
  | zero => exact List.not_mem_nil
  | succ w ih =>
    rw [hex, List.mem_append, List.mem_singleton, not_or]
    exact ⟨ih (n / 16), (hdigit ⟨n % 16, Nat.mod_lt n (by decide)⟩).symm⟩

theorem lineFeed_notMem_ofInt (n : Int) : 0x0A ∉ ofInt n := by
  have hdigits : ∀ k : Nat, 0x0A ∉ ofNat k := fun k hmem =>
    absurd (isDigit_of_mem_ofNat hmem) (by decide)
  cases n with
  | ofNat n => exact hdigits n
  | negSucc n =>
    rw [ofInt, List.mem_cons, not_or]
    exact ⟨by decide, hdigits (n + 1)⟩

end Text

namespace Quoted

theorem ne_lineFeed_of_escapeLetter? {c : Char} {l : UInt8} (h : escapeLetter? c = some l) :
    l ≠ 0x0A := by
  unfold escapeLetter? at h
  split at h <;> first
    | (obtain rfl := Option.some.inj h; decide)
    | exact absurd h (by simp)

theorem lineFeed_notMem_char (c : Char) : 0x0A ∉ char c := by
  have hescape : ∀ {l : UInt8} {t : Text}, l ≠ 0x0A → 0x0A ∉ t → 0x0A ∉ 0x5C :: l :: t := by
    intro l t hl ht
    simp only [List.mem_cons, not_or]
    exact ⟨by decide, hl.symm, ht⟩
  unfold char
  split
  · next h =>
    refine hescape ?_ List.not_mem_nil
    rw [Bool.or_eq_true, beq_iff_eq, beq_iff_eq] at h
    rcases h with h | h
    · obtain rfl : c = '"' := Char.toNat_inj.mp h
      decide
    · obtain rfl : c = '\\' := Char.toNat_inj.mp h
      decide
  · split
    · next hprint =>
      refine lineFeed_notMem_utf8EncodeChar ?_
      rintro rfl
      exact absurd hprint (by decide +kernel)
    · split
      · next l hl => exact hescape (ne_lineFeed_of_escapeLetter? hl) List.not_mem_nil
      · split
        · exact hescape (by decide) (Text.lineFeed_notMem_hex 2 _)
        · split
          · exact hescape (by decide) (Text.lineFeed_notMem_hex 4 _)
          · exact hescape (by decide) (Text.lineFeed_notMem_hex 8 _)

theorem lineFeed_notMem_rune (r : Rune) : 0x0A ∉ rune r := by
  cases r with
  | char c => exact lineFeed_notMem_char c
  | stray b =>
    rw [rune]
    simp only [List.mem_cons, not_or]
    exact ⟨by decide, by decide, Text.lineFeed_notMem_hex 2 _⟩

end Quoted

/-- A quoted text has no line feed in it. -/
theorem Text.lineFeed_notMem_quote (t : Text) : 0x0A ∉ t.quote := by
  rw [quote, List.mem_append, List.mem_cons, List.mem_singleton, List.mem_flatMap]
  rintro ((h | ⟨r, -, h⟩) | h)
  · exact absurd h (by decide)
  · exact Quoted.lineFeed_notMem_rune r h
  · exact absurd h (by decide)

/-! ## The parts of a line -/

/-- A text that needs no quotes has no line feed in it. -/
theorem lineFeed_notMem_of_not_needsQuotes {t : Text} (h : needsQuotes t = false) : 0x0A ∉ t := by
  rw [needsQuotes, Bool.or_eq_false_iff, List.any_eq_false] at h
  intro hmem
  rw [← Text.ofRunes_runes t, Text.ofRunes, List.mem_flatMap] at hmem
  obtain ⟨r, hr, hbyte⟩ := hmem
  refine h.2 r hr ?_
  cases r with
  | stray b => rfl
  | char c =>
    by_cases hc : c = '\n'
    · subst hc
      decide
    · exact absurd hbyte (lineFeed_notMem_utf8EncodeChar hc)

theorem lineFeed_notMem_loggedText (t : Text) : 0x0A ∉ loggedText t := by
  unfold loggedText
  split
  · exact Text.lineFeed_notMem_quote t
  · next h => exact lineFeed_notMem_of_not_needsQuotes (Bool.eq_false_iff.mpr h)

theorem LogValue.lineFeed_notMem_logged (v : LogValue) : 0x0A ∉ v.logged := by
  cases v with
  | text t => exact lineFeed_notMem_loggedText t
  | int n => exact Text.lineFeed_notMem_ofInt n
  | bool b => cases b <;> decide
  | null => decide

theorem lineFeed_notMem_loggedAttr (a : LogAttr) : 0x0A ∉ loggedAttr a := by
  simp only [loggedAttr, List.mem_append, not_or]
  exact ⟨⟨⟨by decide, lineFeed_notMem_loggedText a.1⟩, by decide⟩, a.2.lineFeed_notMem_logged⟩

namespace Severity

theorem lineFeed_notMem_distance {name : String} (h : 0x0A ∉ lit name) (d : Int) :
    0x0A ∉ distance name d := by
  rw [distance, List.mem_append, not_or]
  refine ⟨h, ?_⟩
  split
  · exact List.not_mem_nil
  · rw [List.mem_append, not_or]
    refine ⟨?_, Text.lineFeed_notMem_ofInt d⟩
    split <;> decide

theorem lineFeed_notMem_text (s : Int) : 0x0A ∉ text s := by
  unfold text
  split
  · decide
  · split
    · exact lineFeed_notMem_distance (by decide) _
    · split
      · exact lineFeed_notMem_distance (by decide) _
      · split
        · exact lineFeed_notMem_distance (by decide) _
        · exact lineFeed_notMem_distance (by decide) _

end Severity

/-- The line of a record has one line feed, at its end. -/
theorem LogRecord.exists_line_eq (s : LogScope) (r : LogRecord) :
    ∃ front, 0x0A ∉ front ∧ r.line s = front ++ [0x0A] := by
  refine ⟨_, ?_, rfl⟩
  simp only [List.mem_append, List.mem_flatMap, not_or, not_exists, not_and]
  exact ⟨⟨⟨⟨by decide, Severity.lineFeed_notMem_text r.severity⟩, by decide⟩,
    lineFeed_notMem_loggedText r.message⟩, fun a _ => lineFeed_notMem_loggedAttr a⟩

end ReflectGen

import Mathlib.Data.List.Forall2
import ReflectGen.Proofs.Path
import ReflectGen.Proofs.Scan.Records

/-!
# Line endings

A line may end in a line feed alone, or in carriage returns and a line feed, and the last line may
end in carriage returns alone.  Which of these it is does not matter to a scan.  Only one thing
happens to the lines themselves: behind a line feed at the end of a text there is no line, but
behind carriage returns that follow it there is one.  It has no marker on it, and no marker line
comes behind it, so no number changes.

* `Source.AddsReturns`: a text with carriage returns put at the ends of its lines.
* `Source.exists_lines_of_addsReturns`: its lines.
* `Scan.markers_congr`: marker lines do not depend on the carriage returns at the ends of lines.
* `Scan.run_addsReturns`: the outcome of a scan is the same.
-/

namespace ReflectGen

namespace Source

/-- The second text is the first one with any number of carriage returns put directly in front of
each of its line feeds, and at its end. -/
inductive AddsReturns : Text → Text → Prop where
  | last {l : Text} (hl : 0x0A ∉ l) (n : Nat) : AddsReturns l (l ++ List.replicate n 0x0D)
  | line {l t t' : Text} (hl : 0x0A ∉ l) (n : Nat) (h : AddsReturns t t') :
    AddsReturns (l ++ 0x0A :: t) (l ++ List.replicate n 0x0D ++ 0x0A :: t')

/-- The second line is the first one with carriage returns behind it. -/
def LineAddsReturns (l l' : Text) : Prop := ∃ n, l' = l ++ List.replicate n 0x0D

/-! ## Lines -/

theorem lineFeed_notMem_append_replicate {l : Text} (hl : 0x0A ∉ l) (n : Nat) :
    0x0A ∉ l ++ List.replicate n 0x0D := by
  rw [List.mem_append, List.mem_replicate, not_or]
  exact ⟨hl, fun h => absurd h.2 (by decide)⟩

/-- The pieces between the line feeds get their carriage returns one by one. -/
theorem splitOn_addsReturns {t t' : Text} (h : AddsReturns t t') :
    List.Forall₂ LineAddsReturns (Text.splitOn 0x0A t) (Text.splitOn 0x0A t') := by
  induction h with
  | last hl n =>
    rw [Text.splitOn_of_notMem hl,
      Text.splitOn_of_notMem (lineFeed_notMem_append_replicate hl n)]
    exact .cons ⟨n, rfl⟩ .nil
  | line hl n _ ih =>
    rw [Text.splitOn_append, Text.splitOn_append, Text.splitOn_of_notMem hl,
      Text.splitOn_of_notMem (lineFeed_notMem_append_replicate hl n)]
    exact .cons ⟨n, rfl⟩ ih

/-- A text that ends in a line feed has no line behind it. -/
theorem lines_of_splitOn_concat_nil {t : Text} {ls : List Text}
    (h : Text.splitOn 0x0A t = ls ++ [[]]) : lines t = ls := by
  rw [lines, h]
  simp

/-- Any other text has a last line. -/
theorem lines_of_splitOn_concat {t l : Text} {ls : List Text}
    (h : Text.splitOn 0x0A t = ls ++ [l]) (hl : l ≠ []) : lines t = ls ++ [l] := by
  rw [lines, h]
  simp [hl]

/-- The lines get their carriage returns one by one, and those behind a line feed at the end of the
text are one more line. -/
theorem exists_lines_of_addsReturns {t t' : Text} (h : AddsReturns t t') :
    ∃ ls, List.Forall₂ LineAddsReturns (lines t) ls ∧
      (lines t' = ls ∨ ∃ n, lines t' = ls ++ [List.replicate n 0x0D]) := by
  have hpieces := splitOn_addsReturns h
  obtain ⟨ls, l, hls⟩ := (List.eq_nil_or_concat (Text.splitOn 0x0A t)).resolve_left
    (Text.splitLoop_ne_nil _ _ _)
  obtain ⟨ls', l', hls'⟩ := (List.eq_nil_or_concat (Text.splitOn 0x0A t')).resolve_left
    (Text.splitLoop_ne_nil _ _ _)
  rw [List.concat_eq_append] at hls hls'
  rw [hls, hls', ← List.forall₂_reverse_iff, List.reverse_concat, List.reverse_concat,
    List.forall₂_cons, List.forall₂_reverse_iff] at hpieces
  obtain ⟨⟨n, rfl⟩, hinit⟩ := hpieces
  by_cases hl : l = []
  · subst hl
    rw [List.nil_append] at hls'
    refine ⟨ls', by rwa [lines_of_splitOn_concat_nil hls], ?_⟩
    cases n with
    | zero => exact .inl (lines_of_splitOn_concat_nil hls')
    | succ n => exact .inr ⟨n + 1, lines_of_splitOn_concat hls' (by simp)⟩
  · refine ⟨ls' ++ [l ++ List.replicate n 0x0D], ?_, .inl ?_⟩
    · rw [lines_of_splitOn_concat hls hl]
      exact List.rel_append hinit (.cons ⟨n, rfl⟩ .nil)
    · exact lines_of_splitOn_concat hls' (by simp [hl])

/-- Without their carriage returns the lines are not longer. -/
theorem forall_length_lt_of_forall₂ {ls ls' : List Text} {bound : Nat}
    (h : List.Forall₂ LineAddsReturns ls ls') (hshort : ∀ l ∈ ls', l.length < bound) :
    ∀ l ∈ ls, l.length < bound := by
  induction h with
  | nil => exact fun l hl => absurd hl List.not_mem_nil
  | cons hl _ ih =>
    obtain ⟨n, rfl⟩ := hl
    rw [List.forall_mem_cons] at hshort ⊢
    refine ⟨?_, ih hshort.2⟩
    have hlength := hshort.1
    rw [List.length_append] at hlength
    omega

/-- If the text with the carriage returns can be read whole, the text without them can. -/
theorem isComplete_of_addsReturns {t t' : Text} (h : AddsReturns t t')
    (hcomplete : isComplete t' = true) : isComplete t = true := by
  rw [isComplete_iff] at hcomplete ⊢
  obtain ⟨ls, hls, hlines⟩ := exists_lines_of_addsReturns h
  refine forall_length_lt_of_forall₂ hls fun l hl => hcomplete l ?_
  rcases hlines with heq | ⟨n, heq⟩ <;> rw [heq]
  · exact hl
  · exact List.mem_append_left _ hl

/-! ## What is left of a line -/

/-- Carriage returns behind a line are not left of it. -/
theorem stripReturns_append_replicate (l : Text) (n : Nat) :
    stripReturns (l ++ List.replicate n 0x0D) = stripReturns l := by
  have hall : ∀ b ∈ List.replicate n (0x0D : UInt8), (b == 0x0D) = true := fun b hb => by
    rw [List.eq_of_mem_replicate hb]
    rfl
  rw [stripReturns, stripReturns, Text.trimRightBy, Text.trimRightBy, List.reverse_append,
    List.reverse_replicate, List.dropWhile_append_of_pos hall]

theorem map_stripReturns_of_forall₂ {ls ls' : List Text}
    (h : List.Forall₂ LineAddsReturns ls ls') : ls'.map stripReturns = ls.map stripReturns := by
  induction h with
  | nil => rfl
  | cons hl _ ih =>
    obtain ⟨n, rfl⟩ := hl
    rw [List.map_cons, List.map_cons, stripReturns_append_replicate, ih]

end Source

namespace Scan

open Source

variable {tokens : Tokens}

/-- The marker lines do not depend on the carriage returns at the ends of the lines. -/
theorem markers_congr {ls ls' : List Text} (h : ls'.map stripReturns = ls.map stripReturns) :
    markers tokens ls' = markers tokens ls := by
  have key : ∀ ls : List Text, markers tokens ls =
      ((ls.map stripReturns).zipIdx 1).filterMap fun p =>
        (Marker.classify tokens p.1).map fun marker => { number := p.2, text := p.1, marker } := by
    intro ls
    rw [List.zipIdx_map, List.filterMap_map]
    rfl
  rw [key, key, h]

/-- Carriage returns alone are no marker line. -/
theorem markerLine?_replicate (n number : Nat) :
    markerLine? tokens (List.replicate n 0x0D) number = .none := by
  have hstrip := stripReturns_append_replicate [] n
  rw [List.nil_append] at hstrip
  rw [markerLine?, hstrip]
  rfl

/-- The marker lines of a text are the same with carriage returns at the ends of its lines. -/
theorem markers_addsReturns {t t' : Text} (h : AddsReturns t t') :
    markers tokens (lines t') = markers tokens (lines t) := by
  obtain ⟨ls, hls, hlines⟩ := exists_lines_of_addsReturns h
  have hmarkers : markers tokens ls = markers tokens (lines t) :=
    markers_congr (map_stripReturns_of_forall₂ hls)
  rcases hlines with heq | ⟨n, heq⟩
  · rw [heq, hmarkers]
  · rw [heq, markers_concat, markerLine?_replicate, Option.toList_none, List.append_nil, hmarkers]

/-- **Line endings do not matter.**  With any number of carriage returns put in front of each line
feed and at its end, a text whose lines are still short enough to be read has the same scan: the
same records, the same diagnostics in the same order, and the same marker lines, from which the raw
trace is written. -/
theorem run_addsReturns (tokens : Tokens) (path : Text) {t t' : Text} (h : AddsReturns t t')
    (hshort : ∀ line ∈ lines t', line.length < maxLine) :
    run tokens path t' = run tokens path t := by
  have hcomplete' : isComplete t' = true := (isComplete_iff t').mpr hshort
  have hcomplete : isComplete t = true := isComplete_of_addsReturns h hcomplete'
  rw [run, run, hcomplete, hcomplete', readable_of_isComplete hcomplete,
    readable_of_isComplete hcomplete', markers_addsReturns h]

/-- A block whose lines end in different ways, with a blank line in it and a diagnostic behind it,
and with carriage returns behind its last line feed. -/
theorem run_addsReturns_mixedText :
    let t := lit "B(A)\n\nD(A, int, x)\nE(A)\nE(Z)\n"
    let t' := lit "B(A)\r\n\r\nD(A, int, x)\r\r\nE(A)\nE(Z)\r\n\r"
    AddsReturns t t' ∧ (∀ line ∈ lines t', line.length < maxLine) ∧
      run letterTokens (lit "a.h") t' = run letterTokens (lit "a.h") t := by
  have hadds : AddsReturns (lit "B(A)\n\nD(A, int, x)\nE(A)\nE(Z)\n")
      (lit "B(A)\r\n\r\nD(A, int, x)\r\r\nE(A)\nE(Z)\r\n\r") :=
    .line (l := lit "B(A)") (by decide) 1 <| .line (l := []) (by decide) 1 <|
    .line (l := lit "D(A, int, x)") (by decide) 2 <| .line (l := lit "E(A)") (by decide) 0 <|
    .line (l := lit "E(Z)") (by decide) 1 <| .last (l := []) (by decide) 1
  have hshort : ∀ line ∈ lines (lit "B(A)\r\n\r\nD(A, int, x)\r\r\nE(A)\nE(Z)\r\n\r"),
      line.length < maxLine := by
    decide +kernel
  exact ⟨hadds, hshort, run_addsReturns letterTokens (lit "a.h") hadds hshort⟩

end Scan

end ReflectGen

import ReflectGen.Proofs.Scan.Diagnostics
import ReflectGen.Proofs.Scan.Printed

/-!
# Which diagnostics are returned

A scan goes on behind a marker line that does not fit, so that all of them are reported in the end.
That holds for a text that is read to its end.  At a line that is too long the scan stops with the
read error in place of the diagnostics it has found by then: they are lost, while the records that
were found are kept.  So nothing is lost exactly if all lines can be read, or if there was nothing
to report in front of the first one that cannot.

* `Scan.Wraps`: a diagnostic is among the failures of a scan.
* `Scan.Keeps`: all that is reported while lines are read is among them, and so is a read error.
* `Scan.path_of_mem_diagnostics_run`: every diagnostic names the file it was found in.
* `Scan.keeps_iff`: the texts for which nothing is lost.
-/

namespace ReflectGen

namespace Scan

open Source

/-- Among the failures is a diagnostic of the fault `f` on line `n` of the file at `path`. -/
def Wraps (path : Text) (fs : List Failure) (n : Nat) (f : Fault) : Prop :=
  ∃ d, .diagnostic d ∈ fs ∧ d.path = path ∧ d.line = n ∧ d.cause.fault = f

/-- Everything that is reported while the lines in front of the first unreadable one are read is
among the failures of the scan, and the read error, if there is one, is added to it. -/
structure Keeps (tokens : Tokens) (path content : Text) : Prop where
  reported : ∀ k n f, ReportsAt tokens (readable content) k n f →
    Wraps path ((run tokens path content).failures path) n f
  readError : isComplete content = false →
    .lineTooLong path ∈ (run tokens path content).failures path

variable {tokens : Tokens} {path content : Text} {n : Nat} {f : Fault}

/-! ## The path of a diagnostic -/

theorem foldl_step_path (ls : List MarkerLine) {s : State}
    (h : ∀ d ∈ s.diagnostics, d.path = path) :
    ∀ d ∈ (ls.foldl (step path) s).diagnostics, d.path = path := by
  induction ls generalizing s with
  | nil => exact h
  | cons l ls ih =>
    refine ih fun d hd => ?_
    obtain ⟨new, hds, hnew⟩ := step_diagnostics path s l
    rw [hds, List.mem_append] at hd
    rcases hd with hd | hd
    · exact hnew d hd
    · exact h d hd

/-- Every diagnostic names the file it was found in. -/
theorem path_of_mem_diagnostics_run {d : Diagnostic}
    (h : d ∈ (run tokens path content).diagnostics) : d.path = path := by
  cases hc : isComplete content with
  | false =>
    rw [run, hc] at h
    exact absurd h List.not_mem_nil
  | true =>
    have hstates : ∀ d ∈ (states path (markers tokens (Source.lines content))).diagnostics,
        d.path = path := foldl_step_path _ fun d hd => absurd hd List.not_mem_nil
    rw [diagnostics_run hc, List.mem_reverse, finish] at h
    split at h
    · rw [report_diagnostics, List.mem_cons] at h
      rcases h with rfl | h
      · rfl
      · exact hstates d h
    · exact hstates d h

/-! ## Failures of a scan -/

/-- A text that is read whole has its diagnostics as failures. -/
theorem failures_of_isComplete (h : isComplete content = true) :
    (run tokens path content).failures path =
      (run tokens path content).diagnostics.map .diagnostic := by
  rw [failures, if_neg]
  simp [run, h]

/-- At a line that is too long the read error is the only failure. -/
theorem failures_of_not_isComplete (h : isComplete content = false) :
    (run tokens path content).failures path = [.lineTooLong path] := by
  rw [failures, if_pos]
  simp [run, h]

/-- The diagnostics of a text that is read whole are all returned, and no others. -/
theorem wraps_iff_diagnosed (h : isComplete content = true) :
    Wraps path ((run tokens path content).failures path) n f ↔
      Diagnosed tokens (Source.lines content) n f := by
  rw [← carries_run_iff tokens path h, failures_of_isComplete h]
  constructor
  · rintro ⟨d, hd, -, hline, hfault⟩
    obtain ⟨d', hd', heq⟩ := List.mem_map.mp hd
    obtain rfl := Failure.diagnostic.inj heq
    exact ⟨d', hd', hline, hfault⟩
  · rintro ⟨d, hd, hline, hfault⟩
    exact ⟨d, List.mem_map_of_mem hd, path_of_mem_diagnostics_run hd, hline, hfault⟩

/-- A text with a line that is too long has none of its diagnostics returned. -/
theorem not_wraps (h : isComplete content = false) :
    ¬ Wraps path ((run tokens path content).failures path) n f := by
  rintro ⟨d, hd, -⟩
  rw [failures_of_not_isComplete h, List.mem_singleton] at hd
  exact absurd hd (by simp)

/-- **Diagnostics are lost exactly at a read error.**  The failures of a scan have a diagnostic for
a line if the text has no line that is too long, and the line is diagnosed; they have a read error
if there is such a line.  So all that is reported while lines are read is returned, together with
the read error if there is one, exactly if all lines can be read or nothing is reported in front of
the first one that cannot. -/
theorem keeps_iff (tokens : Tokens) (path content : Text) :
    (∀ n f, Wraps path ((run tokens path content).failures path) n f ↔
      (∀ line ∈ Source.lines content, line.length < maxLine) ∧
        Diagnosed tokens (Source.lines content) n f) ∧
    (.lineTooLong path ∈ (run tokens path content).failures path ↔
      ∃ line ∈ Source.lines content, maxLine ≤ line.length) ∧
    (Keeps tokens path content ↔
      (∀ line ∈ Source.lines content, line.length < maxLine) ∨
        ∀ k n f, ¬ ReportsAt tokens (readable content) k n f) := by
  simp only [← isComplete_iff]
  cases hc : isComplete content with
  | true =>
    have hshort := (isComplete_iff content).mp hc
    refine ⟨fun n f => ?_, ?_, ?_⟩
    · rw [wraps_iff_diagnosed hc, and_iff_right rfl]
    · rw [failures_of_isComplete hc]
      refine iff_of_false ?_ ?_
      · intro hmem
        obtain ⟨d, -, hd⟩ := List.mem_map.mp hmem
        exact absurd hd (by simp)
      · rintro ⟨line, hline, hlong⟩
        exact Nat.not_lt.mpr hlong (hshort line hline)
    · refine iff_of_true ⟨fun k n f hk => ?_, fun h => ?_⟩ (.inl rfl)
      · rw [readable_of_isComplete hc] at hk
        exact (wraps_iff_diagnosed hc).mpr (.inl ⟨k, hk⟩)
      · rw [hc] at h
        exact absurd h (by simp)
  | false =>
    have hread : .lineTooLong path ∈ (run tokens path content).failures path := by
      rw [failures_of_not_isComplete hc]
      exact List.mem_singleton.mpr rfl
    refine ⟨fun n f => iff_of_false (not_wraps hc) (by simp), iff_of_true hread ?_, ?_⟩
    · have hlong := mt (isComplete_iff content).mpr (by simp [hc])
      push Not at hlong
      exact hlong
    · rw [or_iff_right (by simp)]
      constructor
      · intro hkeeps k n f hk
        exact not_wraps hc (hkeeps.reported k n f hk)
      · exact fun hnone => ⟨fun k n f hk => absurd hk (hnone k n f), fun _ => hread⟩

/-- A line with a marker that closes nothing, and a line that is too long. -/
def brokenOffLines : List Text := [lit "VX_RF_DATA_END(A)", List.replicate maxLine 0x78]

/-- The diagnostic for the first line is found, and it is not returned. -/
theorem not_keeps_brokenOffLines :
    ReportsAt .standard (readable (ofLines brokenOffLines)) 1 1 .danglingEnd ∧
      (run .standard (lit "a.h") (ofLines brokenOffLines)).failures (lit "a.h") =
        [.lineTooLong (lit "a.h")] ∧
      ¬ Keeps .standard (lit "a.h") (ofLines brokenOffLines) := by
  have hlines : Source.lines (ofLines brokenOffLines) = brokenOffLines := by
    refine lines_ofLines fun l hl => ?_
    simp only [brokenOffLines, List.mem_cons, List.not_mem_nil, or_false] at hl
    rcases hl with rfl | rfl
    · decide
    · simp [List.mem_replicate]
  have hlong : isReadable (List.replicate maxLine 0x78) = false := by
    simp [isReadable]
  have hshort : isReadable (lit "VX_RF_DATA_END(A)") = true := by decide +kernel
  have hcomplete : isComplete (ofLines brokenOffLines) = false := by
    rw [isComplete, hlines, brokenOffLines]
    simp [hlong]
  have hreadable : readable (ofLines brokenOffLines) = [lit "VX_RF_DATA_END(A)"] := by
    rw [readable, hlines, brokenOffLines, List.takeWhile_cons_of_pos hshort,
      List.takeWhile_cons_of_neg (by simp [hlong])]
  have hreports : ReportsAt .standard [lit "VX_RF_DATA_END(A)"] 1 1 .danglingEnd := by
    have hm : markerAt? .standard [lit "VX_RF_DATA_END(A)"] 1 =
        some { kind := .closing, args := [lit "A"], closed := true } := by decide +kernel
    refine (reportsAt_of_closes hm ⟨rfl, rfl, rfl, by decide⟩).mpr ⟨rfl, .inl ⟨?_, rfl⟩⟩
    rintro b p ⟨hlt, ⟨m, hb, -⟩, -⟩
    obtain rfl : b = 0 := by omega
    exact absurd hb (by simp [markerAt?])
  rw [hreadable]
  refine ⟨hreports, failures_of_not_isComplete hcomplete, fun hkeeps => ?_⟩
  exact not_wraps hcomplete (hkeeps.reported 1 1 .danglingEnd (hreadable ▸ hreports))

end Scan

end ReflectGen

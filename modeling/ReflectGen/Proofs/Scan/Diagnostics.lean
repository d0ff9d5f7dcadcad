import Mathlib.Data.List.Nodup
import ReflectGen.Proofs.Scan.Records

/-!
# The diagnostics of a text, said without a state

A diagnostic is found while one line is read and may be about another one: the line that opens a
block is reported when the next block opens, or at the end of the text.  Here both are read off the
numbered lines alone, as the records are.  No line is reported twice, because a line is about itself
or about the block that was open just before it.

* `Source.Opened`: a block is open in front of a line, and it is the only one
  (`Source.Opened.unique`).
* `Source.ReportsAt`: line `k` makes the scan report line `n`.
* `Scan.Reports`: what the diagnostics of a state have to do with the lines read so far; one more
  line keeps it (`Scan.Reports.concat`), so it holds behind all of them (`Scan.reports_states`).
* `Source.Diagnosed`, `Scan.carries_run_iff`: the diagnostics of a text.
* `Scan.State.blocks`: the blocks a state accounts for; a step adds the block it opens
  (`Scan.blocks_step`).
-/

namespace ReflectGen

/-- Every marker has one of four senses. -/
theorem Marker.sense (m : Marker) :
    (∃ p, m.Opens p) ∨ (∃ p v n, m.Describes p v n) ∨ (∃ p, m.Closes p) ∨ m.Malformed := by
  by_cases ho : ∃ p, m.Opens p
  · exact .inl ho
  by_cases hd : ∃ p v n, m.Describes p v n
  · exact .inr (.inl hd)
  by_cases hc : ∃ p, m.Closes p
  · exact .inr (.inr (.inl hc))
  refine .inr (.inr (.inr ⟨fun p h => ho ⟨p, h⟩, fun p v n h => hd ⟨p, v, n, h⟩, ?_⟩))
  exact fun p h => hc ⟨p, h⟩

namespace Source

variable {tokens : Tokens} {lines lines' : List Text} {line : Text} {b b' k k' n : Nat}
  {p q : Text} {f f' : Fault}

/-! ## The block in front of a line -/

theorem OpensAt.parent_unique (hp : OpensAt tokens lines n p) (hq : OpensAt tokens lines n q) :
    p = q := by
  obtain ⟨m, hm, hp⟩ := hp
  obtain ⟨m', hm', hq⟩ := hq
  rw [hm] at hm'
  exact hp.parent_unique (Option.some.inj hm' ▸ hq)

theorem OpensAt.not_closesAt (hp : OpensAt tokens lines n p) : ¬ ClosesAt tokens lines n q := by
  rintro ⟨m', hm', hq⟩
  obtain ⟨m, hm, hp⟩ := hp
  rw [hm] at hm'
  exact hp.not_closes (Option.some.inj hm' ▸ hq)

/-- Line `n` is a well-formed member marker for `parent`. -/
def DescribesAt (tokens : Tokens) (lines : List Text) (n : Nat) (parent : Text) : Prop :=
  ∃ m, markerAt? tokens lines n = some m ∧ ∃ valueType name, m.Describes parent valueType name

theorem DescribesAt.parent_unique (hp : DescribesAt tokens lines n p)
    (hq : DescribesAt tokens lines n q) : p = q := by
  obtain ⟨m, hm, v, name, hp⟩ := hp
  obtain ⟨m', hm', v', name', hq⟩ := hq
  rw [hm] at hm'
  exact (List.cons.inj (hp.args.symm.trans (Option.some.inj hm' ▸ hq).args)).1

theorem OpensAt.not_describesAt (hp : OpensAt tokens lines n p) :
    ¬ DescribesAt tokens lines n q := by
  rintro ⟨m', hm', v, name, hq⟩
  obtain ⟨m, hm, hp⟩ := hp
  rw [hm] at hm'
  exact hp.not_describes (Option.some.inj hm' ▸ hq)

theorem ClosesAt.not_describesAt (hp : ClosesAt tokens lines n p) :
    ¬ DescribesAt tokens lines n q := by
  rintro ⟨m', hm', v, name, hq⟩
  obtain ⟨m, hm, hp⟩ := hp
  rw [hm] at hm'
  exact hp.not_describes (Option.some.inj hm' ▸ hq)

/-- In front of line `n`, the block of `parent` is open that line `b` opens. -/
structure Opened (tokens : Tokens) (lines : List Text) (b n : Nat) (parent : Text) : Prop where
  lt : b < n
  opens : OpensAt tokens lines b parent
  clear : ∀ k, b < k → k < n → ¬ IsBoundary tokens lines k

/-- Only one block is open in front of a line. -/
theorem Opened.unique (h : Opened tokens lines b n p) (h' : Opened tokens lines b' n q) :
    b = b' ∧ p = q := by
  have hb : b = b' := by
    rcases Nat.lt_trichotomy b b' with hlt | heq | hlt
    · exact absurd ⟨q, .inl h'.opens⟩ (h.clear b' hlt h'.lt)
    · exact heq
    · exact absurd ⟨p, .inl h.opens⟩ (h'.clear b hlt h.lt)
  subst hb
  exact ⟨rfl, h.opens.parent_unique h'.opens⟩

/-- A block ends on one line only. -/
theorem Opened.end_unique (h : Opened tokens lines b n p) (h' : Opened tokens lines b k q)
    (hn : IsBoundary tokens lines n) (hk : IsBoundary tokens lines k) : n = k := by
  rcases Nat.lt_trichotomy n k with hlt | heq | hlt
  · exact absurd hn (h'.clear n h.lt hlt)
  · exact heq
  · exact absurd hk (h.clear k h'.lt hlt)

/-- Which block is open in front of a line depends on the lines before it. -/
theorem Opened.congr (hlines : ∀ i < n, markerAt? tokens lines i = markerAt? tokens lines' i)
    (h : Opened tokens lines b n p) : Opened tokens lines' b n p where
  lt := h.lt
  opens := by
    obtain ⟨m, hm, ho⟩ := h.opens
    exact ⟨m, (hlines b h.lt).symm.trans hm, ho⟩
  clear i hbi hin := by
    rintro ⟨q, ⟨m, hm, ho⟩ | ⟨m, hm, hc⟩⟩
    · exact h.clear i hbi hin ⟨q, .inl ⟨m, (hlines i hin).trans hm, ho⟩⟩
    · exact h.clear i hbi hin ⟨q, .inr ⟨m, (hlines i hin).trans hm, hc⟩⟩

theorem opened_concat (line : Text) (hn : n ≤ lines.length + 1) :
    Opened tokens (lines ++ [line]) b n p ↔ Opened tokens lines b n p := by
  have hlines : ∀ i < n, markerAt? tokens (lines ++ [line]) i = markerAt? tokens lines i :=
    fun i hi => markerAt?_concat_of_le line (by omega)
  exact ⟨Opened.congr hlines, Opened.congr fun i hi => (hlines i hi).symm⟩

/-- The pending block is the one that is open behind the last line. -/
theorem isPending_iff_opened :
    IsPending tokens lines b p ↔ Opened tokens lines b (lines.length + 1) p := by
  constructor
  · rintro ⟨hopens, hclear⟩
    exact ⟨Nat.lt_succ_of_le hopens.le_length, hopens, fun k hk _ => hclear k hk⟩
  · rintro ⟨-, hopens, hclear⟩
    exact ⟨hopens, fun k hk hb => hclear k hk (Nat.lt_succ_of_le hb.le_length) hb⟩

theorem encloses_iff_opened :
    Encloses tokens lines b n p ↔ Opened tokens lines b n p ∧ ClosesAt tokens lines n p :=
  ⟨fun h => ⟨⟨h.lt, h.opens, h.clear⟩, h.closes⟩, fun ⟨h, hc⟩ => ⟨h.lt, h.opens, hc, h.clear⟩⟩

/-! ## What a line reports -/

/-- Line `k`, which is for the type `parent`, is not in a block of that type: the fault is `outside`
if it is in none at all. -/
def Misplaced (tokens : Tokens) (lines : List Text) (k : Nat) (parent : Text)
    (outside f : Fault) : Prop :=
  (∀ b p, ¬ Opened tokens lines b k p) ∧ f = outside ∨
    ∃ b p, Opened tokens lines b k p ∧ p ≠ parent ∧ f = .parentMismatch

/-- When line `k` is read, the fault `f` is reported for line `n`: a line that opens a block reports
the one that is still open, and all other lines report themselves. -/
def ReportsAt (tokens : Tokens) (lines : List Text) (k n : Nat) (f : Fault) : Prop :=
  ∃ m, markerAt? tokens lines k = some m ∧
    (m.Malformed ∧ n = k ∧ f = .malformedRecord ∨
    (∃ q, m.Opens q) ∧ (∃ p, Opened tokens lines n k p) ∧ f = .unterminatedBlock ∨
    (∃ q v name, m.Describes q v name ∧ n = k ∧ Misplaced tokens lines k q .strayMember f) ∨
    ∃ q, m.Closes q ∧ n = k ∧ Misplaced tokens lines k q .danglingEnd f)

theorem reportsAt_of_malformed {m : Marker} (hm : markerAt? tokens lines k = some m)
    (h : m.Malformed) : ReportsAt tokens lines k n f ↔ n = k ∧ f = .malformedRecord := by
  simp [ReportsAt, hm, h, h.not_opens, h.not_describes, h.not_closes]

theorem reportsAt_of_opens {m : Marker} (hm : markerAt? tokens lines k = some m)
    (h : m.Opens q) :
    ReportsAt tokens lines k n f ↔
      (∃ p, Opened tokens lines n k p) ∧ f = .unterminatedBlock := by
  have hbad : ¬ m.Malformed := fun hbad => hbad.not_opens q h
  have hopens : ∃ q, m.Opens q := ⟨q, h⟩
  simp [ReportsAt, hm, hbad, hopens, h.not_describes, h.not_closes]

theorem reportsAt_of_describes {m : Marker} {v name : Text}
    (hm : markerAt? tokens lines k = some m) (h : m.Describes q v name) :
    ReportsAt tokens lines k n f ↔ n = k ∧ Misplaced tokens lines k q .strayMember f := by
  have hbad : ¬ m.Malformed := fun hbad => hbad.not_describes q v name h
  have hopens : ∀ p, ¬ m.Opens p := fun p hp => hp.not_describes h
  have hcloses : ∀ p, ¬ m.Closes p := fun p hp => hp.not_describes h
  have hparent : ∀ {q' v' name'}, m.Describes q' v' name' → q' = q := fun h' =>
    (List.cons.inj (h'.args.symm.trans h.args)).1
  simp only [ReportsAt, hm, Option.some.injEq, exists_eq_left', hbad, hopens, hcloses, false_and,
    exists_false, or_false, false_or]
  constructor
  · rintro ⟨q', v', name', h', hrest⟩
    exact hparent h' ▸ hrest
  · exact fun hrest => ⟨q, v, name, h, hrest⟩

theorem reportsAt_of_closes {m : Marker} (hm : markerAt? tokens lines k = some m)
    (h : m.Closes q) :
    ReportsAt tokens lines k n f ↔ n = k ∧ Misplaced tokens lines k q .danglingEnd f := by
  have hbad : ¬ m.Malformed := fun hbad => hbad.not_closes q h
  have hopens : ∀ p, ¬ m.Opens p := fun p hp => hp.not_closes h
  simp only [ReportsAt, hm, Option.some.injEq, exists_eq_left', hbad, hopens, h.not_describes,
    false_and, exists_false, false_or]
  constructor
  · rintro ⟨q', h', hrest⟩
    exact h'.parent_unique h ▸ hrest
  · exact fun hrest => ⟨q, h, hrest⟩

/-- A line reports itself, and then it opens no block, or the line that opened the block it drops. -/
theorem ReportsAt.cases (h : ReportsAt tokens lines k n f) :
    (n = k ∧ ∀ p, ¬ OpensAt tokens lines n p) ∨
      f = .unterminatedBlock ∧ ∃ p q, Opened tokens lines n k p ∧ OpensAt tokens lines k q := by
  obtain ⟨m, hm, ⟨hbad, rfl, -⟩ | ⟨⟨q, ho⟩, ⟨p, hp⟩, rfl⟩ | ⟨q, v, name, hd, rfl, -⟩ |
    ⟨q, hc, rfl, -⟩⟩ := h
  · refine .inl ⟨rfl, fun p hp => ?_⟩
    obtain ⟨m', hm', ho⟩ := hp
    rw [hm] at hm'
    exact hbad.not_opens p (Option.some.inj hm' ▸ ho)
  · exact .inr ⟨rfl, p, q, hp, m, hm, ho⟩
  · exact .inl ⟨rfl, fun p hp => hp.not_describesAt ⟨m, hm, v, name, hd⟩⟩
  · exact .inl ⟨rfl, fun p hp => hp.not_closesAt ⟨m, hm, hc⟩⟩

theorem ReportsAt.le_length (h : ReportsAt tokens lines k n f) : k ≤ lines.length := by
  obtain ⟨m, hm, -⟩ := h
  exact le_length_of_markerAt? hm

/-- Reported lines are marker lines. -/
theorem ReportsAt.exists_marker (h : ReportsAt tokens lines k n f) :
    ∃ m, markerAt? tokens lines n = some m := by
  rcases h.cases with ⟨rfl, -⟩ | ⟨-, p, q, hopened, -⟩
  · obtain ⟨m, hm, -⟩ := h
    exact ⟨m, hm⟩
  · obtain ⟨m, hm, -⟩ := hopened.opens
    exact ⟨m, hm⟩

/-- A line is reported on one occasion only. -/
theorem ReportsAt.unique (h : ReportsAt tokens lines k n f) (h' : ReportsAt tokens lines k' n f') :
    k = k' := by
  rcases h.cases with ⟨rfl, hno⟩ | ⟨-, p, q, hopened, hq⟩ <;>
    rcases h'.cases with ⟨heq, hno'⟩ | ⟨-, p', q', hopened', hq'⟩
  · exact heq
  · exact absurd hopened'.opens (hno p')
  · exact absurd hopened.opens (hno' p)
  · exact hopened.end_unique hopened' ⟨q, .inl hq⟩ ⟨q', .inl hq'⟩

/-- The line that opened the pending block is not reported before the end. -/
theorem IsPending.not_reportsAt (h : IsPending tokens lines n p) :
    ¬ ReportsAt tokens lines k n f := by
  intro hr
  rcases hr.cases with ⟨-, hno⟩ | ⟨-, p', q, hopened, hq⟩
  · exact hno p h.opens
  · exact h.clear k hopened.lt ⟨q, .inl hq⟩

theorem reportsAt_concat (line : Text) (hk : k ≤ lines.length) :
    ReportsAt tokens (lines ++ [line]) k n f ↔ ReportsAt tokens lines k n f := by
  have hopened : ∀ b p, Opened tokens (lines ++ [line]) b k p ↔ Opened tokens lines b k p :=
    fun b p => opened_concat line (by omega)
  simp only [ReportsAt, Misplaced, markerAt?_concat_of_le line hk, hopened]

/-- One more line keeps all reports and may add one. -/
theorem exists_reportsAt_concat (line : Text) :
    (∃ k, ReportsAt tokens (lines ++ [line]) k n f) ↔
      (∃ k, ReportsAt tokens lines k n f) ∨
        ReportsAt tokens (lines ++ [line]) (lines.length + 1) n f := by
  constructor
  · rintro ⟨k, h⟩
    have hk : k ≤ lines.length + 1 := by simpa using h.le_length
    rcases Nat.lt_or_eq_of_le hk with hlt | rfl
    · exact .inl ⟨k, (reportsAt_concat line (by omega)).mp h⟩
    · exact .inr h
  · rintro (⟨k, h⟩ | h)
    · exact ⟨k, (reportsAt_concat line h.le_length).mpr h⟩
    · exact ⟨_, h⟩

/-- Does line `n` have a closing marker, well-formed or not? -/
def isEnd (tokens : Tokens) (lines : List Text) (n : Nat) : Bool :=
  (markerAt? tokens lines n).any (·.kind == .closing)

/-- The fault `f` is reported for line `n` while the text is read or at its end. -/
def Diagnosed (tokens : Tokens) (lines : List Text) (n : Nat) (f : Fault) : Prop :=
  (∃ k, ReportsAt tokens lines k n f) ∨ f = .unterminatedBlock ∧ ∃ p, IsPending tokens lines n p

end Source

namespace Scan

open Source

variable {tokens : Tokens} {lines : List Text} {s : State} {line : Text}

/-! ## The diagnostics of the lines read so far -/

/-- There is a diagnostic of the fault `f` on line `n`. -/
def Carries (ds : List Diagnostic) (n : Nat) (f : Fault) : Prop :=
  ∃ d ∈ ds, d.line = n ∧ d.cause.fault = f

/-- What the diagnostics of a state have to do with the lines read so far. -/
structure Reports (tokens : Tokens) (lines : List Text) (s : State) : Prop where
  nodup : (s.diagnostics.map Diagnostic.line).Nodup
  carries : ∀ n f, Carries s.diagnostics n f ↔ ∃ k, ReportsAt tokens lines k n f

/-- The open block is the block of the state. -/
theorem Tracks.opened_concat_iff (h : Tracks tokens lines s) (line : Text) (b : Nat) (p : Text) :
    Opened tokens (lines ++ [line]) b (lines.length + 1) p ↔
      ∃ blk, s.block = some blk ∧ blk.line = b ∧ blk.parent = p := by
  rw [opened_concat line (Nat.le_refl _), ← isPending_iff_opened, h.pending]

/-- A line for the type `q` that needs an open block of `q`, by the block of the state. -/
theorem Tracks.misplaced_concat_iff (h : Tracks tokens lines s) (line q : Text)
    (outside f : Fault) :
    Misplaced tokens (lines ++ [line]) (lines.length + 1) q outside f ↔
      s.block = .none ∧ f = outside ∨
        ∃ blk, s.block = some blk ∧ blk.parent ≠ q ∧ f = .parentMismatch := by
  simp only [Misplaced, h.opened_concat_iff]
  cases s.block <;> simp

/-- A step adds the diagnostic that its line reports, and no other. -/
theorem Tracks.reports_step (h : Tracks tokens lines s) (path : Text) {l : MarkerLine}
    (hnumber : l.number = lines.length + 1)
    (hm : Marker.classify tokens (stripReturns line) = some l.marker) :
    ∃ new : Option Diagnostic, (step path s l).diagnostics = new.toList ++ s.diagnostics ∧
      ∀ n f, ReportsAt tokens (lines ++ [line]) (lines.length + 1) n f ↔
        ∃ d, new = some d ∧ d.line = n ∧ d.cause.fault = f := by
  have hat : markerAt? tokens (lines ++ [line]) (lines.length + 1) = some l.marker :=
    (markerAt?_concat_length line).trans hm
  rcases step_cases path s l with ⟨q, ho, e⟩ | ⟨q, v, name, hd, e⟩ | ⟨q, hc, e⟩ | ⟨hbad, c, hc, e⟩
  · simp only [reportsAt_of_opens hat ho, h.opened_concat_iff]
    cases hb : s.block with
    | none => exact ⟨.none, by simp [e, openBlock, hb], by simp⟩
    | some blk =>
      refine ⟨some { path, line := blk.line, cause := .dropped blk.parent q l.number },
        by simp [e, openBlock, hb], fun n f => ?_⟩
      simp [Cause.fault, eq_comm]
  · simp only [reportsAt_of_describes hat hd, h.misplaced_concat_iff]
    cases hb : s.block with
    | none =>
      refine ⟨some { path, line := l.number, cause := .stray name q },
        by simp [e, addMember, hb], fun n f => ?_⟩
      simp [Cause.fault, hnumber, eq_comm]
    | some blk =>
      by_cases hq : q = blk.parent
      · exact ⟨.none, by simp [e, addMember, hb, hq], by simp [hq]⟩
      · refine ⟨some { path, line := l.number, cause := .foreignMember name q blk.parent },
          by simp [e, addMember, hb, hq], fun n f => ?_⟩
        simp [Cause.fault, hnumber, hq, eq_comm]
  · simp only [reportsAt_of_closes hat hc, h.misplaced_concat_iff]
    cases hb : s.block with
    | none =>
      refine ⟨some { path, line := l.number, cause := .dangling q },
        by simp [e, closeBlock, hb], fun n f => ?_⟩
      simp [Cause.fault, hnumber, eq_comm]
    | some blk =>
      by_cases hq : q = blk.parent
      · exact ⟨.none, by simp [e, closeBlock, hb, hq], by simp [hq]⟩
      · refine ⟨some { path, line := l.number, cause := .foreignEnd q blk.parent blk.line },
          by simp [e, closeBlock, hb, hq], fun n f => ?_⟩
        simp [Cause.fault, hnumber, hq, eq_comm]
  · refine ⟨some { path, line := l.number, cause := c }, by simp [e], fun n f => ?_⟩
    simp [reportsAt_of_malformed hat hbad, hc, hnumber, eq_comm]

namespace Reports

theorem of_nil : Reports tokens [] {} where
  nodup := .nil
  carries n f := by
    constructor
    · rintro ⟨d, hd, -⟩
      exact absurd hd List.not_mem_nil
    · rintro ⟨k, hk⟩
      obtain ⟨m, hm, -⟩ := hk
      cases k with
      | zero => exact absurd hm (by simp [markerAt?])
      | succ k => exact absurd (le_length_of_markerAt? hm) (by simp)

/-- A line without a marker reports nothing. -/
theorem concat_of_classify_eq_none (h : Reports tokens lines s)
    (hm : Marker.classify tokens (stripReturns line) = .none) :
    Reports tokens (lines ++ [line]) s where
  nodup := h.nodup
  carries n f := by
    rw [h.carries, exists_reportsAt_concat, or_iff_left]
    rintro ⟨m, hm', -⟩
    rw [markerAt?_concat_length, hm] at hm'
    exact absurd hm' (by simp)

/-- The step for a marker line keeps the diagnostics in line with the lines read. -/
theorem concat_step (ht : Tracks tokens lines s) (h : Reports tokens lines s) (path : Text)
    {l : MarkerLine} (hnumber : l.number = lines.length + 1)
    (hm : Marker.classify tokens (stripReturns line) = some l.marker) :
    Reports tokens (lines ++ [line]) (step path s l) := by
  obtain ⟨new, hds, hnew⟩ := ht.reports_step path hnumber hm
  constructor
  · cases new with
    | none => simpa [hds] using h.nodup
    | some d =>
      rw [hds, Option.toList_some, List.singleton_append, List.map_cons, List.nodup_cons]
      refine ⟨fun hmem => ?_, h.nodup⟩
      -- a line that was reported before would be reported a second time
      obtain ⟨d', hd', hline⟩ := List.mem_map.mp hmem
      obtain ⟨k, hk⟩ := (h.carries d.line d'.cause.fault).mp ⟨d', hd', hline, rfl⟩
      have hlast := (hnew d.line d.cause.fault).mpr ⟨d, rfl, rfl, rfl⟩
      have hunique := ((reportsAt_concat line hk.le_length).mpr hk).unique hlast
      have hle := hk.le_length
      omega
  · intro n f
    rw [exists_reportsAt_concat, ← h.carries, hnew, hds]
    cases new with
    | none => simp
    | some d => simp [Carries, or_comm]

/-- One more line, marker line or not, keeps the diagnostics in line with the lines read. -/
theorem concat (ht : Tracks tokens lines s) (h : Reports tokens lines s) (path line : Text) :
    Reports tokens (lines ++ [line])
      ((markerLine? tokens line (lines.length + 1)).toList.foldl (step path) s) := by
  cases hm : Marker.classify tokens (stripReturns line) with
  | none =>
    rw [markerLine?, hm]
    exact h.concat_of_classify_eq_none hm
  | some m =>
    rw [markerLine?, hm]
    exact concat_step ht h path rfl hm

end Reports

/-- The diagnostics behind any number of lines. -/
theorem reports_states (tokens : Tokens) (path : Text) (lines : List Text) :
    Reports tokens lines (states path (markers tokens lines)) := by
  induction lines using List.reverseRecOn with
  | nil => exact .of_nil
  | append_singleton lines line ih =>
    rw [markers_concat, states_append]
    exact ih.concat (tracks_states tokens path lines) path line

/-! ## The diagnostics of a text -/

/-- The diagnostics of a text that is read whole. -/
theorem diagnostics_run {path content : Text} (h : isComplete content = true) :
    (run tokens path content).diagnostics =
      (finish path (states path (markers tokens (Source.lines content)))).diagnostics.reverse := by
  simp [run, h, readable_of_isComplete h]

/-- The end of the text adds the line that opened the pending block. -/
theorem Tracks.nodup_finish (ht : Tracks tokens lines s) (h : Reports tokens lines s)
    (path : Text) : ((finish path s).diagnostics.map Diagnostic.line).Nodup := by
  unfold finish
  split
  · next blk hb =>
    rw [report_diagnostics, List.map_cons, List.nodup_cons]
    refine ⟨fun hmem => ?_, h.nodup⟩
    obtain ⟨d, hd, hline⟩ := List.mem_map.mp hmem
    obtain ⟨k, hk⟩ := (h.carries blk.line d.cause.fault).mp ⟨d, hd, hline, rfl⟩
    exact ((ht.pending blk.line blk.parent).mpr ⟨blk, hb, rfl, rfl⟩).not_reportsAt hk
  · exact h.nodup

theorem Tracks.carries_finish_iff (ht : Tracks tokens lines s) (h : Reports tokens lines s)
    (path : Text) (n : Nat) (f : Fault) :
    Carries (finish path s).diagnostics n f ↔ Diagnosed tokens lines n f := by
  simp only [Diagnosed, ← h.carries, ht.pending]
  unfold finish
  split
  · next blk hb => simp [Carries, hb, Cause.fault, or_comm, and_comm, eq_comm]
  · next hb => simp [hb]

/-- No two diagnostics of a text are on the same line. -/
theorem nodup_line_diagnostics_run (tokens : Tokens) (path : Text) {content : Text}
    (h : isComplete content = true) :
    ((run tokens path content).diagnostics.map Diagnostic.line).Nodup := by
  rw [diagnostics_run h, List.map_reverse, List.nodup_reverse]
  exact (tracks_states tokens path _).nodup_finish (reports_states tokens path _) path

/-- The diagnostics of a text, read off its lines. -/
theorem carries_run_iff (tokens : Tokens) (path : Text) {content : Text}
    (h : isComplete content = true) (n : Nat) (f : Fault) :
    Carries (run tokens path content).diagnostics n f ↔
      Diagnosed tokens (Source.lines content) n f := by
  rw [← (tracks_states tokens path _).carries_finish_iff (reports_states tokens path _) path,
    diagnostics_run h]
  simp [Carries]

/-! ## Blocks and what became of them -/

instance (m : Marker) : Decidable (∃ p, m.Opens p) :=
  decidable_of_iff (m.kind = .opening ∧ m.closed = true ∧ m.args.length = 1 ∧ [] ∉ m.args) (by
    constructor
    · rintro ⟨hk, hc, hlen, hne⟩
      obtain ⟨p, hp⟩ := List.length_eq_one_iff.mp hlen
      exact ⟨p, hk, hc, hp, fun heq => hne (by simp [hp, heq])⟩
    · rintro ⟨p, hk, hc, hp, hne⟩
      exact ⟨hk, hc, by simp [hp], by simpa [hp] using Ne.symm hne⟩)

/-- The diagnostic says that a block has no end. -/
def isUnterminated (d : Diagnostic) : Bool := d.cause.fault = .unterminatedBlock

/-- The diagnostic is a mismatch on one of the given lines. -/
def isMismatchOn (ends : Nat → Bool) (d : Diagnostic) : Bool :=
  d.cause.fault = .parentMismatch && ends d.line

/-- The blocks a state accounts for: those with a record, those that were dropped, those that were
closed under another name, and the pending one.  A mismatch on a line that `ends` a block belongs to
a block, and a mismatch on any other line to a member. -/
def State.blocks (ends : Nat → Bool) (s : State) : Nat :=
  s.records.length + s.diagnostics.countP isUnterminated +
    s.diagnostics.countP (isMismatchOn ends) + s.block.toList.length

/-- A step accounts for one more block if it opens one, and for as many as before otherwise. -/
theorem blocks_step (path : Text) {ends : Nat → Bool} (s : State) {l : MarkerLine}
    (hends : ends l.number = (l.marker.kind == .closing)) :
    (step path s l).blocks ends = s.blocks ends + if ∃ p, l.marker.Opens p then 1 else 0 := by
  rcases step_cases path s l with ⟨q, ho, e⟩ | ⟨q, v, name, hd, e⟩ | ⟨q, hc, e⟩ | ⟨hbad, c, hc, e⟩
  · have hopens : ∃ p, l.marker.Opens p := ⟨q, ho⟩
    rw [e, if_pos hopens]
    cases hb : s.block with
    | none => simp [State.blocks, openBlock, hb]
    | some blk =>
      simp [State.blocks, openBlock, hb, isUnterminated, isMismatchOn, Cause.fault]
      omega
  · have hopens : ¬ ∃ p, l.marker.Opens p := not_exists.mpr fun _ hp => hp.not_describes hd
    have hline : ends l.number = false := by simp [hends, hd.kind]
    rw [e, if_neg hopens]
    cases hb : s.block with
    | none => simp [State.blocks, addMember, hb, isUnterminated, isMismatchOn, Cause.fault]
    | some blk =>
      by_cases hq : q = blk.parent
      · simp [State.blocks, addMember, hb, hq]
      · simp [State.blocks, addMember, hb, hq, isUnterminated, isMismatchOn, Cause.fault, hline]
  · have hopens : ¬ ∃ p, l.marker.Opens p := not_exists.mpr fun _ hp => hp.not_closes hc
    have hline : ends l.number = true := by simp [hends, hc.kind]
    rw [e, if_neg hopens]
    cases hb : s.block with
    | none => simp [State.blocks, closeBlock, hb, isUnterminated, isMismatchOn, Cause.fault]
    | some blk =>
      by_cases hq : q = blk.parent
      · simp [State.blocks, closeBlock, hb, hq]
        omega
      · simp [State.blocks, closeBlock, hb, hq, isUnterminated, isMismatchOn, Cause.fault, hline]
        omega
  · have hopens : ¬ ∃ p, l.marker.Opens p := not_exists.mpr hbad.not_opens
    rw [e, if_neg hopens]
    simp [State.blocks, isUnterminated, isMismatchOn, hc]

/-- A run accounts for all blocks that its lines open. -/
theorem blocks_foldl (path : Text) {ends : Nat → Bool} {ls : List MarkerLine}
    (hends : ∀ l ∈ ls, ends l.number = (l.marker.kind == .closing)) (s : State) :
    (ls.foldl (step path) s).blocks ends =
      s.blocks ends + ls.countP (fun l => ∃ p, l.marker.Opens p) := by
  induction ls generalizing s with
  | nil => rfl
  | cons l ls ih =>
    have hl := hends l List.mem_cons_self
    rw [List.foldl_cons, ih (fun l' hl' => hends l' (List.mem_cons_of_mem l hl')),
      blocks_step path s hl, List.countP_cons]
    simp only [decide_eq_true_eq]
    omega

/-- At the end of the text every block has a record or a diagnostic. -/
theorem blocks_finish (path : Text) (ends : Nat → Bool) (s : State) :
    (finish path s).records.length + (finish path s).diagnostics.countP isUnterminated +
      (finish path s).diagnostics.countP (isMismatchOn ends) = s.blocks ends := by
  unfold finish
  split
  · next blk hb =>
    simp [State.blocks, hb, isUnterminated, isMismatchOn, Cause.fault]
    omega
  · next hb => simp [State.blocks, hb]

/-- The number of a marker line is where its marker stands. -/
theorem markerAt?_of_mem_markers {l : MarkerLine} (h : l ∈ markers tokens lines) :
    markerAt? tokens lines l.number = some l.marker := by
  obtain ⟨⟨line, n⟩, hmem, hl⟩ := List.mem_filterMap.mp h
  obtain ⟨hn, hline⟩ := List.mk_mem_zipIdx_iff_le_and_getElem?_sub.mp hmem
  obtain ⟨n, rfl⟩ := Nat.exists_eq_add_of_le' hn
  obtain ⟨m, hm, rfl⟩ := Option.map_eq_some_iff.mp hl
  rw [Nat.add_sub_cancel] at hline
  simp [markerAt?, hline, hm]

/-- The well-formed opening markers of a text are as many as its records, its diagnostics for blocks
without an end, and its mismatches on closing markers. -/
theorem countP_opens_eq (tokens : Tokens) (path : Text) {content : Text}
    (h : isComplete content = true) :
    ((Source.lines content).filterMap fun line =>
        Marker.classify tokens (stripReturns line)).countP (fun m => ∃ p, m.Opens p) =
      (run tokens path content).records.length +
        (run tokens path content).diagnostics.countP isUnterminated +
        (run tokens path content).diagnostics.countP
          (isMismatchOn (isEnd tokens (Source.lines content))) := by
  have hends : ∀ l ∈ markers tokens (Source.lines content),
      isEnd tokens (Source.lines content) l.number = (l.marker.kind == .closing) := by
    intro l hl
    simp [isEnd, markerAt?_of_mem_markers hl]
  have hrun := blocks_foldl path hends {}
  rw [← states, ← blocks_finish] at hrun
  rw [records_run h, diagnostics_run h, List.length_reverse, List.countP_reverse,
    List.countP_reverse, ← map_marker_markers, List.countP_map]
  rw [finish_records] at hrun
  rw [hrun]
  simp [State.blocks, Function.comp_def]

end Scan

end ReflectGen

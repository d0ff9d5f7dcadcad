import ReflectGen.Proofs.Scan.Basic

/-!
# The block grammar

The marker lines that a scan accepts are those of the grammar in which it is documented: a text is a
row of blocks, and a block is an opening marker, member markers and a closing marker, all for one
type.  A scan keeps no more than one pending block, and every marker that does not fit leaves a
diagnostic behind.  So the texts without a failure are exactly the texts of the grammar, provided
that all of their lines can be read.

* `IsBlock`, `IsBlockSequence`: the grammar.
* `Continues`: the same grammar read from the front, with the type of the pending block as state.
* `Scan.diagnostics_finish_foldl`: what a run over marker lines reports, from any state on.
* `Scan.failures_run_eq_nil_iff_isBlockSequence`: a scan without failures.
-/

namespace ReflectGen

/-- The markers of one block: all of them are for the same type. -/
def IsBlock (ms : List Marker) : Prop :=
  ∃ (parent : Text) (first : Marker) (members : List Marker) (last : Marker),
    ms = first :: members ++ [last] ∧ first.Opens parent ∧
    (∀ m ∈ members, ∃ valueType name, m.Describes parent valueType name) ∧ last.Closes parent

/-- The markers of a row of blocks. -/
def IsBlockSequence (ms : List Marker) : Prop :=
  ∃ blocks : List (List Marker), (∀ b ∈ blocks, IsBlock b) ∧ ms = blocks.flatten

/-- The markers complete the pending block, given by the name of its type, and go on with a row of
blocks.  Without a pending block they are such a row. -/
inductive Continues : Option Text → List Marker → Prop where
  | done : Continues none []
  | opens {m : Marker} {parent : Text} {ms : List Marker} :
      m.Opens parent → Continues (some parent) ms → Continues none (m :: ms)
  | describes {m : Marker} {parent valueType name : Text} {ms : List Marker} :
      m.Describes parent valueType name → Continues (some parent) ms →
      Continues (some parent) (m :: ms)
  | closes {m : Marker} {parent : Text} {ms : List Marker} :
      m.Closes parent → Continues none ms → Continues (some parent) (m :: ms)

/-! ## The two forms of the grammar -/

namespace Continues

/-- What can stand in front when no block is pending. -/
theorem none_cons_iff {m : Marker} {ms : List Marker} :
    Continues none (m :: ms) ↔ ∃ parent, m.Opens parent ∧ Continues (some parent) ms := by
  constructor
  · rintro (_ | ⟨ho, h⟩)
    exact ⟨_, ho, h⟩
  · rintro ⟨parent, ho, h⟩
    exact .opens ho h

/-- What can stand in front when the block of `parent` is pending. -/
theorem some_cons_iff {parent : Text} {m : Marker} {ms : List Marker} :
    Continues (some parent) (m :: ms) ↔
      (∃ valueType name, m.Describes parent valueType name ∧ Continues (some parent) ms) ∨
        m.Closes parent ∧ Continues none ms := by
  constructor
  · rintro (_ | _ | ⟨hd, h⟩ | ⟨hc, h⟩)
    · exact .inl ⟨_, _, hd, h⟩
    · exact .inr ⟨hc, h⟩
  · rintro (⟨valueType, name, hd, h⟩ | ⟨hc, h⟩)
    · exact .describes hd h
    · exact .closes hc h

theorem not_some_nil {parent : Text} : ¬ Continues (some parent) [] := by
  intro h
  cases h

/-- Member markers and the closing marker complete a pending block. -/
theorem of_members {parent : Text} {last : Marker} {ms : List Marker} (hlast : last.Closes parent)
    (h : Continues none ms) {members : List Marker}
    (hmembers : ∀ m ∈ members, ∃ valueType name, m.Describes parent valueType name) :
    Continues (some parent) (members ++ last :: ms) := by
  induction members with
  | nil => exact .closes hlast h
  | cons m members ih =>
    obtain ⟨valueType, name, hd⟩ := hmembers m List.mem_cons_self
    exact .describes hd (ih fun m' hm' => hmembers m' (List.mem_cons_of_mem m hm'))

/-- A row of blocks read from the front. -/
theorem of_isBlockSequence {ms : List Marker} (h : IsBlockSequence ms) : Continues none ms := by
  obtain ⟨blocks, hblocks, rfl⟩ := h
  induction blocks with
  | nil => exact .done
  | cons b blocks ih =>
    obtain ⟨parent, first, members, last, rfl, hfirst, hmembers, hlast⟩ :=
      hblocks b List.mem_cons_self
    have hrest := ih fun b' hb' => hblocks b' (List.mem_cons_of_mem _ hb')
    rw [List.flatten_cons, List.cons_append, List.cons_append, List.append_assoc]
    exact .opens hfirst (of_members hlast hrest hmembers)

/-- What is read from the front is a row of blocks, behind the rest of the pending one. -/
theorem exists_blocks {pending : Option Text} {ms : List Marker} (h : Continues pending ms) :
    match pending with
    | none => IsBlockSequence ms
    | some parent => ∃ (members : List Marker) (last : Marker) (rest : List Marker),
        ms = members ++ last :: rest ∧
        (∀ m ∈ members, ∃ valueType name, m.Describes parent valueType name) ∧
        last.Closes parent ∧ IsBlockSequence rest := by
  induction h with
  | done => exact ⟨[], by simp, rfl⟩
  | @opens m parent ms ho _ ih =>
    obtain ⟨members, last, rest, rfl, hmembers, hlast, blocks, hblocks, rfl⟩ := ih
    refine ⟨(m :: members ++ [last]) :: blocks, ?_, by simp⟩
    rintro b (_ | ⟨_, hb⟩)
    · exact ⟨parent, m, members, last, rfl, ho, hmembers, hlast⟩
    · exact hblocks b hb
  | @describes m parent valueType name ms hd _ ih =>
    obtain ⟨members, last, rest, rfl, hmembers, hlast, hrest⟩ := ih
    refine ⟨m :: members, last, rest, rfl, ?_, hlast, hrest⟩
    rintro m' (_ | ⟨_, hm'⟩)
    · exact ⟨valueType, name, hd⟩
    · exact hmembers m' hm'
  | @closes m parent ms hc _ ih => exact ⟨[], m, ms, rfl, by simp, hc, ih⟩

end Continues

theorem continues_none_iff {ms : List Marker} : Continues none ms ↔ IsBlockSequence ms :=
  ⟨Continues.exists_blocks, Continues.of_isBlockSequence⟩

namespace Scan

/-! ## Runs without a diagnostic -/

/-- The type of the pending block. -/
def State.pending (s : State) : Option Text := s.block.map Block.parent

/-- No step takes a diagnostic back. -/
theorem step_diagnostics_ne_nil (path : Text) {s : State} (h : s.diagnostics ≠ [])
    (l : MarkerLine) : (step path s l).diagnostics ≠ [] := by
  obtain ⟨new, hds, -⟩ := step_diagnostics path s l
  rw [hds]
  exact List.append_ne_nil_of_right_ne_nil _ h

theorem foldl_step_diagnostics_ne_nil (path : Text) (ls : List MarkerLine) {s : State}
    (h : s.diagnostics ≠ []) : (ls.foldl (step path) s).diagnostics ≠ [] := by
  induction ls generalizing s with
  | nil => exact h
  | cons l ls ih => exact ih (step_diagnostics_ne_nil path h l)

theorem finish_diagnostics_ne_nil (path : Text) {s : State} (h : s.diagnostics ≠ []) :
    (finish path s).diagnostics ≠ [] := by
  unfold finish
  split
  · simp
  · exact h

/-- Between blocks only an opening marker fits. -/
theorem step_idle_iff (path : Text) {s : State} (h : s.diagnostics = []) (hb : s.block = .none)
    (l : MarkerLine) (ms : List Marker) :
    Continues s.pending (l.marker :: ms) ↔
      (step path s l).diagnostics = [] ∧ Continues (step path s l).pending ms := by
  have hp : s.pending = .none := by simp [State.pending, hb]
  rw [hp, Continues.none_cons_iff]
  rcases step_cases path s l with ⟨p, hm, e⟩ | ⟨p, v, n, hm, e⟩ | ⟨p, hm, e⟩ | ⟨hm, c, -, e⟩
  · have hs : (step path s l).diagnostics = [] ∧ (step path s l).pending = some p := by
      rw [e, openBlock, hb]
      exact ⟨h, rfl⟩
    rw [hs.2]
    constructor
    · rintro ⟨q, hq, hc⟩
      exact ⟨hs.1, hm.parent_unique hq ▸ hc⟩
    · rintro ⟨-, hc⟩
      exact ⟨p, hm, hc⟩
  · simp only [e, addMember, hb, report_diagnostics, reduceCtorEq, false_and, iff_false]
    rintro ⟨q, hq, -⟩
    exact hq.not_describes hm
  · simp only [e, closeBlock, hb, report_diagnostics, reduceCtorEq, false_and, iff_false]
    rintro ⟨q, hq, -⟩
    exact hq.not_closes hm
  · simp only [e, report_diagnostics, reduceCtorEq, false_and, iff_false]
    rintro ⟨q, hq, -⟩
    exact hm.not_opens q hq

/-- In a block only its members and its closing marker fit. -/
theorem step_pending_iff (path : Text) {s : State} (h : s.diagnostics = []) {b : Block}
    (hb : s.block = some b) (l : MarkerLine) (ms : List Marker) :
    Continues s.pending (l.marker :: ms) ↔
      (step path s l).diagnostics = [] ∧ Continues (step path s l).pending ms := by
  have hp : s.pending = some b.parent := by simp [State.pending, hb]
  rw [hp, Continues.some_cons_iff]
  rcases step_cases path s l with ⟨p, hm, e⟩ | ⟨p, v, n, hm, e⟩ | ⟨p, hm, e⟩ | ⟨hm, c, -, e⟩
  · simp only [e, openBlock, hb, report_diagnostics, reduceCtorEq, false_and, iff_false]
    rintro (⟨v, n, hd, -⟩ | ⟨hc, -⟩)
    · exact hm.not_describes hd
    · exact hm.not_closes hc
  · -- a member must be one of the pending type
    by_cases hpb : p = b.parent
    · subst hpb
      have hs : (step path s l).diagnostics = [] ∧
          (step path s l).pending = some b.parent := by
        rw [e, addMember, hb]
        simp [h, State.pending]
      rw [hs.2]
      constructor
      · rintro (⟨v', n', -, hc⟩ | ⟨hc, -⟩)
        · exact ⟨hs.1, hc⟩
        · exact absurd hm hc.not_describes
      · rintro ⟨-, hc⟩
        exact .inl ⟨v, n, hm, hc⟩
    · simp only [e, addMember, hb, beq_iff_eq, hpb, if_false, report_diagnostics, reduceCtorEq,
        false_and, iff_false]
      rintro (⟨v', n', hd, -⟩ | ⟨hc, -⟩)
      · exact hpb (List.cons.inj (hm.args.symm.trans hd.args)).1
      · exact hc.not_describes hm
  · -- so must a closing marker
    by_cases hpb : p = b.parent
    · subst hpb
      have hs : (step path s l).diagnostics = [] ∧ (step path s l).pending = .none := by
        rw [e, closeBlock, hb]
        simp [h, State.pending]
      rw [hs.2]
      constructor
      · rintro (⟨v', n', hd, -⟩ | ⟨-, hc⟩)
        · exact absurd hd hm.not_describes
        · exact ⟨hs.1, hc⟩
      · rintro ⟨-, hc⟩
        exact .inr ⟨hm, hc⟩
    · simp only [e, closeBlock, hb, beq_iff_eq, hpb, if_false, report_diagnostics, reduceCtorEq,
        false_and, iff_false]
      rintro (⟨v', n', hd, -⟩ | ⟨hc, -⟩)
      · exact hm.not_describes hd
      · exact hpb (hm.parent_unique hc)
  · simp only [e, report_diagnostics, reduceCtorEq, false_and, iff_false]
    rintro (⟨v, n, hd, -⟩ | ⟨hc, -⟩)
    · exact hm.not_describes _ _ _ hd
    · exact hm.not_closes _ hc

/-- A step without a diagnostic is a step of the grammar. -/
theorem step_continues_iff (path : Text) {s : State} (h : s.diagnostics = []) (l : MarkerLine)
    (ms : List Marker) :
    Continues s.pending (l.marker :: ms) ↔
      (step path s l).diagnostics = [] ∧ Continues (step path s l).pending ms := by
  cases hb : s.block with
  | none => exact step_idle_iff path h hb l ms
  | some b => exact step_pending_iff path h hb l ms

/-- From a state without diagnostics, a run to the end of the text reports nothing exactly if the
markers complete the pending block and go on in blocks. -/
theorem diagnostics_finish_foldl (path : Text) (ls : List MarkerLine) :
    ∀ {s : State}, s.diagnostics = [] →
      ((finish path (ls.foldl (step path) s)).diagnostics = [] ↔
        Continues s.pending (ls.map MarkerLine.marker)) := by
  induction ls with
  | nil =>
    intro s h
    cases hb : s.block with
    | none =>
      have hp : s.pending = .none := by simp [State.pending, hb]
      simp [finish, hb, h, hp, Continues.done]
    | some b =>
      have hp : s.pending = some b.parent := by simp [State.pending, hb]
      simp [finish, hb, hp, Continues.not_some_nil]
  | cons l ls ih =>
    intro s h
    rw [List.map_cons, step_continues_iff path h, List.foldl_cons]
    by_cases hd : (step path s l).diagnostics = []
    · rw [ih hd]
      simp [hd]
    · have hne := finish_diagnostics_ne_nil path (foldl_step_diagnostics_ne_nil path ls hd)
      simp [hne, hd]

/-- **A scan accepts exactly the block grammar.**  It has no failure if and only if no line is too
long and the markers on the lines, read without carriage returns at their ends, are a row of
blocks. -/
theorem failures_run_eq_nil_iff_isBlockSequence (tokens : Tokens) (path content : Text) :
    (run tokens path content).failures path = [] ↔
      (∀ line ∈ Source.lines content, line.length < Source.maxLine) ∧
        IsBlockSequence ((Source.lines content).filterMap fun line =>
          Marker.classify tokens (Source.stripReturns line)) := by
  rw [failures_run_eq_nil, Source.isComplete_iff, ← map_marker_markers, ← continues_none_iff]
  exact and_congr_right fun _ => diagnostics_finish_foldl path _ rfl

end Scan

end ReflectGen

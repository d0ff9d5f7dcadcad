import Mathlib.Data.List.Induction
import Mathlib.Data.List.TakeWhile
import Mathlib.Tactic.ByContra
import ReflectGen.Run.Collect

/-!
# What one marker line does to a scan

A marker is *well-formed* if its argument list is closed and it has one non-empty argument, when it
opens or closes a block, or three of them, when it describes a member.  The step function of a scan
matches on kinds and argument lists; here it is said once what it does, by the sense of the marker,
and no later proof opens it again.

* `Marker.Opens`, `Marker.Describes`, `Marker.Closes`: the three kinds of well-formed markers, and
  `Marker.Malformed` for all others.
* `Scan.step_cases`: a step opens a block, adds a member, closes a block, or reports a malformed
  marker and leaves the rest of the state alone; `Scan.step_of_opens` and the like give the step for
  a marker of known sense, and `Scan.step_diagnostics` what a step does to the diagnostics.
* `Source.isComplete_iff`, `Source.readable_of_isComplete`: a text without an over-long line is read
  whole.
* `Scan.records_run`, `Scan.failures_run_eq_nil`: the outcome of a scan in terms of the state behind
  its last line.
-/

namespace ReflectGen

/-! ## Well-formed markers -/

namespace Marker

/-- The marker opens the block of `parent`. -/
structure Opens (m : Marker) (parent : Text) : Prop where
  kind : m.kind = .opening
  closed : m.closed = true
  args : m.args = [parent]
  parent_ne_nil : parent ≠ []

/-- The marker describes the member `name` of `parent`, which has the type `valueType`. -/
structure Describes (m : Marker) (parent valueType name : Text) : Prop where
  kind : m.kind = .member
  closed : m.closed = true
  args : m.args = [parent, valueType, name]
  parent_ne_nil : parent ≠ []
  valueType_ne_nil : valueType ≠ []
  name_ne_nil : name ≠ []

/-- The marker closes the block of `parent`. -/
structure Closes (m : Marker) (parent : Text) : Prop where
  kind : m.kind = .closing
  closed : m.closed = true
  args : m.args = [parent]
  parent_ne_nil : parent ≠ []

/-- The marker is not well-formed. -/
structure Malformed (m : Marker) : Prop where
  not_opens : ∀ parent, ¬ m.Opens parent
  not_describes : ∀ parent valueType name, ¬ m.Describes parent valueType name
  not_closes : ∀ parent, ¬ m.Closes parent

theorem Opens.parent_unique {m : Marker} {p q : Text} (hp : m.Opens p) (hq : m.Opens q) :
    p = q := by
  have h := hp.args.symm.trans hq.args
  exact (List.cons.inj h).1

theorem Closes.parent_unique {m : Marker} {p q : Text} (hp : m.Closes p) (hq : m.Closes q) :
    p = q := by
  have h := hp.args.symm.trans hq.args
  exact (List.cons.inj h).1

theorem Opens.not_closes {m : Marker} {p q : Text} (hp : m.Opens p) : ¬ m.Closes q := fun hq =>
  absurd (hp.kind.symm.trans hq.kind) (by decide)

theorem Opens.not_describes {m : Marker} {p q v n : Text} (hp : m.Opens p) :
    ¬ m.Describes q v n := fun hq => absurd (hp.kind.symm.trans hq.kind) (by decide)

theorem Closes.not_describes {m : Marker} {p q v n : Text} (hp : m.Closes p) :
    ¬ m.Describes q v n := fun hq => absurd (hp.kind.symm.trans hq.kind) (by decide)

theorem malformed_of_not_closed {m : Marker} (h : m.closed = false) : m.Malformed where
  not_opens _ ho := by simp [ho.closed] at h
  not_describes _ _ _ hd := by simp [hd.closed] at h
  not_closes _ hc := by simp [hc.closed] at h

/-- An opening or closing marker without exactly one non-empty argument is malformed. -/
theorem malformed_of_not_one_name {m : Marker} (hk : m.kind ≠ .member)
    (h : ¬ ∃ p, m.args = [p] ∧ p ≠ []) : m.Malformed where
  not_opens p ho := h ⟨p, ho.args, ho.parent_ne_nil⟩
  not_describes _ _ _ hd := hk hd.kind
  not_closes p hc := h ⟨p, hc.args, hc.parent_ne_nil⟩

/-- A member marker without exactly three non-empty arguments is malformed. -/
theorem malformed_of_not_three_arguments {m : Marker} (hk : m.kind = .member)
    (h : ¬ ∃ p v n, m.args = [p, v, n] ∧ p ≠ [] ∧ v ≠ [] ∧ n ≠ []) : m.Malformed where
  not_opens _ ho := by simp [ho.kind] at hk
  not_describes p v n hd :=
    h ⟨p, v, n, hd.args, hd.parent_ne_nil, hd.valueType_ne_nil, hd.name_ne_nil⟩
  not_closes _ hc := by simp [hc.kind] at hk

end Marker

namespace Scan

/-! ## One step -/

@[simp] theorem report_block (s : State) (path : Text) (n : Nat) (c : Cause) :
    (s.report path n c).block = s.block := rfl

@[simp] theorem report_records (s : State) (path : Text) (n : Nat) (c : Cause) :
    (s.report path n c).records = s.records := rfl

@[simp] theorem report_diagnostics (s : State) (path : Text) (n : Nat) (c : Cause) :
    (s.report path n c).diagnostics = { path, line := n, cause := c } :: s.diagnostics := rfl

/-- A closed opening or closing marker without exactly one non-empty argument is reported. -/
theorem step_of_not_one_name (path : Text) (s : State) {l : MarkerLine}
    (hclosed : l.marker.closed = true) (hk : l.marker.kind ≠ .member)
    (h : ¬ ∃ p, l.marker.args = [p] ∧ p ≠ []) :
    ∃ c : Cause, c.fault = .malformedRecord ∧ step path s l = s.report path l.number c := by
  obtain ⟨number, text, kind, args, closed⟩ := l
  subst hclosed
  match kind, args with
  | .member, _ => exact absurd rfl hk
  | _, [a :: as] => exact absurd ⟨a :: as, rfl, by simp⟩ h
  | .opening, [[]] => exact ⟨.notOneName .opening 0, rfl, rfl⟩
  | .closing, [[]] => exact ⟨.notOneName .closing 0, rfl, rfl⟩
  | .opening, [] => exact ⟨_, rfl, rfl⟩
  | .closing, [] => exact ⟨_, rfl, rfl⟩
  | .opening, _ :: _ :: _ => exact ⟨_, rfl, rfl⟩
  | .closing, _ :: _ :: _ => exact ⟨_, rfl, rfl⟩

/-- A closed member marker without exactly three non-empty arguments is reported. -/
theorem step_of_not_three_arguments (path : Text) (s : State) {l : MarkerLine}
    (hclosed : l.marker.closed = true) (hk : l.marker.kind = .member)
    (h : ¬ ∃ p v n, l.marker.args = [p, v, n] ∧ p ≠ [] ∧ v ≠ [] ∧ n ≠ []) :
    step path s l = s.report path l.number (.notThreeArguments l.marker.args) := by
  obtain ⟨number, text, kind, args, closed⟩ := l
  subst hclosed hk
  match args with
  | [p, v, n] =>
    have hempty : (p.isEmpty || v.isEmpty || n.isEmpty) = true := by
      by_contra hne
      exact h ⟨p, v, n, rfl, by simpa [and_assoc] using hne⟩
    simp [step, hempty]
  | [] => rfl
  | [_] => rfl
  | [_, _] => rfl
  | _ :: _ :: _ :: _ :: _ => rfl

/-- Everything a step can do: it acts on the pending block as a well-formed marker says, or it
reports a malformed marker. -/
theorem step_cases (path : Text) (s : State) (l : MarkerLine) :
    (∃ p, l.marker.Opens p ∧ step path s l = openBlock path s l.number p) ∨
    (∃ p v n, l.marker.Describes p v n ∧ step path s l = addMember path s l.number p v n) ∨
    (∃ p, l.marker.Closes p ∧ step path s l = closeBlock path s l.number p) ∨
    (l.marker.Malformed ∧ ∃ c : Cause, c.fault = .malformedRecord ∧
      step path s l = s.report path l.number c) := by
  cases hclosed : l.marker.closed with
  | false =>
    refine .inr (.inr (.inr ⟨Marker.malformed_of_not_closed hclosed, .unclosed l.marker.kind, rfl,
      ?_⟩))
    simp [step, hclosed]
  | true =>
    cases hk : l.marker.kind with
    | opening =>
      by_cases h : ∃ p, l.marker.args = [p] ∧ p ≠ []
      · obtain ⟨p, hargs, hp⟩ := h
        exact .inl ⟨p, ⟨hk, hclosed, hargs, hp⟩, by simp [step, hclosed, hk, hargs, hp]⟩
      · have hm : l.marker.kind ≠ .member := by simp [hk]
        exact .inr (.inr (.inr ⟨Marker.malformed_of_not_one_name hm h,
          step_of_not_one_name path s hclosed hm h⟩))
    | member =>
      by_cases h : ∃ p v n, l.marker.args = [p, v, n] ∧ p ≠ [] ∧ v ≠ [] ∧ n ≠ []
      · obtain ⟨p, v, n, hargs, hp, hv, hn⟩ := h
        exact .inr (.inl ⟨p, v, n, ⟨hk, hclosed, hargs, hp, hv, hn⟩,
          by simp [step, hclosed, hk, hargs, hp, hv, hn]⟩)
      · exact .inr (.inr (.inr ⟨Marker.malformed_of_not_three_arguments hk h, _, rfl,
          step_of_not_three_arguments path s hclosed hk h⟩))
    | closing =>
      by_cases h : ∃ p, l.marker.args = [p] ∧ p ≠ []
      · obtain ⟨p, hargs, hp⟩ := h
        exact .inr (.inr (.inl ⟨p, ⟨hk, hclosed, hargs, hp⟩,
          by simp [step, hclosed, hk, hargs, hp]⟩))
      · have hm : l.marker.kind ≠ .member := by simp [hk]
        exact .inr (.inr (.inr ⟨Marker.malformed_of_not_one_name hm h,
          step_of_not_one_name path s hclosed hm h⟩))

/-- The step for a well-formed opening marker. -/
theorem step_of_opens (path : Text) (s : State) {l : MarkerLine} {p : Text}
    (h : l.marker.Opens p) : step path s l = openBlock path s l.number p := by
  rcases step_cases path s l with ⟨q, hq, e⟩ | ⟨q, v, n, hq, -⟩ | ⟨q, hq, -⟩ | ⟨hbad, -⟩
  · rw [e, h.parent_unique hq]
  · exact absurd hq h.not_describes
  · exact absurd hq h.not_closes
  · exact absurd h (hbad.not_opens p)

/-- The step for a well-formed member marker. -/
theorem step_of_describes (path : Text) (s : State) {l : MarkerLine} {p v n : Text}
    (h : l.marker.Describes p v n) : step path s l = addMember path s l.number p v n := by
  rcases step_cases path s l with ⟨q, hq, -⟩ | ⟨q, v', n', hq, e⟩ | ⟨q, hq, -⟩ | ⟨hbad, -⟩
  · exact absurd h hq.not_describes
  · have hargs := h.args.symm.trans hq.args
    simp only [List.cons.injEq, and_true] at hargs
    obtain ⟨rfl, rfl, rfl⟩ := hargs
    exact e
  · exact absurd h hq.not_describes
  · exact absurd h (hbad.not_describes p v n)

/-- The step for a well-formed closing marker. -/
theorem step_of_closes (path : Text) (s : State) {l : MarkerLine} {p : Text}
    (h : l.marker.Closes p) : step path s l = closeBlock path s l.number p := by
  rcases step_cases path s l with ⟨q, hq, -⟩ | ⟨q, v, n, hq, -⟩ | ⟨q, hq, e⟩ | ⟨hbad, -⟩
  · exact absurd h hq.not_closes
  · exact absurd hq h.not_describes
  · rw [e, h.parent_unique hq]
  · exact absurd h (hbad.not_closes p)

/-- A step adds one diagnostic at most, and this is for the file that is read. -/
theorem step_diagnostics (path : Text) (s : State) (l : MarkerLine) :
    ∃ new : Option Diagnostic, (step path s l).diagnostics = new.toList ++ s.diagnostics ∧
      ∀ d ∈ new.toList, d.path = path := by
  have hreport : ∀ (n : Nat) (c : Cause), ∀ d ∈ [({ path, line := n, cause := c } : Diagnostic)],
      d.path = path := fun n c d hd => by rw [List.mem_singleton.mp hd]
  have hnone : ∀ d ∈ ([] : List Diagnostic), d.path = path := fun d hd =>
    absurd hd List.not_mem_nil
  rcases step_cases path s l with ⟨p, -, e⟩ | ⟨p, v, n, -, e⟩ | ⟨p, -, e⟩ | ⟨-, c, -, e⟩
  · rw [e, openBlock]
    cases s.block with
    | none => exact ⟨.none, rfl, hnone⟩
    | some b => exact ⟨some _, rfl, hreport _ _⟩
  · rw [e, addMember]
    split
    · exact ⟨some _, rfl, hreport _ _⟩
    · split
      · exact ⟨.none, rfl, hnone⟩
      · exact ⟨some _, rfl, hreport _ _⟩
  · rw [e, closeBlock]
    split
    · exact ⟨some _, rfl, hreport _ _⟩
    · split
      · exact ⟨.none, rfl, hnone⟩
      · exact ⟨some _, rfl, hreport _ _⟩
  · rw [e]
    exact ⟨some _, rfl, hreport _ _⟩

end Scan

/-! ## Lines and runs -/

namespace Source

theorem isComplete_iff (content : Text) :
    isComplete content = true ↔ ∀ line ∈ lines content, line.length < maxLine := by
  simp [isComplete, isReadable]

/-- A text without an over-long line is read whole. -/
theorem readable_of_isComplete {content : Text} (h : isComplete content = true) :
    readable content = lines content := by
  rw [isComplete, List.all_eq_true] at h
  exact List.takeWhile_eq_self_iff.mpr h

end Source

namespace Scan

theorem markers_concat (tokens : Tokens) (lines : List Text) (line : Text) :
    markers tokens (lines ++ [line]) =
      markers tokens lines ++ (markerLine? tokens line (lines.length + 1)).toList := by
  rw [markers, List.zipIdx_append, List.filterMap_append, ← markers, Nat.add_comm 1]
  cases h : markerLine? tokens line (lines.length + 1) <;> simp [h]

/-- The numbers of marker lines play no part in their markers. -/
theorem map_marker_markers (tokens : Tokens) (lines : List Text) :
    (markers tokens lines).map MarkerLine.marker =
      lines.filterMap fun line => Marker.classify tokens (Source.stripReturns line) := by
  induction lines using List.reverseRecOn with
  | nil => rfl
  | append_singleton lines line ih =>
    rw [markers_concat, List.map_append, ih, List.filterMap_append]
    cases h : Marker.classify tokens (Source.stripReturns line) <;> simp [markerLine?, h]

@[simp] theorem states_nil (path : Text) : states path [] = {} := rfl

theorem states_append (path : Text) (ls ls' : List MarkerLine) :
    states path (ls ++ ls') = ls'.foldl (step path) (states path ls) := by
  rw [states, List.foldl_append, ← states]

@[simp] theorem finish_records (path : Text) (s : State) : (finish path s).records = s.records := by
  unfold finish
  split <;> rfl

/-- The records of a text that is read whole. -/
theorem records_run {tokens : Tokens} {path content : Text}
    (h : Source.isComplete content = true) :
    (run tokens path content).records =
      (states path (markers tokens (Source.lines content))).records.reverse := by
  simp [run, h, Source.readable_of_isComplete h]

/-- A scan has no failure exactly if the text is read whole and nothing is reported up to its
end. -/
theorem failures_run_eq_nil (tokens : Tokens) (path content : Text) :
    (run tokens path content).failures path = [] ↔
      Source.isComplete content = true ∧
        (finish path (states path (markers tokens (Source.lines content)))).diagnostics = [] := by
  cases h : Source.isComplete content with
  | false => simp [run, failures, h]
  | true => simp [run, failures, h, Source.readable_of_isComplete h]

end Scan

end ReflectGen

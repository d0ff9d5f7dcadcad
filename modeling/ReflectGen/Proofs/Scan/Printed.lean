import ReflectGen.Proofs.Marker.Invocation
import ReflectGen.Proofs.Path
import ReflectGen.Proofs.Scan.Basic

/-!
# Records that are written out

A record is written as a block: a line that opens it, a line for each member and a line that closes
it.  A scan of such blocks gives the records back, each with the numbers of its lines, and lines
without a marker that stand between them change nothing but these numbers.

* `Source.ofLines`: the text of some lines; `Source.interleave` puts other lines between them, and
  `Source.position` is where a line goes.
* `TypeRecord.printed`, `TypeRecord.placed`: the lines of a record, and the record with the numbers
  of these lines.
* `Scan.foldl_step_printed`, `Scan.foldl_step_printedAll`: a scan over the lines of one record, and
  over those of many.
* `Scan.run_printed`: scanning undoes printing.
-/

namespace ReflectGen

/-! ## Lines with other lines in between -/

namespace Source

/-- The text with the given lines. -/
def ofLines (ls : List Text) : Text := ls.flatMap (· ++ [0x0A])

theorem splitOn_ofLines {ls : List Text} (h : ∀ l ∈ ls, 0x0A ∉ l) :
    Text.splitOn 0x0A (ofLines ls) = ls ++ [[]] := by
  induction ls with
  | nil => rfl
  | cons l ls ih =>
    have hrest := ih fun l' hl' => h l' (List.mem_cons_of_mem l hl')
    have hcons : ofLines (l :: ls) = l ++ 0x0A :: ofLines ls := by
      simp [ofLines]
    rw [hcons, Text.splitOn_append, Text.splitOn_of_notMem (h l List.mem_cons_self), hrest]
    rfl

/-- The lines of a text are the lines it was put together from. -/
theorem lines_ofLines {ls : List Text} (h : ∀ l ∈ ls, 0x0A ∉ l) : lines (ofLines ls) = ls := by
  rw [lines, splitOn_ofLines h]
  simp

/-- The lines `ls`, with the lines `gap k` in front of the first of them, the lines `gap (k + 1)`
in front of the second and so on, and the next such lines behind the last. -/
def interleave (gap : Nat → List Text) : Nat → List Text → List Text
  | k, [] => gap k
  | k, l :: ls => gap k ++ l :: interleave gap (k + 1) ls

/-- The number that line `n`, counted from one, has once the lines `gap` are put in front of the
lines. -/
def position (gap : Nat → List Text) : Nat → Nat
  | 0 => 0
  | n + 1 => position gap n + (gap n).length + 1

/-- Without lines in between, every line keeps its number. -/
theorem position_nil (n : Nat) : position (fun _ => []) n = n := by
  induction n with
  | zero => rfl
  | succ n ih => simp [position, ih]

theorem interleave_nil (k : Nat) (ls : List Text) : interleave (fun _ => []) k ls = ls := by
  induction ls generalizing k with
  | nil => rfl
  | cons l ls ih => simp [interleave, ih]

/-- A line that is read and has no marker on it. -/
structure IsOther (tokens : Tokens) (line : Text) : Prop where
  classify_eq_none : Marker.classify tokens (stripReturns line) = none
  oneLine : 0x0A ∉ line
  short : line.length < maxLine

variable {gap : Nat → List Text}

theorem forall_mem_interleave {P : Text → Prop} (hgap : ∀ k, ∀ l ∈ gap k, P l) {ls : List Text}
    (h : ∀ l ∈ ls, P l) : ∀ k, ∀ l ∈ interleave gap k ls, P l := by
  induction ls with
  | nil => exact hgap
  | cons l ls ih =>
    intro k l' hl'
    rw [interleave, List.mem_append, List.mem_cons] at hl'
    rcases hl' with hl' | rfl | hl'
    · exact hgap k l' hl'
    · exact h l' List.mem_cons_self
    · exact ih (fun l'' h'' => h l'' (List.mem_cons_of_mem l h'')) (k + 1) l' hl'

/-- The line behind `i` others goes as far down as its number says, counted from the number of the
line in front of all of them. -/
theorem exists_getElem?_interleave (gap : Nat → List Text) {ls : List Text} :
    ∀ (k : Nat) {i : Nat}, i < ls.length →
      ∃ j, position gap (k + i + 1) = position gap k + j + 1 ∧
        (interleave gap k ls)[j]? = ls[i]? := by
  induction ls with
  | nil =>
    intro k i hi
    exact absurd hi (Nat.not_lt_zero i)
  | cons l ls ih =>
    intro k i hi
    cases i with
    | zero =>
      refine ⟨(gap k).length, rfl, ?_⟩
      rw [interleave, List.getElem?_append_right (Nat.le_refl _), Nat.sub_self]
      rfl
    | succ i =>
      obtain ⟨j, hj, hline⟩ := ih (k + 1) (Nat.lt_of_succ_lt_succ hi)
      refine ⟨(gap k).length + 1 + j, ?_, ?_⟩
      · rw [show k + (i + 1) + 1 = k + 1 + i + 1 by omega, hj, position]
        omega
      · rw [interleave, List.getElem?_append_right (by omega),
          show (gap k).length + 1 + j - (gap k).length = j + 1 by omega]
        exact hline

/-- At the new number of a line stands that line. -/
theorem getElem?_interleave (gap : Nat → List Text) {ls : List Text} {i : Nat}
    (hi : i < ls.length) :
    (interleave gap 0 ls)[position gap (i + 1) - 1]? = ls[i]? := by
  obtain ⟨j, hj, hline⟩ := exists_getElem?_interleave gap 0 hi
  have hzero : position gap 0 = 0 := rfl
  rw [Nat.zero_add, hzero, Nat.zero_add] at hj
  rw [hj, Nat.add_sub_cancel]
  exact hline

end Source

/-! ## The markers of interleaved lines -/

namespace Scan

open Source

variable {tokens : Tokens} {gap : Nat → List Text}

/-- The marker lines among `ls` when line `i`, counted from `k`, has the number `number i`. -/
def markersAt (tokens : Tokens) (number : Nat → Nat) (k : Nat) (ls : List Text) : List MarkerLine :=
  (ls.zipIdx k).filterMap fun (line, i) => markerLine? tokens line (number i)

theorem markers_eq_markersAt (tokens : Tokens) (ls : List Text) :
    markers tokens ls = markersAt tokens id 1 ls := rfl

theorem markersAt_append (number : Nat → Nat) (k : Nat) (ls ls' : List Text) :
    markersAt tokens number k (ls ++ ls') =
      markersAt tokens number k ls ++ markersAt tokens number (k + ls.length) ls' := by
  simp [markersAt, List.zipIdx_append]

theorem markersAt_cons {l : Text} {m : Marker}
    (h : Marker.classify tokens (stripReturns l) = some m) (number : Nat → Nat) (k : Nat)
    (ls : List Text) :
    markersAt tokens number k (l :: ls) =
      { number := number k, text := stripReturns l, marker := m } ::
        markersAt tokens number (k + 1) ls := by
  simp [markersAt, markerLine?, h]

theorem markersAt_of_isOther {ls : List Text} (h : ∀ l ∈ ls, IsOther tokens l)
    (number : Nat → Nat) (k : Nat) : markersAt tokens number k ls = [] := by
  refine List.filterMap_eq_nil_iff.mpr fun p hp => ?_
  have hother := h p.1 (List.fst_mem_of_mem_zipIdx hp)
  simp [markerLine?, hother.classify_eq_none]

/-- Lines without a marker change nothing but the numbers of the marker lines.  The induction is on
the lines; the numbers start behind the lines that were put in front of the first one. -/
theorem markersAt_interleave (hgap : ∀ k, ∀ l ∈ gap k, IsOther tokens l) (ls : List Text) :
    ∀ k, markersAt tokens id (position gap k + 1) (interleave gap k ls) =
      markersAt tokens (position gap) (k + 1) ls := by
  induction ls with
  | nil =>
    intro k
    rw [interleave, markersAt_of_isOther (hgap k)]
    rfl
  | cons l ls ih =>
    intro k
    have hnumber : position gap k + 1 + (gap k).length = position gap (k + 1) := by
      rw [position]
      omega
    have hrest := ih (k + 1)
    rw [interleave, markersAt_append, markersAt_of_isOther (hgap k), List.nil_append, hnumber]
    simp only [markersAt, List.zipIdx_cons, List.filterMap_cons, id] at hrest ⊢
    rw [hrest]

end Scan

/-! ## The lines of a record -/

namespace TypeRecord

/-- The name, the value types and the member names of the record can stand as arguments. -/
structure IsPrintable (r : TypeRecord) : Prop where
  name : IsArgument r.name
  valueType : ∀ m ∈ r.members, IsArgument m.valueType
  memberName : ∀ m ∈ r.members, IsArgument m.name

/-- The line for a member of the type `parent`. -/
def memberLine (tokens : Tokens) (parent : Text) (m : Member) : Text :=
  Marker.invocation (tokens.word .member) [parent, m.valueType, m.name]

/-- The lines of a record. -/
def printed (tokens : Tokens) (r : TypeRecord) : List Text :=
  Marker.invocation (tokens.word .opening) [r.name] ::
    (r.members.map (memberLine tokens r.name) ++
      [Marker.invocation (tokens.word .closing) [r.name]])

/-- The lines of some records, one record behind the other. -/
def printedAll (tokens : Tokens) (rs : List TypeRecord) : List Text := rs.flatMap (printed tokens)

/-- The members of the type `parent`, the first one on line `k` and each one on a line of its own,
where line `i` has the number `number i`. -/
def placedMembers (number : Nat → Nat) (parent : Text) : Nat → List Member → List Member
  | _, [] => []
  | k, m :: ms =>
    { m with parent, line := number k } :: placedMembers number parent (k + 1) ms

/-- The record with the numbers of its lines, if the first of them is line `k`: the members are on
the lines behind it, and the record has the number of the line that closes it. -/
def placed (number : Nat → Nat) (k : Nat) (r : TypeRecord) : TypeRecord where
  name := r.name
  line := number (k + r.members.length + 1)
  members := placedMembers number r.name (k + 1) r.members

/-- The records with the numbers of their lines, if the first of all these is line `k`. -/
def placedAll (number : Nat → Nat) : Nat → List TypeRecord → List TypeRecord
  | _, [] => []
  | k, r :: rs => placed number k r :: placedAll number (k + r.members.length + 2) rs

theorem length_printed (tokens : Tokens) (r : TypeRecord) :
    (printed tokens r).length = r.members.length + 2 := by
  simp [printed]

end TypeRecord

/-- The line of a marker ends in a parenthesis, which is no carriage return. -/
theorem Source.stripReturns_invocation (token : Text) (args : List Text) :
    stripReturns (Marker.invocation token args) = Marker.invocation token args := by
  have hlast : lit ")" = [0x29] := by decide
  rw [stripReturns, Text.trimRightBy, Marker.invocation, hlast, List.reverse_append,
    List.reverse_singleton, List.singleton_append, List.dropWhile_cons_of_neg (by decide),
    List.reverse_cons, List.reverse_reverse]

/-- The line of a marker is one line if its arguments are. -/
theorem Marker.lineFeed_notMem_invocation {token : Text} {args : List Text}
    (htoken : isIdentifier token = true) (h : ∀ a ∈ args, IsArgument a) :
    0x0A ∉ invocation token args := by
  have hjoin : 0x0A ∉ Text.join (lit ", ") args := by
    induction args with
    | nil => decide
    | cons a args ih =>
      have ha := (h a List.mem_cons_self).oneLine
      have hrest := ih fun b hb => h b (List.mem_cons_of_mem a hb)
      cases args with
      | nil => simpa [Text.join, List.intercalate_singleton] using ha
      | cons b args =>
        rw [Text.join_cons_cons, List.mem_append, List.mem_append]
        rintro ((hmem | hmem) | hmem)
        · exact ha hmem
        · exact absurd hmem (by decide)
        · exact hrest hmem
  rw [invocation, List.mem_append, List.mem_append, List.mem_append]
  rintro (((hmem | hmem) | hmem) | hmem)
  · exact absurd (List.all_eq_true.mp (all_isWord_of_isIdentifier htoken) _ hmem) (by decide)
  · exact absurd hmem (by decide)
  · exact hjoin hmem
  · exact absurd hmem (by decide)

namespace Scan

open Source TypeRecord

variable {tokens : Tokens}

/-- The marker of a line that is written out. -/
theorem classify_stripReturns_invocation (htokens : tokens.error? = .none) (k : MarkerKind)
    {args : List Text} (hne : args ≠ []) (h : ∀ a ∈ args, IsArgument a) :
    Marker.classify tokens (stripReturns (Marker.invocation (tokens.word k) args)) =
      some { kind := k, args, closed := true } := by
  rw [stripReturns_invocation, Marker.classify_invocation htokens k hne h]

/-- No line of a printable record has a line feed in it. -/
theorem lineFeed_notMem_printed (htokens : tokens.error? = .none) {r : TypeRecord}
    (hr : r.IsPrintable) : ∀ l ∈ printed tokens r, 0x0A ∉ l := by
  have hident := fun k => (Tokens.word_of_error?_eq_none htokens k).1
  have hname : ∀ a ∈ [r.name], IsArgument a := List.forall_mem_singleton.mpr hr.name
  intro l hl
  rw [printed, List.mem_cons, List.mem_append, List.mem_map, List.mem_singleton] at hl
  rcases hl with rfl | ⟨m, hm, rfl⟩ | rfl
  · exact Marker.lineFeed_notMem_invocation (hident .opening) hname
  · refine Marker.lineFeed_notMem_invocation (hident .member) ?_
    simp [hr.name, hr.valueType m hm, hr.memberName m hm]
  · exact Marker.lineFeed_notMem_invocation (hident .closing) hname

/-- The lines of the members go to the pending block. -/
theorem foldl_step_members (htokens : tokens.error? = .none) (path : Text) (number : Nat → Nat)
    {parent : Text} (hparent : IsArgument parent) {ms : List Member}
    (hms : ∀ m ∈ ms, IsArgument m.valueType ∧ IsArgument m.name) :
    ∀ (k : Nat) (s : State) (b : Block), s.block = some b → b.parent = parent →
      (markersAt tokens number k (ms.map (memberLine tokens parent))).foldl (step path) s =
        { s with
          block := some { b with
            members := (placedMembers number parent k ms).reverse ++ b.members } } := by
  induction ms with
  | nil =>
    intro k s b hb hp
    simp [markersAt, placedMembers, ← hb]
  | cons m ms ih =>
    intro k s b hb hp
    obtain ⟨hv, hn⟩ := hms m List.mem_cons_self
    have hclass := classify_stripReturns_invocation htokens .member
      (List.cons_ne_nil parent [m.valueType, m.name]) (by simp [hparent, hv, hn])
    have hdescribes : Marker.Describes
        { kind := .member, args := [parent, m.valueType, m.name], closed := true }
        parent m.valueType m.name :=
      ⟨rfl, rfl, rfl, hparent.ne_nil, hv.ne_nil, hn.ne_nil⟩
    have hadd : ∀ n, addMember path s n parent m.valueType m.name =
        { s with
          block := some { b with members := { m with parent, line := n } :: b.members } } := by
      intro n
      simp [addMember, hb, hp]
    have hrest := ih fun m' hm' => hms m' (List.mem_cons_of_mem m hm')
    rw [List.map_cons, memberLine, markersAt_cons hclass, List.foldl_cons,
      step_of_describes path s hdescribes, hadd,
      hrest (k + 1) _ { b with members := _ :: b.members } rfl hp]
    simp [placedMembers]

/-- The lines of a record, read without a pending block, leave this record behind. -/
theorem foldl_step_printed (htokens : tokens.error? = .none) (path : Text) (number : Nat → Nat)
    (k : Nat) {r : TypeRecord} (hr : r.IsPrintable) {s : State} (hs : s.block = .none) :
    (markersAt tokens number k (printed tokens r)).foldl (step path) s =
      { s with records := placed number k r :: s.records } := by
  have hname : ∀ a ∈ [r.name], IsArgument a := List.forall_mem_singleton.mpr hr.name
  have hopening := classify_stripReturns_invocation htokens .opening (List.cons_ne_nil _ []) hname
  have hclosing := classify_stripReturns_invocation htokens .closing (List.cons_ne_nil _ []) hname
  have hopens : Marker.Opens { kind := .opening, args := [r.name], closed := true } r.name :=
    ⟨rfl, rfl, rfl, hr.name.ne_nil⟩
  have hcloses : Marker.Closes { kind := .closing, args := [r.name], closed := true } r.name :=
    ⟨rfl, rfl, rfl, hr.name.ne_nil⟩
  have hopen : ∀ n, openBlock path s n r.name =
      { s with block := some { parent := r.name, line := n, members := [] } } := by
    intro n
    simp [openBlock, hs]
  rw [printed, markersAt_cons hopening, List.foldl_cons, step_of_opens path s hopens, hopen,
    markersAt_append, List.foldl_append, foldl_step_members htokens path number hr.name
      (fun m hm => ⟨hr.valueType m hm, hr.memberName m hm⟩) (k + 1) _ _ rfl rfl, List.length_map,
    markersAt_cons hclosing, List.foldl_cons, step_of_closes path _ hcloses]
  simp only [closeBlock, beq_self_eq_true, if_true, List.append_nil, List.reverse_reverse]
  rw [show k + 1 + r.members.length = k + r.members.length + 1 by omega, ← hs]
  rfl

/-- The lines of some records leave these records behind. -/
theorem foldl_step_printedAll (htokens : tokens.error? = .none) (path : Text) (number : Nat → Nat)
    {rs : List TypeRecord} (hrs : ∀ r ∈ rs, r.IsPrintable) :
    ∀ (k : Nat) (s : State), s.block = .none →
      (markersAt tokens number k (printedAll tokens rs)).foldl (step path) s =
        { s with records := (placedAll number k rs).reverse ++ s.records } := by
  induction rs with
  | nil =>
    intro k s hs
    rfl
  | cons r rs ih =>
    intro k s hs
    have hrest := ih (fun r' hr' => hrs r' (List.mem_cons_of_mem r hr')) (k + r.members.length + 2)
    rw [printedAll, List.flatMap_cons, ← printedAll, markersAt_append, List.foldl_append,
      foldl_step_printed htokens path number k (hrs r List.mem_cons_self) hs, length_printed]
    rw [← Nat.add_assoc, hrest { s with records := placed number k r :: s.records } hs]
    simp [placedAll]

/-- A scan of printed records with lines without a marker between them. -/
theorem run_interleave_printedAll (htokens : tokens.error? = .none) (path : Text)
    {rs : List TypeRecord} (hrs : ∀ r ∈ rs, r.IsPrintable)
    (hshort : ∀ l ∈ printedAll tokens rs, l.length < maxLine) (gap : Nat → List Text)
    (hgap : ∀ k, ∀ l ∈ gap k, IsOther tokens l) :
    let scan := run tokens path (ofLines (interleave gap 0 (printedAll tokens rs)))
    scan.failures path = [] ∧ scan.records = placedAll (position gap) 1 rs := by
  have hone : ∀ l ∈ printedAll tokens rs, 0x0A ∉ l := by
    intro l hl
    obtain ⟨r, hr, hl⟩ := List.mem_flatMap.mp hl
    exact lineFeed_notMem_printed htokens (hrs r hr) l hl
  have hlines : lines (ofLines (interleave gap 0 (printedAll tokens rs))) =
      interleave gap 0 (printedAll tokens rs) :=
    lines_ofLines (forall_mem_interleave (fun k l hl => (hgap k l hl).oneLine) hone 0)
  have hcomplete : isComplete (ofLines (interleave gap 0 (printedAll tokens rs))) = true := by
    rw [isComplete_iff, hlines]
    exact forall_mem_interleave (fun k l hl => (hgap k l hl).short) hshort 0
  have hstate : states path (markers tokens (interleave gap 0 (printedAll tokens rs))) =
      { records := (placedAll (position gap) 1 rs).reverse } := by
    have hmarkers := markersAt_interleave hgap (printedAll tokens rs) 0
    have hfold := foldl_step_printedAll htokens path (position gap) hrs 1 {} rfl
    rw [show position gap 0 + 1 = 1 from rfl] at hmarkers
    rw [states, markers_eq_markersAt, hmarkers, hfold, List.append_nil]
  refine ⟨(failures_run_eq_nil tokens path _).mpr ⟨hcomplete, ?_⟩, ?_⟩
  · rw [hlines, hstate]
    rfl
  · rw [records_run hcomplete, hlines, hstate, List.reverse_reverse]

/-- **Scanning undoes printing.**  Printable records that are written with usable tokens, on lines
that can be read, are read back without a failure: the same records in the same order, every member
with its record's name as its parent, and every line number that of the written line.  Lines without
a marker, put anywhere between the lines, in front of them or behind them, change nothing but the
numbers, which go on to say where the written lines are. -/
theorem run_printed (tokens : Tokens) (htokens : tokens.error? = .none) (path : Text)
    (rs : List TypeRecord) (hrs : ∀ r ∈ rs, r.IsPrintable)
    (hshort : ∀ l ∈ printedAll tokens rs, l.length < maxLine) :
    ((run tokens path (ofLines (printedAll tokens rs))).failures path = [] ∧
      (run tokens path (ofLines (printedAll tokens rs))).records = placedAll id 1 rs) ∧
    ∀ gap : Nat → List Text, (∀ k, ∀ l ∈ gap k, IsOther tokens l) →
      let text := interleave gap 0 (printedAll tokens rs)
      (run tokens path (ofLines text)).failures path = [] ∧
      (run tokens path (ofLines text)).records = placedAll (position gap) 1 rs ∧
      ∀ i < (printedAll tokens rs).length,
        text[position gap (i + 1) - 1]? = (printedAll tokens rs)[i]? := by
  refine ⟨?_, fun gap hgap => ?_⟩
  · have hplain := run_interleave_printedAll htokens path hrs hshort (fun _ => []) (by simp)
    rw [interleave_nil, show position (fun _ => []) = id from funext position_nil] at hplain
    exact hplain
  · obtain ⟨hfailures, hrecords⟩ := run_interleave_printedAll htokens path hrs hshort gap hgap
    exact ⟨hfailures, hrecords, fun i hi => getElem?_interleave gap hi⟩

/-- A record with brackets, an arrow and a token in the texts of its members. -/
def boxRecord : TypeRecord where
  name := lit "geo::Box"
  line := 0
  members := [
    { parent := [], valueType := lit "std::pair<int, float>", name := lit "size", line := 0 },
    { parent := [], valueType := lit "auto (int) -> bool", name := lit "VX_RF_DATA(x)", line := 0 }]

/-- The record is read back, also with a comment behind its first line. -/
theorem run_printed_boxRecord :
    (∀ l ∈ printedAll .standard [boxRecord], l.length < maxLine) ∧
      (run .standard [] (ofLines (printedAll .standard [boxRecord]))).failures [] = [] ∧
      (run .standard [] (ofLines (interleave (fun k => if k = 1 then [lit "// size"] else []) 0
        (printedAll .standard [boxRecord])))).records =
          [{ name := boxRecord.name, line := 5,
             members := placedMembers (· + 1) boxRecord.name 2 boxRecord.members }] := by
  have hrecord : ∀ r ∈ [boxRecord], r.IsPrintable := by
    refine List.forall_mem_singleton.mpr ⟨by decide +kernel, ?_, ?_⟩
    · decide +kernel
    · decide +kernel
  have hshort : ∀ l ∈ printedAll .standard [boxRecord], l.length < maxLine := by decide +kernel
  have hother : IsOther .standard (lit "// size") := ⟨by decide +kernel, by decide, by decide⟩
  have key := run_printed .standard (by decide +kernel) [] [boxRecord] hrecord hshort
  refine ⟨hshort, key.1.1, (key.2 _ fun k l hl => ?_).2.1⟩
  split at hl
  · exact List.mem_singleton.mp hl ▸ hother
  · exact absurd hl List.not_mem_nil

end Scan

end ReflectGen

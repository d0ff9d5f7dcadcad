import ReflectGen.Emission.Render
import ReflectGen.Proofs.Marker.Balance
import ReflectGen.Proofs.Marker.Leftmost
import ReflectGen.Proofs.Path
import ReflectGen.Proofs.Scan.Records

/-!
# Fields that can be spliced

The names and types of a record are put into a generated source as they are, between the parentheses
of calls, and nothing there looks at them again.  That this is safe depends on where they come from:
each is a trimmed argument of a marker that is closed on its line, and such an argument closes the
parentheses that it opens and no other.  So the parenthesis behind a field in a call is the one that
ends the call, whatever stands behind it.

* `IsField`: what is asked of a text that is put into a generated source.
* `Arguments.isField_of_mem_split`, `Source.isField_of_markerAt?`: the arguments of closed markers.
* `Render.Calls`: a call in a generated source, with its own closing parenthesis; `Render.Spliced`
  says it of all calls for a record.
* `Scan.run_records_spliced`: the records of all texts.
-/

namespace ReflectGen

/-- The text can be put into a generated source: it is UTF-8 on one line without blanks at its ends,
it is not empty, and it is balanced in parentheses. -/
structure IsField (t : Text) : Prop where
  ne_nil : t ≠ []
  utf8 : t.isUtf8 = true
  trimmed : t.trim = t
  oneLine : 0x0A ∉ t
  balanced : Arguments.Balanced '(' ')' t.chars

/-! ## Arguments of closed markers -/

theorem trimChars_subset (cs : List Char) : trimChars cs ⊆ cs := by
  obtain ⟨front, back, heq, -, -⟩ := Text.exists_append_trimBy isBlank cs
  intro c hc
  rw [heq]
  exact List.mem_append_left back (List.mem_append_right front hc)

namespace Arguments

/-- Every character of a piece was read. -/
theorem loop_subset {cs : List Char} {c : Char} : ∀ {d : Depths} {cur : List Char}
    {done : List (List Char)}, ∀ p ∈ (loop cs d cur done).1, c ∈ p →
    c ∈ cs ∨ c ∈ cur ∨ ∃ q ∈ done, c ∈ q := by
  induction cs with
  | nil =>
    intro d cur done p hp hc
    rw [loop, List.mem_reverse, List.mem_cons] at hp
    rcases hp with rfl | hp
    · exact .inr (.inl (List.mem_reverse.mp hc))
    · exact .inr (.inr ⟨p, hp, hc⟩)
  | cons a cs ih =>
    intro d cur done p hp hc
    rw [loop] at hp
    split at hp
    · rw [List.mem_reverse, List.mem_cons] at hp
      rcases hp with rfl | hp
      · exact .inr (.inl (List.mem_reverse.mp hc))
      · exact .inr (.inr ⟨p, hp, hc⟩)
    · split at hp
      · rcases ih p hp hc with h | h | ⟨q, hq, h⟩
        · exact .inl (List.mem_cons_of_mem a h)
        · exact absurd h List.not_mem_nil
        · rcases List.mem_cons.mp hq with rfl | hq
          · exact .inr (.inl (List.mem_reverse.mp h))
          · exact .inr (.inr ⟨q, hq, h⟩)
      · rcases ih p hp hc with h | h | h
        · exact .inl (List.mem_cons_of_mem a h)
        · rcases List.mem_cons.mp h with rfl | h
          · exact .inl List.mem_cons_self
          · exact .inr (.inl h)
        · exact .inr (.inr h)

/-- An argument of a closed marker that is not empty is a field. -/
theorem isField_of_mem_split {t arg : Text} (hclosed : (split t).2 = true)
    (harg : arg ∈ (split t).1) (hne : arg ≠ []) (hline : 0x0A ∉ t) : IsField arg := by
  obtain ⟨p, hp, rfl⟩ : ∃ p ∈ (pieces t.chars).1, Text.ofChars (trimChars p) = arg :=
    List.mem_map.mp harg
  have hutf8 := Text.isUtf8_ofChars (trimChars p)
  refine ⟨hne, hutf8, ?_, ?_, split_balanced hclosed harg⟩
  · rw [Text.trim_ofChars, trimChars, trimChars, Text.trimBy_trimBy]
  · -- a line feed in the argument is one in the text
    intro hmem
    have hchar := Text.mem_chars_of_mem hutf8 (by decide) hmem
    rw [Text.chars_ofChars] at hchar
    rcases loop_subset p hp (trimChars_subset p hchar) with h | h | ⟨q, hq, -⟩
    · exact hline (Text.mem_of_mem_chars (by decide) h)
    · exact List.not_mem_nil h
    · exact List.not_mem_nil hq

end Arguments

/-! ## Fields of marker lines -/

namespace Marker

variable {tokens : Tokens}

/-- The arguments of an invocation are taken from behind a parenthesis on the line. -/
theorem findLoop_suffix {k : MarkerKind} {rest t : Text} : ∀ {word : Text},
    findLoop tokens t word = some (k, rest) → 0x28 :: rest <:+ t := by
  induction t with
  | nil =>
    intro word h
    exact absurd h (by simp [findLoop])
  | cons b t ih =>
    intro word h
    rw [findLoop] at h
    split at h
    · exact (ih h).trans (List.suffix_cons b t)
    · split at h
      · next k' rest' _ hskip =>
        obtain ⟨rfl, rfl⟩ := Prod.mk.inj (Option.some.inj h)
        obtain ⟨spaces, heq, -⟩ := exists_spaces hskip
        exact ⟨spaces, heq.symm⟩
      · exact (ih h).trans (List.suffix_cons b t)

/-- The marker on a line is that of an invocation, and its arguments stand on the line. -/
theorem exists_of_classify_eq_some {line : Text} {m : Marker} (h : classify tokens line = some m) :
    ∃ rest, rest <:+ line ∧ m.args = (Arguments.split rest).1 ∧
      m.closed = (Arguments.split rest).2 := by
  rw [classify] at h
  split at h
  · exact absurd h (by simp)
  · split at h
    · next k rest hfind =>
      obtain rfl := Option.some.inj h
      exact ⟨rest, (List.suffix_cons 0x28 rest).trans (findLoop_suffix hfind), rfl, rfl⟩
    · exact absurd h (by simp)

end Marker

namespace Source

/-- The lines are pieces between line feeds. -/
theorem mem_splitOn_of_mem_lines {content line : Text} (h : line ∈ lines content) :
    line ∈ Text.splitOn 0x0A content := by
  rw [lines] at h
  split at h
  · exact List.mem_of_mem_dropLast h
  · exact h

/-- No line has a line feed in it. -/
theorem lineFeed_notMem_of_mem_readable {content line : Text} (h : line ∈ readable content) :
    0x0A ∉ line :=
  Text.notMem_of_mem_splitOn (mem_splitOn_of_mem_lines ((List.takeWhile_prefix _).subset h))

theorem stripReturns_subset (line : Text) : stripReturns line ⊆ line := fun _ hb =>
  (List.rdropWhile_prefix _ line).subset hb

variable {tokens : Tokens} {lines : List Text} {n : Nat} {m : Marker}

/-- A non-empty argument of a closed marker line is a field. -/
theorem isField_of_markerAt? (hlines : ∀ line ∈ lines, 0x0A ∉ line)
    (hm : markerAt? tokens lines n = some m) (hclosed : m.closed = true) {arg : Text}
    (harg : arg ∈ m.args) (hne : arg ≠ []) : IsField arg := by
  cases n with
  | zero => exact absurd hm (by simp [markerAt?])
  | succ n =>
    obtain ⟨line, hline, hclassify⟩ := Option.bind_eq_some_iff.mp hm
    obtain ⟨rest, hrest, hargs, hclose⟩ := Marker.exists_of_classify_eq_some hclassify
    refine Arguments.isField_of_mem_split (hclose ▸ hclosed) (hargs ▸ harg) hne fun hmem => ?_
    exact hlines line (List.mem_of_getElem? hline) (stripReturns_subset line (hrest.subset hmem))

/-- The name of an enclosed block is a field. -/
theorem ClosesAt.isField (hlines : ∀ line ∈ lines, 0x0A ∉ line) {parent : Text}
    (h : ClosesAt tokens lines n parent) : IsField parent := by
  obtain ⟨m, hm, hcloses⟩ := h
  exact isField_of_markerAt? hlines hm hcloses.closed (by simp [hcloses.args]) hcloses.parent_ne_nil

/-- What a member line says are fields. -/
theorem isField_of_memberAt? (hlines : ∀ line ∈ lines, 0x0A ∉ line) {parent : Text}
    {member : Member} (h : memberAt? tokens lines parent n = some member) :
    IsField member.parent ∧ IsField member.valueType ∧ IsField member.name := by
  obtain ⟨m, valueType, name, hm, hd, rfl⟩ := memberAt?_eq_some_iff.mp h
  have hfield : ∀ arg ∈ m.args, arg ≠ [] → IsField arg := fun arg harg hne =>
    isField_of_markerAt? hlines hm hd.closed harg hne
  exact ⟨hfield _ (by simp [hd.args]) hd.parent_ne_nil,
    hfield _ (by simp [hd.args]) hd.valueType_ne_nil,
    hfield _ (by simp [hd.args]) hd.name_ne_nil⟩

end Source

/-! ## Fields of records -/

/-- All names and types in a record are fields. -/
structure TypeRecord.HasFields (r : TypeRecord) : Prop where
  name : IsField r.name
  members : ∀ m ∈ r.members, IsField m.parent ∧ IsField m.valueType ∧ IsField m.name

namespace Scan

open Source

variable {tokens : Tokens} {lines : List Text} {s : State}

/-- All records of a scan have fields, whatever else is on the lines. -/
theorem Tracks.hasFields (h : Tracks tokens lines s) (hlines : ∀ line ∈ lines, 0x0A ∉ line)
    {r : TypeRecord} (hr : r ∈ s.records) : r.HasFields := by
  obtain ⟨b, e, parent, henc, rfl⟩ := (h.mem_records r).mp hr
  refine ⟨henc.closes.isField hlines, fun m hm => ?_⟩
  obtain ⟨n, -, hn⟩ := List.mem_filterMap.mp hm
  exact isField_of_memberAt? hlines hn

/-- The records of a text, whether it is read whole or not. -/
theorem records_run_eq_states (tokens : Tokens) (path content : Text) :
    (run tokens path content).records =
      (states path (markers tokens (readable content))).records.reverse := by
  cases h : isComplete content with
  | true => simp [run, h]
  | false => simp [run, h]

theorem hasFields_of_mem_records_run {path content : Text} {r : TypeRecord}
    (hr : r ∈ (run tokens path content).records) : r.HasFields := by
  rw [records_run_eq_states, List.mem_reverse] at hr
  exact (tracks_states tokens path (readable content)).hasFields
    (fun _ hline => lineFeed_notMem_of_mem_readable hline) hr

end Scan

/-! ## Calls in generated sources -/

namespace Render

/-- In the text stands a call of `f` with the argument `arg`, and the parenthesis behind the
argument is the first one from there on that closes more than was opened behind the parenthesis of
the call. -/
def Calls (text f arg : Text) : Prop :=
  ∃ front back : Text, text = front ++ (f ++ lit "(" ++ arg ++ lit ")") ++ back ∧
    Arguments.ClosesBehind (arg ++ lit ")" ++ back).chars arg.chars

/-- Each field of the record is the argument of its calls in the text. -/
structure Spliced (text : Text) (r : TypeRecord) : Prop where
  sizeof : Calls text (lit "sizeof") r.name
  alignof : Calls text (lit "__alignof") r.name
  sizeof_member : ∀ m ∈ r.members, Calls text (lit "sizeof") m.valueType
  alignof_member : ∀ m ∈ r.members, Calls text (lit "__alignof") m.valueType
  offsetof_member : ∀ m ∈ r.members, Calls text (lit "offsetof") (r.name ++ lit ", " ++ m.name)

/-- A balanced argument is followed by the parenthesis of its call. -/
theorem calls_of_balanced {text f arg : Text} (hbalanced : Arguments.Balanced '(' ')' arg.chars)
    (h : f ++ lit "(" ++ arg ++ lit ")" <:+: text) : Calls text f arg := by
  obtain ⟨front, back, rfl⟩ := h
  have hchars : ∀ back : Text, (arg ++ lit ")" ++ back).chars = arg.chars ++ ')' :: back.chars := by
    intro back
    rw [show lit ")" = [0x29] from rfl, List.append_assoc, List.singleton_append,
      Text.chars_append_ascii (by decide)]
    rfl
  refine ⟨front, back, rfl, ?_⟩
  rw [hchars]
  exact hbalanced.closesBehind _

/-- Two fields with a comma between them are balanced. -/
theorem balanced_pair {s t : Text} (hs : IsField s) (ht : IsField t) :
    Arguments.Balanced '(' ')' (s ++ lit ", " ++ t).chars := by
  have hcomma : Arguments.Balanced '(' ')' [',', ' '] :=
    Arguments.balanced_of_notMem (by decide) (by decide)
  have hchars : (s ++ lit ", " ++ t).chars = s.chars ++ ([',', ' '] ++ t.chars) := by
    rw [List.append_assoc, Text.chars_append_of_isUtf8 hs.utf8,
      Text.chars_append_of_isUtf8 (by decide)]
    rfl
  rw [hchars]
  exact hs.balanced.append (hcomma.append ht.balanced)

theorem isInfix_append_right {t u : Text} (front : Text) (h : t <:+: u) : t <:+: front ++ u :=
  h.trans (List.suffix_append front u).isInfix

theorem isInfix_flatMap {α : Type} {write : α → Text} {l : List α} {a : α} (h : a ∈ l) :
    write a <:+: l.flatMap write := by
  obtain ⟨front, back, rfl⟩ := List.append_of_mem h
  rw [List.flatMap_append, List.flatMap_cons]
  exact List.infix_append' _ _ _

/-- A call in front of a text. -/
theorem call_isInfix (f arg rest : Text) :
    f ++ (lit "(" ++ (arg ++ lit ")")) <:+: f ++ (lit "(" ++ (arg ++ (lit ")" ++ rest))) :=
  ⟨[], rest, by simp⟩

/-- The calls for the name of a type stand in front of its members. -/
theorem calls_isInfix_renderType (o : EmitOptions) (r : TypeRecord) :
    lit "sizeof" ++ lit "(" ++ r.name ++ lit ")" <:+: renderType o r ∧
      lit "__alignof" ++ lit "(" ++ r.name ++ lit ")" <:+: renderType o r ∧
      ∀ m ∈ r.members, renderMember o r.name m <:+: renderType o r := by
  have hsizeof : lit ", sizeof(" = lit ", " ++ (lit "sizeof" ++ lit "(") := by decide
  have halignof : lit "), __alignof(" = lit ")" ++ (lit ", " ++ (lit "__alignof" ++ lit "(")) := by
    decide
  have hend : lit "), " = lit ")" ++ lit ", " := by decide
  unfold renderType renderDescriptor
  rw [hsizeof, halignof, hend]
  simp only [List.append_assoc]
  refine ⟨?_, ?_, fun m hm => ?_⟩
  · iterate 5 refine isInfix_append_right _ ?_
    exact call_isInfix _ _ _
  · iterate 10 refine isInfix_append_right _ ?_
    exact call_isInfix _ _ _
  · iterate 19 refine isInfix_append_right _ ?_
    exact (isInfix_flatMap hm).trans (List.prefix_append _ _).isInfix

/-- The calls for a member stand in its description. -/
theorem calls_isInfix_renderMember (o : EmitOptions) (typeName : Text) (m : Member) :
    lit "sizeof" ++ lit "(" ++ m.valueType ++ lit ")" <:+: renderMember o typeName m ∧
      lit "__alignof" ++ lit "(" ++ m.valueType ++ lit ")" <:+: renderMember o typeName m ∧
      lit "offsetof" ++ lit "(" ++ (typeName ++ lit ", " ++ m.name) ++ lit ")" <:+:
        renderMember o typeName m := by
  have hsizeof : lit ", sizeof(" = lit ", " ++ (lit "sizeof" ++ lit "(") := by decide
  have halignof : lit "), __alignof(" = lit ")" ++ (lit ", " ++ (lit "__alignof" ++ lit "(")) := by
    decide
  have hoffsetof : lit "), offsetof(" = lit ")" ++ (lit ", " ++ (lit "offsetof" ++ lit "(")) := by
    decide
  have hend : lit "), " = lit ")" ++ lit ", " := by decide
  unfold renderMember
  rw [hsizeof, halignof, hoffsetof, hend]
  simp only [List.append_assoc]
  refine ⟨?_, ?_, ?_⟩
  · iterate 7 refine isInfix_append_right _ ?_
    exact call_isInfix _ _ _
  · iterate 12 refine isInfix_append_right _ ?_
    exact call_isInfix _ _ _
  · iterate 17 refine isInfix_append_right _ ?_
    simpa only [List.append_assoc] using
      call_isInfix (lit "offsetof") (typeName ++ lit ", " ++ m.name) _

/-- Fields are spliced into every text that has the descriptor of their record in it. -/
theorem spliced_of_isInfix {o : EmitOptions} {r : TypeRecord} (hfields : r.HasFields) {text : Text}
    (h : renderType o r <:+: text) : Spliced text r := by
  obtain ⟨hsizeof, halignof, hmembers⟩ := calls_isInfix_renderType o r
  refine ⟨calls_of_balanced hfields.name.balanced (hsizeof.trans h),
    calls_of_balanced hfields.name.balanced (halignof.trans h), ?_, ?_, ?_⟩
  all_goals
    intro m hm
    obtain ⟨-, hvalueType, hname⟩ := hfields.members m hm
    obtain ⟨hsizeof, halignof, hoffsetof⟩ := calls_isInfix_renderMember o r.name m
    have hmember := (hmembers m hm).trans h
  · exact calls_of_balanced hvalueType.balanced (hsizeof.trans hmember)
  · exact calls_of_balanced hvalueType.balanced (halignof.trans hmember)
  · exact calls_of_balanced (balanced_pair hfields.name hname) (hoffsetof.trans hmember)

end Render

namespace Scan

/-- **The fields of scanned records can be spliced.**  Whatever the text is, also if it has faults
or a line that is too long to be read, all names and types in its records are non-empty UTF-8 on one
line, without blanks at their ends and balanced in parentheses.  So in every source that is rendered
for these records, the parenthesis behind a field in a call is the one that ends the call. -/
theorem run_records_spliced (tokens : Tokens) (path content : Text) :
    (∀ r ∈ (run tokens path content).records, r.HasFields) ∧
      ∀ version source o text,
        render version source (run tokens path content).records o = .ok text →
        ∀ r ∈ (run tokens path content).records, Render.Spliced text r := by
  refine ⟨fun r hr => hasFields_of_mem_records_run hr, fun version source o text h r hr => ?_⟩
  unfold render at h
  cases hv : Version.resolve version with
  | error e =>
    rw [hv] at h
    exact absurd h (by simp [Except.map])
  | ok v =>
    rw [hv] at h
    obtain rfl := Except.ok.inj h
    refine Render.spliced_of_isInfix (o := o) (hasFields_of_mem_records_run hr) ?_
    exact Render.isInfix_append_right _ (Render.isInfix_flatMap hr)

/-- A text with a value type that has parentheses in it, and with a marker for no block. -/
def nestedText : Text := lit "B(A)\nD(A, std::function<int(char, f(2))>, go)\nE(A)\nE(Z\n"

/-- The record of the nested text. -/
def nestedRecord : TypeRecord where
  name := lit "A"
  line := 3
  members :=
    [{ parent := lit "A", valueType := lit "std::function<int(char, f(2))>", name := lit "go",
       line := 2 }]

/-- The parentheses of a value type are its own in the source for its record. -/
theorem run_records_spliced_nestedText :
    nestedRecord ∈ (run letterTokens (lit "a.h") nestedText).records ∧
      (run letterTokens (lit "a.h") nestedText).failures (lit "a.h") ≠ [] ∧
      nestedRecord.HasFields ∧
      Render.Spliced (Render.renderSource Version.development (lit "a.h") [nestedRecord] .standard)
        nestedRecord := by
  have hmem : nestedRecord ∈ (run letterTokens (lit "a.h") nestedText).records := by
    decide +kernel
  obtain ⟨hfields, hspliced⟩ := run_records_spliced letterTokens (lit "a.h") nestedText
  exact ⟨hmem, by decide +kernel, hfields nestedRecord hmem,
    hspliced [] (lit "a.h") .standard _ (by decide +kernel) nestedRecord hmem⟩

end Scan

end ReflectGen

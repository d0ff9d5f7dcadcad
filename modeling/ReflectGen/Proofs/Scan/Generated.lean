import Mathlib.Data.List.Infix
import ReflectGen.Proofs.Marker.Leftmost
import ReflectGen.Proofs.Render
import ReflectGen.Proofs.Scan.Fields
import ReflectGen.Proofs.Scan.Printed

/-!
# Generated sources have no markers

A generated source may lie where sources are looked for, and then it is scanned like any other.  No
line of it is a marker line if no token occurs in the names that are put into it.  A token is a
word, so it cannot lie across a place with a byte on one side that is in no word.  The fixed parts
of a generated source begin and end with such bytes, hence a token would have to lie in one of the
names, with one exception: the variable of a type is the global prefix and what is left of the
type's name, and these two together may spell a token although neither of them has one in it.  But
behind a variable stands a line feed or a point, and so the token is not invoked.

* `Tokens.Free`: texts in which no token occurs.
* `Tokens.Idle`: texts in which tokens may occur, but none that is invoked on its line;
  `Tokens.Idle.append` puts two of them together.
* `Render.IsTail`: idle texts that end the word in front of them; the parts of a generated source
  are put in front of them one by one.
* `Marker.classify_of_idle`: the lines of an idle text are no marker lines.
* `Scan.run_render`: scanning a generated source finds nothing.
-/

namespace ReflectGen

namespace Tokens

variable {tokens : Tokens} {t u : Text}

/-! ## Tokens that are not invoked -/

/-- No token occurs in the text. -/
def Free (tokens : Tokens) (t : Text) : Prop := ∀ k, ¬ tokens.word k <:+: t

theorem free_iff : tokens.Free t ↔
    ¬ tokens.word .opening <:+: t ∧ ¬ tokens.word .member <:+: t ∧ ¬ tokens.word .closing <:+: t :=
  ⟨fun h => ⟨h .opening, h .member, h .closing⟩,
    fun ⟨ho, hm, hc⟩ k => by cases k <;> assumption⟩

instance (tokens : Tokens) (t : Text) : Decidable (tokens.Free t) := decidable_of_iff' _ free_iff

/-- Behind a word this byte keeps it from being invoked: it goes on with the word, ends the line, or
is the point of a member access. -/
def isGuard (b : UInt8) : Bool := isWord b || b == 0x0A || b == 0x2E

/-- Behind every token in the text stands a guard. -/
def Idle (tokens : Tokens) (t : Text) : Prop :=
  ∀ k front back, t = front ++ tokens.word k ++ back → ∃ b ∈ back.head?, isGuard b = true

theorem Free.of_isInfix (h : tokens.Free t) (hpart : u <:+: t) : tokens.Free u :=
  fun k hk => h k (hk.trans hpart)

/-- Where no token occurs, there is none to be guarded. -/
theorem Free.idle (h : tokens.Free t) : tokens.Idle t := fun k front back ht =>
  absurd ⟨front, back, ht.symm⟩ (h k)

/-- A usable token has a byte, and all its bytes are in words. -/
theorem word_isWord (htokens : tokens.error? = none) (k : MarkerKind) :
    tokens.word k ≠ [] ∧ ∀ b ∈ tokens.word k, isWord b = true := by
  obtain ⟨hident, -⟩ := word_of_error?_eq_none htokens k
  refine ⟨fun h => ?_, List.all_eq_true.mp (all_isWord_of_isIdentifier hident)⟩
  rw [h] at hident
  exact absurd hident (by decide)

/-- **Seams.**  Two idle texts are idle together if no word goes on from one to the other: a token
lies in one of them, or it would have bytes on both sides of the seam. -/
theorem Idle.append (htokens : tokens.error? = none) (ht : tokens.Idle t) (hu : tokens.Idle u)
    (hseam : (∀ b ∈ t.getLast?, isWord b = false) ∨ ∀ b ∈ u.head?, isWord b = false) :
    tokens.Idle (t ++ u) := by
  intro k front back heq
  obtain ⟨-, hword⟩ := word_isWord htokens k
  rw [List.append_assoc, List.append_eq_append_iff] at heq
  rcases heq with ⟨mid, -, rfl⟩ | ⟨left, rfl, hcut⟩
  · exact hu k mid back (List.append_assoc _ _ _).symm
  · rw [List.append_eq_append_iff] at hcut
    rcases hcut with ⟨between, rfl, rfl⟩ | ⟨right, hsplit, rfl⟩
    · obtain ⟨b, hb, hguard⟩ := ht k front between (List.append_assoc _ _ _).symm
      exact ⟨b, List.mem_head?_append_of_mem_head? hb, hguard⟩
    · -- The token is cut into `left` and `right`, so one of them is empty.
      rw [hsplit] at hword
      rcases List.eq_nil_or_concat left with rfl | ⟨left, c, rfl⟩
      · exact hu k [] back (by rw [hsplit, List.nil_append, List.nil_append])
      · cases right with
        | nil =>
          obtain ⟨b, hb, -⟩ := ht k front [] (by rw [hsplit, List.append_nil, List.append_nil])
          exact absurd hb (by simp)
        | cons b right =>
          rcases hseam with hlast | hfirst
          · have hc : isWord c = true := hword c (by simp)
            rw [hlast c (by simp)] at hc
            exact absurd hc (by simp)
          · have hb : isWord b = true := hword b (by simp)
            rw [hfirst b rfl] at hb
            exact absurd hb (by simp)

end Tokens

namespace Render

variable {tokens : Tokens} {t u l : Text}

/-! ## The parts of a generated source -/

/-- The text can stand behind a name: it is idle, and it does not go on with a word. -/
structure IsTail (tokens : Tokens) (t : Text) : Prop where
  usable : tokens.error? = none
  idle : tokens.Idle t
  head : ∀ b ∈ t.head?, isWord b = false

/-- The text can stand between names: no token occurs in it, and its first and its last byte are in
no word. -/
structure IsFixed (tokens : Tokens) (t : Text) : Prop where
  free : tokens.Free t
  head : t.head?.any (!isWord ·) = true
  last : t.getLast?.any (!isWord ·) = true

theorem isFixed_iff : IsFixed tokens t ↔
    tokens.Free t ∧ t.head?.any (!isWord ·) = true ∧ t.getLast?.any (!isWord ·) = true :=
  ⟨fun h => ⟨h.free, h.head, h.last⟩, fun ⟨h₁, h₂, h₃⟩ => ⟨h₁, h₂, h₃⟩⟩

instance (tokens : Tokens) (t : Text) : Decidable (IsFixed tokens t) :=
  decidable_of_iff' _ isFixed_iff

theorem isTail_nil (htokens : tokens.error? = none) : IsTail tokens [] where
  usable := htokens
  idle k front back h := by
    simp [(Tokens.word_isWord htokens k).1] at h
  head := by simp

/-- A fixed part in front of an idle text. -/
theorem IsFixed.isTail (hl : IsFixed tokens l) (htokens : tokens.error? = none)
    (ht : tokens.Idle t) : IsTail tokens (l ++ t) := by
  obtain ⟨b, hb, hfirst⟩ := (Option.any_eq_true _ _).mp hl.head
  obtain ⟨c, hc, hlast⟩ := (Option.any_eq_true _ _).mp hl.last
  rw [Bool.not_eq_true'] at hfirst hlast
  refine ⟨htokens, hl.free.idle.append htokens ht (.inl ?_), ?_⟩
  · rw [hc]
    rintro _ ⟨⟩
    exact hlast
  · rw [List.head?_append, hb, Option.some_or]
    rintro _ ⟨⟩
    exact hfirst

namespace IsTail

/-- A name in front of a tail. -/
theorem idle_append (ht : IsTail tokens t) (hu : tokens.Free u) : tokens.Idle (u ++ t) :=
  hu.idle.append ht.usable ht.idle (.inr ht.head)

/-- A fixed part in front of a tail. -/
theorem fixed (hl : IsFixed tokens l) (ht : IsTail tokens t) : IsTail tokens (l ++ t) :=
  hl.isTail ht.usable ht.idle

/-- A fixed part and a name. -/
theorem named (hl : IsFixed tokens l) (hu : tokens.Free u) (ht : IsTail tokens t) :
    IsTail tokens (l ++ (u ++ t)) :=
  hl.isTail ht.usable (ht.idle_append hu)

/-- A row of parts in front of a tail. -/
theorem flatMap {α : Type} {write : α → Text} {as : List α}
    (hwrite : ∀ a ∈ as, ∀ t, IsTail tokens t → IsTail tokens (write a ++ t))
    (ht : IsTail tokens t) : IsTail tokens (as.flatMap write ++ t) := by
  induction as with
  | nil => exact ht
  | cons a as ih =>
    rw [List.forall_mem_cons] at hwrite
    rw [List.flatMap_cons, List.append_assoc]
    exact hwrite.1 _ (ih hwrite.2)

end IsTail

/-! ## Quoted names, headers and variables -/

/-- A byte of a quoted text stands for itself, or a backslash and a byte that is in no word stand
for it. -/
theorem cByte_cases (b : UInt8) :
    cByte b = [b] ∨ cByte b = [0x5C, b] ∧ isWord b = false := by
  unfold cByte
  split
  · next h =>
    rw [Bool.or_eq_true, beq_iff_eq, beq_iff_eq] at h
    rcases h with rfl | rfl
    · exact .inr ⟨rfl, by decide⟩
    · exact .inr ⟨rfl, by decide⟩
  · exact .inl rfl

/-- A word does not begin with a byte that is in no word. -/
theorem not_isPrefix_cons {w : Text} (hne : w ≠ []) (hw : ∀ b ∈ w, isWord b = true) {b : UInt8}
    (hb : isWord b = false) : ¬ w <+: b :: t := by
  cases w with
  | nil => exact absurd rfl hne
  | cons c w =>
    intro h
    rw [(List.cons_prefix_cons.mp h).1] at hw
    exact absurd (hw b List.mem_cons_self) (by simp [hb])

/-- A word in front of a quoted text is in front of the text itself. -/
theorem isPrefix_of_isPrefix_flatMap_cByte {w : Text} (hw : ∀ b ∈ w, isWord b = true) :
    ∀ {t : Text}, w <+: t.flatMap cByte → w <+: t := by
  induction w with
  | nil => exact fun _ => List.nil_prefix
  | cons c w ih =>
    intro t h
    cases t with
    | nil => exact h
    | cons b t =>
      rw [List.flatMap_cons] at h
      rcases cByte_cases b with hb | ⟨hb, -⟩
      · rw [hb, List.singleton_append, List.cons_prefix_cons] at h
        rw [List.forall_mem_cons] at hw
        exact List.cons_prefix_cons.mpr ⟨h.1, ih hw.2 h.2⟩
      · rw [hb] at h
        exact absurd h (not_isPrefix_cons (List.cons_ne_nil c w) hw (by decide))

/-- A word that occurs in a quoted text occurs in the text itself. -/
theorem isInfix_of_isInfix_flatMap_cByte {w : Text} (hne : w ≠ [])
    (hw : ∀ b ∈ w, isWord b = true) (h : w <:+: t.flatMap cByte) : w <:+: t := by
  induction t with
  | nil => exact h
  | cons b t ih =>
    rw [List.flatMap_cons] at h
    rcases cByte_cases b with hb | ⟨hb, hword⟩
    · rw [hb, List.singleton_append, List.infix_cons_iff] at h
      rcases h with h | h
      · refine (isPrefix_of_isPrefix_flatMap_cByte hw (t := b :: t) ?_).isInfix
        rw [List.flatMap_cons, hb]
        exact h
      · exact List.infix_cons (ih h)
    · rw [hb, List.cons_append, List.infix_cons_iff, List.singleton_append,
        List.infix_cons_iff] at h
      rcases h with h | h | h
      · exact absurd h (not_isPrefix_cons hne hw (by decide))
      · exact absurd h (not_isPrefix_cons hne hw hword)
      · exact List.infix_cons (ih h)

/-- The quotes around a name. -/
theorem isFixed_quote (htokens : tokens.error? = none) : IsFixed tokens [0x22] where
  free k h := by
    obtain ⟨hne, hw⟩ := Tokens.word_isWord htokens k
    rw [List.infix_cons_iff, List.infix_nil] at h
    exact h.elim (not_isPrefix_cons hne hw (by decide)) hne
  head := by decide
  last := by decide

/-- A fixed part and a quoted name. -/
theorem IsTail.quoted (hl : IsFixed tokens l) (hu : tokens.Free u) (ht : IsTail tokens t) :
    IsTail tokens (l ++ (cString u ++ t)) := by
  have hquote := isFixed_quote ht.usable
  have hbytes : tokens.Free (u.flatMap cByte) := fun k h => by
    obtain ⟨hne, hw⟩ := Tokens.word_isWord ht.usable k
    exact hu k (isInfix_of_isInfix_flatMap_cByte hne hw h)
  have hinner := IsTail.named hquote hbytes (.fixed hquote ht)
  refine hl.isTail ht.usable ?_
  simpa [cString] using hinner.idle

/-- Trimming leaves an infix of a text. -/
theorem trim_isInfix (t : Text) : t.trim <:+: t := by
  have hrunes : Text.trimBy (Rune.isCharWith isBlank) t.runes <:+: t.runes :=
    (List.rdropWhile_prefix _ _).isInfix.trans (List.dropWhile_suffix _).isInfix
  have hbytes := hrunes.flatMap Rune.bytes
  have hall : t.runes.flatMap Rune.bytes = t := Text.ofRunes_runes t
  rw [hall] at hbytes
  exact hbytes

theorem includeDirective_cases (header : Text) :
    includeDirective header = header.trim ∨
      includeDirective header = [0x22] ++ (header.trim ++ [0x22]) := by
  rw [includeDirective]
  split
  · exact .inl rfl
  · exact .inl rfl
  · exact .inr rfl

/-- A fixed part and the header of an include directive. -/
theorem IsTail.header (hl : IsFixed tokens l) (hu : tokens.Free u) (ht : IsTail tokens t) :
    IsTail tokens (l ++ (includeDirective u ++ t)) := by
  have htrim : tokens.Free u.trim := hu.of_isInfix (trim_isInfix u)
  have hquote := isFixed_quote ht.usable
  rcases includeDirective_cases u with h | h
  · rw [h]
    exact .named hl htrim ht
  · rw [h, List.append_assoc, List.append_assoc]
    exact .fixed hl (.named hquote htrim (.fixed hquote ht))

/-- **Variables.**  A token may reach from the prefix of a variable into what is left of the type's
name.  Then another byte of the name follows, or what stands behind the variable, which is in no
word; so that has to be a guard. -/
theorem IsTail.idle_descriptorName_append (ht : IsTail tokens t) {b : UInt8} (hb : b ∈ t.head?)
    (hguard : Tokens.isGuard b = true) {lead : Text} (hlead : tokens.Free lead) (name : Text) :
    tokens.Idle (descriptorName lead name ++ t) := by
  intro k front back heq
  rw [descriptorName, List.append_assoc front, List.append_eq_append_iff] at heq
  rcases heq with ⟨mid, -, hright⟩ | ⟨left, hleft, hcut⟩
  · exact ht.idle k mid back (by rw [hright, List.append_assoc])
  rw [List.append_eq_append_iff] at hcut
  rcases hcut with ⟨between, rfl, rfl⟩ | ⟨right, hsplit, rfl⟩
  · cases between with
    | nil => exact ⟨b, hb, hguard⟩
    | cons c between =>
      -- The token ends in what is left of the name, since it does not lie in the prefix.
      rw [← List.append_assoc, List.append_eq_append_iff] at hleft
      rcases hleft with ⟨mid, -, hname⟩ | ⟨mid, rfl, -⟩
      · have hc : c ∈ name.chars.filterMap identifierByte? := by
          rw [hname]
          simp
        obtain ⟨d, -, hd⟩ := List.mem_filterMap.mp hc
        refine ⟨c, rfl, ?_⟩
        rw [Tokens.isGuard, isWord_of_identifierByte?_eq_some hd]
        rfl
      · exact absurd ⟨front, mid, rfl⟩ (hlead k)
  · cases right with
    | nil => exact ⟨b, hb, hguard⟩
    | cons c right =>
      have hc := (Tokens.word_isWord ht.usable k).2 c (by rw [hsplit]; simp)
      rw [ht.head c rfl] at hc
      exact absurd hc (by simp)

/-- A fixed part and a variable in front of a fixed part that begins with a guard. -/
theorem IsTail.variable (hl : IsFixed tokens l) {lead : Text} (hlead : tokens.Free lead)
    (name : Text) {behind : Text} (hbehind : behind.head?.any Tokens.isGuard = true)
    (ht : IsTail tokens (behind ++ t)) :
    IsTail tokens (l ++ (descriptorName lead name ++ (behind ++ t))) := by
  obtain ⟨b, hb, hguard⟩ := (Option.any_eq_true _ _).mp hbehind
  exact hl.isTail ht.usable
    (ht.idle_descriptorName_append (List.mem_head?_append_of_mem_head? hb) hguard hlead name)

/-! ## Members, types and sources -/

/-- No token occurs in the names that are put into a generated source: in the version, the name of
the source file, the headers, the names among the options, the names of types, and the value types
and names of members. -/
structure HasFreeNames (tokens : Tokens) (version source : Text) (records : List TypeRecord)
    (o : EmitOptions) : Prop where
  version : tokens.Free version
  source : tokens.Free (Path.base source)
  header : ∀ h ∈ o.includes, tokens.Free h
  globalPrefix : tokens.Free o.globalPrefix
  nameSpace : tokens.Free o.nameSpace
  hashFunc : tokens.Free o.hashFunc
  hashType : tokens.Free o.hashType
  idField : tokens.Free o.idField
  typeName : ∀ r ∈ records, tokens.Free r.name
  valueType : ∀ r ∈ records, ∀ m ∈ r.members, tokens.Free m.valueType
  memberName : ∀ r ∈ records, ∀ m ∈ r.members, tokens.Free m.name

variable {version source : Text} {records : List TypeRecord} {o : EmitOptions}

/-- The description of a member in front of a tail. -/
theorem IsTail.member (h : HasFreeNames .standard version source records o)
    {r : TypeRecord} (hr : r ∈ records) {m : Member} (hm : m ∈ r.members)
    (ht : IsTail .standard t) : IsTail .standard (renderMember o r.name m ++ t) := by
  have hvalueType := h.valueType r hr m hm
  have hmemberName := h.memberName r hr m hm
  unfold renderMember
  simp only [List.append_assoc]
  exact .named (by decide) h.nameSpace <| .quoted (by decide) hvalueType <|
    .quoted (by decide) hmemberName <| .named (by decide) hvalueType <|
    .named (by decide) hvalueType <| .named (by decide) (h.typeName r hr) <|
    .named (by decide) hmemberName <| .named (by decide) h.hashFunc <|
    .quoted (by decide) hvalueType <| .fixed (by decide) ht

/-- The descriptor of a type in front of a tail. -/
theorem IsTail.type (h : HasFreeNames .standard version source records o)
    {r : TypeRecord} (hr : r ∈ records) (ht : IsTail .standard t) :
    IsTail .standard (renderType o r ++ t) := by
  have hname := h.typeName r hr
  unfold renderType renderDeclaration renderDescriptor
  simp only [List.append_assoc]
  exact .variable (by decide) h.globalPrefix r.name (by decide) <| .named (by decide) h.nameSpace <|
    .quoted (by decide) hname <| .named (by decide) hname <| .named (by decide) hname <|
    .named (by decide) h.hashFunc <| .quoted (by decide) hname <| .fixed (by decide) <|
    .flatMap (fun m hm t => IsTail.member h hr hm) <| .named (by decide) h.hashType <|
    .named (by decide) hname <| .named (by decide) h.idField <|
    .variable (by decide) h.globalPrefix r.name (by decide) <| .fixed (by decide) ht

/-- **Generated sources are idle.** -/
theorem idle_renderSource (h : HasFreeNames .standard version source records o) :
    Tokens.standard.Idle (renderSource version source records o) := by
  have hstart : lit "// Auto-generated by " ++ programName ++ lit " " =
      lit "// Auto-generated by vxrefl " := by decide
  have htypes : IsTail .standard (records.flatMap (renderType o) ++ []) :=
    .flatMap (fun r hr t => IsTail.type h hr) (isTail_nil (by decide))
  rw [List.append_nil] at htypes
  unfold renderSource renderPreamble renderHeader
  rw [hstart]
  simp only [List.append_assoc]
  refine (IsTail.named (by decide) h.version <| .named (by decide) h.source <| .fixed (by decide) <|
    .flatMap (fun u hu t ht => ?_) <| .fixed (by decide) htypes).idle
  rw [List.append_assoc]
  exact .header (by decide) (h.header u hu) ht

end Render

/-! ## Scanning idle texts -/

/-- A line is an infix of its text. -/
theorem Source.isInfix_of_mem_lines {content line : Text} (h : line ∈ lines content) :
    line <:+: content := by
  have hpiece := Text.isInfix_join [0x0A] (mem_splitOn_of_mem_lines h)
  rw [Text.join_splitOn] at hpiece
  exact hpiece

/-- A guard that may stand between a token and its parenthesis ends the line. -/
theorem Tokens.eq_lineFeed_of_isGuard {b : UInt8} (hguard : isGuard b = true)
    (hspace : isSpace b = true) : b = 0x0A := by
  rw [isGuard, Bool.or_eq_true, Bool.or_eq_true, beq_iff_eq, beq_iff_eq] at hguard
  rcases hguard with (hword | hfeed) | rfl
  · rw [(Marker.isSpace_of_isWord hword).1] at hspace
    exact absurd hspace (by simp)
  · exact hfeed
  · exact absurd hspace (by decide)

/-- **Idle texts have no markers.**  What stands between a token and its parenthesis is on the same
line, so the guard behind the token would have to be a space or the parenthesis. -/
theorem Marker.classify_of_idle {tokens : Tokens} (htokens : tokens.error? = none)
    {text line : Text} (hidle : tokens.Idle text) (hline : line <:+: text) (hfeed : 0x0A ∉ line) :
    classify tokens line = none := by
  rcases findInvocation?_cases htokens line with ⟨i, k, rest, hinvokes, -, -⟩ | ⟨-, hnone⟩
  · obtain ⟨front, back, spaces, rfl, -, -, -, rfl, hspaces⟩ := hinvokes
    obtain ⟨before, behind, rfl⟩ := hline
    obtain ⟨b, hb, hguard⟩ := hidle k (before ++ front) (spaces ++ 0x28 :: rest ++ behind)
      (by simp only [List.append_assoc])
    cases spaces with
    | nil =>
      obtain rfl := Option.some.inj hb
      exact absurd hguard (by decide)
    | cons c spaces =>
      obtain rfl := Option.some.inj hb
      obtain rfl := Tokens.eq_lineFeed_of_isGuard hguard (hspaces c List.mem_cons_self)
      exact absurd (by simp) hfeed
  · rw [classify, hnone]
    exact ite_self _

namespace Scan

open Source

/-- A text whose lines have no markers is scanned without any outcome. -/
theorem run_of_isOther {tokens : Tokens} {content : Text}
    (h : ∀ line ∈ lines content, IsOther tokens line) (path : Text) :
    run tokens path content =
      { records := [], diagnostics := [], trace := [], brokenOff := false } := by
  have hcomplete : isComplete content = true :=
    (isComplete_iff content).mpr fun line hline => (h line hline).short
  have hmarkers : markers tokens (lines content) = [] := markersAt_of_isOther h id 1
  rw [run, readable_of_isComplete hcomplete, hcomplete, hmarkers]
  rfl

/-- **Scanning a generated source finds nothing.**  If no standard token occurs in the version, the
name of the source file, the headers, the options, or the names and types of the records, however
many there are of each, then no line of the generated source is a marker line, and if its lines are
short enough to be read, a scan of it at any path has no record and no diagnostic. -/
theorem run_render (declared version source : Text) (records : List TypeRecord) (o : EmitOptions)
    (hversion : Version.resolve declared = .ok version)
    (hfree : Render.HasFreeNames .standard version source records o) :
    ∃ text, render declared source records o = .ok text ∧
      (∀ line ∈ lines text, Marker.classify .standard line = .none) ∧
      ((∀ line ∈ lines text, line.length < maxLine) → ∀ path, run .standard path text =
        { records := [], diagnostics := [], trace := [], brokenOff := false }) := by
  have hidle := Render.idle_renderSource hfree
  have hclassify : ∀ line part, line ∈ lines (Render.renderSource version source records o) →
      part <+: line → 0x0A ∉ part ∧ Marker.classify .standard part = .none := by
    intro line part hline hpart
    have hfeed : 0x0A ∉ part := fun hmem =>
      Text.notMem_of_mem_splitOn (mem_splitOn_of_mem_lines hline) (hpart.subset hmem)
    exact ⟨hfeed, Marker.classify_of_idle (by decide) hidle
      (hpart.isInfix.trans (isInfix_of_mem_lines hline)) hfeed⟩
  refine ⟨_, by rw [render, hversion]; rfl, fun line hline => ?_, fun hshort path => ?_⟩
  · exact (hclassify line line hline List.prefix_rfl).2
  · refine run_of_isOther (fun line hline => ?_) path
    exact ⟨(hclassify line _ hline (List.rdropWhile_prefix _ line)).2,
      (hclassify line line hline List.prefix_rfl).1, hshort line hline⟩

/-- Options with a prefix that is the beginning of a token. -/
def tokenLikeOptions : EmitOptions :=
  { EmitOptions.standard with globalPrefix := lit "VX_", includes := [lit "vx/reflection.h"] }

/-- A record whose variable is a token, since its name is the end of one. -/
def tokenLikeRecord : TypeRecord where
  name := lit "RF:DATA"
  line := 3
  members :=
    [{ parent := lit "RF:DATA", valueType := lit "VX_RF", name := lit "_DATA(", line := 2 }]

/-- The variable of the type is the token `VX_RF_DATA`, and it stands in the source twice. -/
theorem run_render_tokenLikeRecord :
    Version.resolve (lit "v1.2.0") = .ok (lit "1.2.0") ∧
      Render.HasFreeNames .standard (lit "1.2.0") (lit "src/a.h") [tokenLikeRecord]
        tokenLikeOptions ∧
      ∃ text, render (lit "v1.2.0") (lit "src/a.h") [tokenLikeRecord] tokenLikeOptions = .ok text ∧
        ¬ Tokens.standard.Free text ∧ (∀ line ∈ lines text, line.length < maxLine) ∧
        run .standard (lit "src/a_reflection.cpp") text =
          { records := [], diagnostics := [], trace := [], brokenOff := false } := by
  have hversion : Version.resolve (lit "v1.2.0") = .ok (lit "1.2.0") := by decide
  have hfree : Render.HasFreeNames .standard (lit "1.2.0") (lit "src/a.h") [tokenLikeRecord]
      tokenLikeOptions := by
    constructor <;> decide +kernel
  obtain ⟨text, htext, -, hrun⟩ := run_render (lit "v1.2.0") (lit "1.2.0") (lit "src/a.h")
    [tokenLikeRecord] tokenLikeOptions hversion hfree
  have hshort : ∀ line ∈ lines text, line.length < maxLine := by
    rw [← Except.ok.inj htext]
    decide +kernel
  refine ⟨hversion, hfree, text, htext, ?_, hshort, hrun hshort _⟩
  rw [← Except.ok.inj htext]
  decide +kernel

end Scan

end ReflectGen

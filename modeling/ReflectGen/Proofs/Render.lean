import Mathlib.Data.List.Basic
import ReflectGen.Emission.Render
import ReflectGen.Proofs.Naming

/-!
# Reading generated sources back

A generated source says which records it was made for.  Names are put into it as they are, so there
is no byte that separates its parts; but each name stands between quotes before it stands anywhere
else, and quoting is *self-delimiting*: it shows where it ends.  What comes next is then known up to
the next quoted text, and a member, the end of a type and the end of the source start in different
ways.

* `Text.flatMap_append_inj`: a row of self-delimiting parts is self-delimiting, if what may follow
  the row cannot be taken for another part.
* `Render.cString_append_inj`, `Render.renderMember_append_inj`, `Render.renderType_append_inj`:
  quoted texts, members and types are self-delimiting.
* `map_outline_eq_of_render_eq`: records with the same generated source have the same names, in the
  same order.
-/

namespace ReflectGen

/-- A row of texts, each one self-delimiting and written for a value, determines the values up to
`view`, and what follows the row, if that does not start like one more such text.  The induction is
on one of the two rows. -/
theorem Text.flatMap_append_inj {α β : Type} {write : α → Text} (view : α → β)
    (hwrite : ∀ a a' s s', write a ++ s = write a' ++ s' → view a = view a' ∧ s = s')
    {s s' : Text} (hs : ∀ a u, write a ++ u ≠ s) (hs' : ∀ a u, write a ++ u ≠ s')
    {l : List α} : ∀ {l' : List α}, l.flatMap write ++ s = l'.flatMap write ++ s' →
      l.map view = l'.map view ∧ s = s' := by
  induction l with
  | nil =>
    intro l' h
    cases l' with
    | nil => exact ⟨rfl, h⟩
    | cons a' l' =>
      rw [List.flatMap_nil, List.nil_append, List.flatMap_cons, List.append_assoc] at h
      exact absurd h.symm (hs a' _)
  | cons a l ih =>
    intro l' h
    rw [List.flatMap_cons, List.append_assoc] at h
    cases l' with
    | nil =>
      rw [List.flatMap_nil, List.nil_append] at h
      exact absurd h (hs' a _)
    | cons a' l' =>
      rw [List.flatMap_cons, List.append_assoc] at h
      obtain ⟨hview, hrest⟩ := hwrite a a' _ _ h
      obtain ⟨hmap, hend⟩ := ih hrest
      exact ⟨by rw [List.map_cons, List.map_cons, hview, hmap], hend⟩

/-- The name of a type and the value types and names of its members: what a record says apart from
line numbers. -/
def TypeRecord.outline (r : TypeRecord) : Text × List (Text × Text) :=
  (r.name, r.members.map fun m => (m.valueType, m.name))

/-! ## Variable names -/

theorem identifierByte?_ne_lineFeed {c : Char} {b : UInt8} (h : identifierByte? c = some b) :
    b ≠ 0x0A := by
  rintro rfl
  exact absurd (isWord_of_identifierByte?_eq_some h) (by decide)

/-- What stands behind the line of a variable name does not depend on the name. -/
theorem descriptorName_append_inj {lead name name' s s' : Text}
    (h : descriptorName lead name ++ 0x0A :: s = descriptorName lead name' ++ 0x0A :: s') :
    s = s' := by
  have hrest : ∀ t u : Text,
      (t.chars.filterMap identifierByte? ++ 0x0A :: u).dropWhile (· != 0x0A) = 0x0A :: u := by
    intro t u
    rw [List.dropWhile_append_of_pos, List.dropWhile_cons_of_neg (by decide)]
    intro b hb
    obtain ⟨c, -, hc⟩ := List.mem_filterMap.mp hb
    exact bne_iff_ne.mpr (identifierByte?_ne_lineFeed hc)
  rw [descriptorName, descriptorName, List.append_assoc, List.append_assoc,
    List.append_cancel_left_eq] at h
  have hdrop := congrArg (List.dropWhile (· != 0x0A)) h
  rw [hrest, hrest] at hdrop
  exact (List.cons.inj hdrop).2

namespace Render

/-! ## Quoted texts -/

theorem cByte_append_inj (b b' : UInt8) (s s' : Text) (h : cByte b ++ s = cByte b' ++ s') :
    b = b' ∧ s = s' := by
  unfold cByte at h
  split at h <;> split at h
  · simpa using h
  · next hb hb' =>
    simp only [List.cons_append, List.cons.injEq] at h
    simp [← h.1] at hb'
  · next hb hb' =>
    simp only [List.cons_append, List.cons.injEq] at h
    simp [h.1] at hb
  · simpa using h

/-- No byte of a quoted text is written like the quote behind the text. -/
theorem cByte_append_ne_quote (b : UInt8) (u s : Text) : cByte b ++ u ≠ 0x22 :: s := by
  intro h
  unfold cByte at h
  split at h
  · exact absurd (List.cons.inj h).1 (by decide)
  · next hb =>
    have hquote := (List.cons.inj h).1
    simp [hquote] at hb

/-- A quoted text shows where it ends. -/
theorem cString_append_inj {t t' s s' : Text} (h : cString t ++ s = cString t' ++ s') :
    t = t' ∧ s = s' := by
  simp only [cString, List.cons_append, List.append_assoc, List.nil_append, List.cons.injEq,
    true_and] at h
  obtain ⟨hmap, hend⟩ := Text.flatMap_append_inj id cByte_append_inj
    (fun b u => cByte_append_ne_quote b u s) (fun b u => cByte_append_ne_quote b u s') h
  rw [List.map_id, List.map_id] at hmap
  exact ⟨hmap, (List.cons.inj hend).2⟩

/-! ## Members and types -/

/-- The text for a member shows which member it is for, and where it ends: its value type and its
name are quoted before they are used. -/
theorem renderMember_append_inj (o : EmitOptions) (typeName : Text) (m m' : Member) (s s' : Text)
    (h : renderMember o typeName m ++ s = renderMember o typeName m' ++ s') :
    (m.valueType, m.name) = (m'.valueType, m'.name) ∧ s = s' := by
  unfold renderMember at h
  simp only [List.append_assoc, List.append_cancel_left_eq] at h
  obtain ⟨hvalueType, h⟩ := cString_append_inj h
  rw [List.append_cancel_left_eq] at h
  obtain ⟨hname, h⟩ := cString_append_inj h
  simp only [hvalueType, hname, List.append_cancel_left_eq] at h
  exact ⟨by rw [hvalueType, hname], h⟩

/-- A member starts on a new line with a tab, and the end of a type with a parenthesis. -/
theorem renderMember_append_ne_close (o : EmitOptions) (typeName : Text) (m : Member) (u s : Text) :
    renderMember o typeName m ++ u ≠ lit "\n)\x7d;\nconst " ++ s := by
  have hmember : lit "\n\t, " = 0x0A :: 0x09 :: lit ", " := by decide
  have hclose : lit "\n)\x7d;\nconst " = 0x0A :: 0x29 :: lit "\x7d;\nconst " := by decide
  intro h
  unfold renderMember at h
  simp only [hmember, hclose, List.append_assoc, List.cons_append, List.cons.injEq] at h
  exact absurd h.2.1 (by decide)

/-- What stands behind the declaration of a variable does not depend on the variable. -/
theorem renderDeclaration_append_inj {lead name name' s s' : Text}
    (h : renderDeclaration (descriptorName lead name) ++ s =
      renderDeclaration (descriptorName lead name') ++ s') : s = s' := by
  have hbreak : lit "\n\x7b\n\t" = 0x0A :: lit "\x7b\n\t" := by decide
  unfold renderDeclaration at h
  simp only [hbreak, List.append_assoc, List.cons_append, List.append_cancel_left_eq] at h
  exact List.append_cancel_left (descriptorName_append_inj h)

/-- The text for a type shows which type and members it is for, and where it ends. -/
theorem renderType_append_inj (o : EmitOptions) (r r' : TypeRecord) (s s' : Text)
    (h : renderType o r ++ s = renderType o r' ++ s') : r.outline = r'.outline ∧ s = s' := by
  rw [renderType, renderType, List.append_assoc, List.append_assoc] at h
  have h := renderDeclaration_append_inj h
  unfold renderDescriptor at h
  simp only [List.append_assoc, List.append_cancel_left_eq] at h
  obtain ⟨hname, h⟩ := cString_append_inj h
  simp only [hname, List.append_cancel_left_eq] at h
  obtain ⟨hmembers, h⟩ := Text.flatMap_append_inj (fun m => (m.valueType, m.name))
    (renderMember_append_inj o r'.name) (fun m u => renderMember_append_ne_close o r'.name m u _)
    (fun m u => renderMember_append_ne_close o r'.name m u _) h
  simp only [List.append_cancel_left_eq] at h
  exact ⟨by rw [TypeRecord.outline, TypeRecord.outline, hname, hmembers], h⟩

theorem renderType_append_ne_nil (o : EmitOptions) (r : TypeRecord) (u : Text) :
    renderType o r ++ u ≠ [] := by
  have hstart : lit "\nconst auto " = 0x0A :: lit "const auto " := by decide
  intro h
  unfold renderType renderDeclaration at h
  simp only [hstart, List.append_assoc, List.cons_append] at h
  exact List.cons_ne_nil _ _ h

end Render

/-- **Rendering loses nothing.**  If two lists of records, of any lengths and with any names, give
the same generated source under the same version, source path and options, then they agree on the
names of all types and on the value types and names of all members, in this order. -/
theorem map_outline_eq_of_render_eq (version source : Text) (o : EmitOptions)
    (rs rs' : List TypeRecord) (text : Text) (h : render version source rs o = .ok text)
    (h' : render version source rs' o = .ok text) :
    rs.map TypeRecord.outline = rs'.map TypeRecord.outline := by
  unfold render at h h'
  cases hv : Version.resolve version with
  | error e =>
    rw [hv] at h
    exact absurd h (by simp [Except.map])
  | ok v =>
    rw [hv] at h h'
    have heq := (Except.ok.inj h).trans (Except.ok.inj h').symm
    simp only [Render.renderSource, List.append_cancel_left_eq] at heq
    refine (Text.flatMap_append_inj TypeRecord.outline (Render.renderType_append_inj o)
      (Render.renderType_append_ne_nil o) (Render.renderType_append_ne_nil o) ?_).1
    rw [heq]

/-- A type whose name has a quote in it and goes on like the text behind a quoted name. -/
def quotedRecord : TypeRecord where
  name := lit "A\", sizeof(A)\\"
  line := 4
  members := [{ parent := [], valueType := lit "int", name := lit "x\"", line := 3 }]

/-- Records that differ in line numbers and parents only. -/
theorem map_outline_eq_quotedRecord :
    let other := { quotedRecord with
      line := 9
      members := [{ parent := lit "B", valueType := lit "int", name := lit "x\"", line := 7 }] }
    [quotedRecord].map TypeRecord.outline = [other].map TypeRecord.outline :=
  map_outline_eq_of_render_eq [] (lit "src/a.h") .standard [quotedRecord] _
    (Render.renderSource Version.development (lit "src/a.h") [quotedRecord] .standard)
    (by decide +kernel) (by decide +kernel)

end ReflectGen

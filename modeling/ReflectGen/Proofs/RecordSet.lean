import ReflectGen.Proofs.Document.Json
import ReflectGen.RecordSet

/-!
# Dumps lose nothing

The JSON dump of a record set says what the record set is: its root, its files in their order, and
for each file its types with their members.  This holds for record sets whose texts are UTF-8; of
other texts a dump does not show the stray bytes.  The files without records are not dumped, and the
paths of generated files say nothing new.

* `Metadata.isUtf8`: record sets of UTF-8 texts.
* `Member.eq_of_shown_document`, `TypeRecord.eq_of_shown_document`,
  `Metadata.eq_of_shown_fileDocument`: the documents of members, types and files tell what they were
  made from.
* `Metadata.eq_of_dump_json_eq`: a record set can be read off its dump.
-/

namespace ReflectGen

open Document (shown shownItems_eq_map shownFields)

/-- A text of characters is what is shown of it. -/
theorem Text.eq_of_repaired_eq {t t' : Text} (ht : t.isUtf8 = true) (ht' : t'.isUtf8 = true)
    (h : t.repaired = t'.repaired) : t = t' := by
  rw [← isUtf8_iff.mp ht, ← isUtf8_iff.mp ht']
  exact h

/-- Lists with the same images are the same, if their entries can be told from their images. -/
theorem eq_of_map_eq_map {α β : Type} {f : α → β} {l : List α} : ∀ {l' : List α},
    (∀ a ∈ l, ∀ a' ∈ l', f a = f a' → a = a') → l.map f = l'.map f → l = l' := by
  induction l with
  | nil =>
    intro l' _ h
    exact (List.map_eq_nil_iff.mp h.symm).symm
  | cons a l ih =>
    intro l' hinj h
    obtain ⟨a', l', rfl, ha, hl⟩ := List.map_eq_cons_iff.mp h.symm
    rw [hinj a List.mem_cons_self a' List.mem_cons_self ha.symm]
    refine congrArg (a' :: ·) (ih (fun b hb b' hb' => ?_) hl.symm)
    exact hinj b (List.mem_cons_of_mem a hb) b' (List.mem_cons_of_mem a' hb')

/-! ## Record sets of UTF-8 texts -/

/-- Are the texts of the member UTF-8? -/
def Member.isUtf8 (m : Member) : Bool := m.parent.isUtf8 && m.valueType.isUtf8 && m.name.isUtf8

/-- Are all texts of the record UTF-8? -/
def TypeRecord.isUtf8 (r : TypeRecord) : Bool := r.name.isUtf8 && r.members.all Member.isUtf8

/-- Are all texts of the file UTF-8? -/
def Metadata.isUtf8File (f : Text × List TypeRecord) : Bool :=
  f.1.isUtf8 && f.2.all TypeRecord.isUtf8

/-- Are all texts of the record set UTF-8, apart from the paths of files without records? -/
def Metadata.isUtf8 (md : Metadata) : Bool := md.root.isUtf8 && md.files.all isUtf8File

/-! ## What documents tell -/

theorem Member.eq_of_shown_document {m m' : Member} (hm : m.isUtf8 = true) (hm' : m'.isUtf8 = true)
    (h : m.document.shown = m'.document.shown) : m = m' := by
  simp only [isUtf8, Bool.and_eq_true] at hm hm'
  simp only [document, shown, shownFields, Document.object.injEq, List.cons.injEq, Prod.mk.injEq,
    Document.text.injEq, Document.int.injEq, true_and, and_true] at h
  obtain ⟨hparent, hvalueType, hname, hline⟩ := h
  cases m
  cases m'
  simp only [Member.mk.injEq]
  exact ⟨Text.eq_of_repaired_eq hm.1.1 hm'.1.1 hparent,
    Text.eq_of_repaired_eq hm.1.2 hm'.1.2 hvalueType,
    Text.eq_of_repaired_eq hm.2 hm'.2 hname, hline⟩

theorem TypeRecord.eq_of_shown_document {r r' : TypeRecord} (hr : r.isUtf8 = true)
    (hr' : r'.isUtf8 = true) (h : r.document.shown = r'.document.shown) : r = r' := by
  simp only [isUtf8, Bool.and_eq_true, List.all_eq_true] at hr hr'
  simp only [document, shown, shownFields, shownItems_eq_map, List.map_map, Document.object.injEq,
    List.cons.injEq, Prod.mk.injEq, Document.text.injEq, Document.int.injEq, Document.list.injEq,
    true_and, and_true] at h
  obtain ⟨hname, hline, hmembers⟩ := h
  have heq : r.members = r'.members := eq_of_map_eq_map
    (fun m hm m' hm' => Member.eq_of_shown_document (hr.2 m hm) (hr'.2 m' hm')) hmembers
  cases r
  cases r'
  simp only [TypeRecord.mk.injEq]
  exact ⟨Text.eq_of_repaired_eq hr.1 hr'.1 hname, hline, heq⟩

namespace Metadata

theorem eq_of_shown_fileDocument {suffix suffix' : Text} {f f' : Text × List TypeRecord}
    (hf : isUtf8File f = true) (hf' : isUtf8File f' = true)
    (h : (fileDocument suffix f).shown = (fileDocument suffix' f').shown) : f = f' := by
  simp only [isUtf8File, Bool.and_eq_true, List.all_eq_true] at hf hf'
  simp only [fileDocument, shown, shownFields, shownItems_eq_map, List.map_map,
    Document.object.injEq, List.cons.injEq, Prod.mk.injEq, Document.text.injEq, Document.list.injEq,
    true_and, and_true] at h
  obtain ⟨hpath, -, htypes⟩ := h
  refine Prod.ext (Text.eq_of_repaired_eq hf.1 hf'.1 hpath) (eq_of_map_eq_map ?_ htypes)
  exact fun r hr r' hr' => TypeRecord.eq_of_shown_document (hf.2 r hr) (hf'.2 r' hr')

/-- **The JSON dump of a record set loses nothing.**  If two record sets whose texts are UTF-8 have
the same dump for the same suffix, they have the same root, the same paths in the same order, and
for each path the same records in the same order, with the same names, lines and members. -/
theorem eq_of_dump_json_eq (suffix : Text) {md md' : Metadata} (hmd : md.isUtf8 = true)
    (hmd' : md'.isUtf8 = true) (h : md.dump suffix .json = md'.dump suffix .json) :
    md.root = md'.root ∧ md.files = md'.files := by
  have hshown := Document.shown_eq_of_toJson_eq (List.append_cancel_right h)
  simp only [isUtf8, Bool.and_eq_true, List.all_eq_true] at hmd hmd'
  simp only [document, shown, shownFields, shownItems_eq_map, List.map_map, Document.object.injEq,
    List.cons.injEq, Prod.mk.injEq, Document.text.injEq, Document.list.injEq, true_and, and_true]
    at hshown
  obtain ⟨hroot, hfiles⟩ := hshown
  refine ⟨Text.eq_of_repaired_eq hmd.1 hmd'.1 hroot, eq_of_map_eq_map ?_ hfiles⟩
  exact fun f hf f' hf' => eq_of_shown_fileDocument (hmd.2 f hf) (hmd'.2 f' hf')

/-- A record without members, whose name has characters with escapes in it. -/
def bareRecord : TypeRecord where
  name := lit "A<\"\\é\n>"
  line := 2
  members := []

/-- A record with a member. -/
def fullRecord : TypeRecord where
  name := lit "Box"
  line := 5
  members := [{ parent := lit "Box", valueType := lit "T&", name := lit "x", line := 4 }]

/-- The records of a file may be added at once or one by one, and other files may be added without
records. -/
theorem eq_of_dump_json_eq_splitFile :
    let md := (empty (lit "src")).addAll [(lit "src/a.h", [bareRecord, fullRecord])]
    let md' := (empty (lit "src")).addAll
      [(lit "src/a.h", [bareRecord]), (lit "src/b.h", []), (lit "src/a.h", [fullRecord])]
    md.isUtf8 = true ∧ md'.isUtf8 = true ∧
      md.dump (lit ".cpp") .json = md'.dump (lit ".cpp") .json ∧
      md.root = md'.root ∧ md.files = md'.files := by
  intro md md'
  have hmd : md.isUtf8 = true := by decide +kernel
  have hmd' : md'.isUtf8 = true := by decide +kernel
  have hdump : md.dump (lit ".cpp") .json = md'.dump (lit ".cpp") .json := by decide +kernel
  exact ⟨hmd, hmd', hdump, eq_of_dump_json_eq (lit ".cpp") hmd hmd' hdump⟩

end Metadata

end ReflectGen

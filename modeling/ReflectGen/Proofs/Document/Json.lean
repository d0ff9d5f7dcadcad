import Mathlib.Algebra.Group.Nat.Defs
import Mathlib.Data.List.TakeWhile
import ReflectGen.Document.Json
import ReflectGen.Marker.Word
import ReflectGen.Proofs.Render
import ReflectGen.Proofs.Text.Utf8

/-!
# Reading JSON text back

The JSON text of a document says which document it is.  Its parts are self-delimiting: a text ends
at the first quote that is not escaped, a list or an object at the line break behind its last part,
where a comma stands behind the others, and a number at the first byte that is no digit.  What is
not told is whether a list was a table, and which stray bytes the replacement character stands for.

* `Text.ofInt_append_inj`: numbers.
* `Json.char_append_inj`, `Json.string_append_inj`: characters with their escapes, and texts.
* `Json.enclose_append_inj`: parts between brackets, at any level.
* `Document.shown`: what a JSON text shows of a document.
* `Json.render_append_inj`: it shows all of this, and where it ends.
-/

namespace ReflectGen

/-! ## Numbers -/

/-- Does no digit stand in front of the text?  Such a text ends a number. -/
def EndsNumber (s : Text) : Prop := ∀ b ∈ s.head?, isDigit b = false

theorem isDigit_toUInt8 {c : Char} (h : c.isDigit = true) :
    isDigit c.toUInt8 = true ∧ Char.ofNat c.toUInt8.toNat = c := by
  simp only [Char.isDigit, Bool.and_eq_true, decide_eq_true_eq, ge_iff_le, UInt32.le_iff_toNat_le]
    at h
  have hlo : 48 ≤ c.toNat := h.1
  have hhi : c.toNat ≤ 57 := h.2
  have hval : c.toUInt8.toNat = c.toNat := by
    have hmod : c.toUInt8.toNat = c.toNat % 256 := UInt32.toNat_toUInt8 c.val
    omega
  refine ⟨?_, by rw [hval, Char.ofNat_toNat]⟩
  simp only [isDigit, Bool.and_eq_true, decide_eq_true_eq, UInt8.le_iff_toNat_le, hval]
  exact ⟨hlo, hhi⟩

namespace Text

theorem isDigit_of_mem_ofNat {n : Nat} {b : UInt8} (h : b ∈ ofNat n) : isDigit b = true := by
  obtain ⟨c, hc, rfl⟩ := List.mem_map.mp h
  exact (isDigit_toUInt8 (Nat.isDigit_of_mem_toDigits (by decide) (by decide) hc)).1

theorem ofNat_ne_nil (n : Nat) : ofNat n ≠ [] := by
  rw [ofNat, ne_eq, List.map_eq_nil_iff]
  exact Nat.toDigits_ne_nil

/-- The digits of a number can be read back. -/
theorem ofNat_inj {n m : Nat} (h : ofNat n = ofNat m) : n = m := by
  have hback : ∀ n : Nat, (ofNat n).map (fun b => Char.ofNat b.toNat) = Nat.toDigits 10 n := by
    intro n
    rw [ofNat, List.map_map]
    refine (List.map_congr_left fun c hc => ?_).trans (List.map_id _)
    exact (isDigit_toUInt8 (Nat.isDigit_of_mem_toDigits (by decide) (by decide) hc)).2
  have hdigits : Nat.toDigits 10 n = Nat.toDigits 10 m := by rw [← hback, ← hback, h]
  rw [← Nat.ofDigitChars_ten_toDigits (n := n), hdigits, Nat.ofDigitChars_ten_toDigits]

/-- The digits of a number are what can be read up to the first byte that is no digit. -/
theorem takeWhile_ofNat_append (n : Nat) {s : Text} (hs : EndsNumber s) :
    (ofNat n ++ s).takeWhile isDigit = ofNat n := by
  rw [List.takeWhile_append_of_pos fun b hb => isDigit_of_mem_ofNat hb]
  cases s with
  | nil => rw [List.takeWhile_nil, List.append_nil]
  | cons b s => rw [List.takeWhile_cons_of_neg (by simp [hs b rfl]), List.append_nil]

/-- The digits of a number show where they end. -/
theorem ofNat_append_inj {n m : Nat} {s s' : Text} (hs : EndsNumber s) (hs' : EndsNumber s')
    (h : ofNat n ++ s = ofNat m ++ s') : n = m ∧ s = s' := by
  have hn : ofNat n = ofNat m := by
    rw [← takeWhile_ofNat_append n hs, h, takeWhile_ofNat_append m hs']
  rw [hn, List.append_cancel_left_eq] at h
  exact ⟨ofNat_inj hn, h⟩

/-- The text of an integer starts with a digit or a minus sign. -/
theorem ofInt_eq_cons (n : Int) : ∃ b t, ofInt n = b :: t ∧ (isDigit b = true ∨ b = 0x2D) := by
  cases n with
  | ofNat n =>
    obtain ⟨b, t, ht⟩ := List.exists_cons_of_ne_nil (ofNat_ne_nil n)
    exact ⟨b, t, ht, .inl (isDigit_of_mem_ofNat (n := n) (by rw [ht]; exact List.mem_cons_self))⟩
  | negSucc n => exact ⟨0x2D, ofNat (n + 1), rfl, .inr rfl⟩

/-- A minus sign is no digit. -/
theorem ofNat_append_ne_minus (n : Nat) (s t : Text) : ofNat n ++ s ≠ 0x2D :: t := by
  obtain ⟨b, u, hu⟩ := List.exists_cons_of_ne_nil (ofNat_ne_nil n)
  have hb : isDigit b = true := isDigit_of_mem_ofNat (n := n) (by rw [hu]; exact List.mem_cons_self)
  rw [hu, List.cons_append]
  intro h
  rw [(List.cons.inj h).1] at hb
  exact absurd hb (by decide)

/-- The text of an integer shows where it ends. -/
theorem ofInt_append_inj {n m : Int} {s s' : Text} (hs : EndsNumber s) (hs' : EndsNumber s')
    (h : ofInt n ++ s = ofInt m ++ s') : n = m ∧ s = s' := by
  cases n with
  | ofNat n =>
    cases m with
    | ofNat m =>
      obtain ⟨rfl, hrest⟩ := ofNat_append_inj hs hs' h
      exact ⟨rfl, hrest⟩
    | negSucc m => exact absurd h (ofNat_append_ne_minus n s _)
  | negSucc n =>
    cases m with
    | ofNat m => exact absurd h.symm (ofNat_append_ne_minus m s' _)
    | negSucc m =>
      obtain ⟨heq, hrest⟩ := ofNat_append_inj hs hs' (List.cons.inj h).2
      exact ⟨by rw [Nat.succ_injective heq], hrest⟩

theorem length_hex (w n : Nat) : (hex w n).length = w := by
  induction w generalizing n with
  | zero => rfl
  | succ w ih => rw [hex, List.length_append, ih, List.length_singleton]

theorem hexDigit_inj {n m : Nat} (hn : n < 16) (hm : m < 16) (h : hexDigit n = hexDigit m) :
    n = m := by
  have key : ∀ a b : Fin 16, hexDigit a = hexDigit b → a = b := by decide
  exact congrArg Fin.val (key ⟨n, hn⟩ ⟨m, hm⟩ h)

/-- Hexadecimal digits of a fixed width tell the number, if there are enough of them. -/
theorem hex_inj {w n m : Nat} (hn : n < 16 ^ w) (hm : m < 16 ^ w) (h : hex w n = hex w m) :
    n = m := by
  induction w generalizing n m with
  | zero =>
    rw [Nat.pow_zero, Nat.lt_one_iff] at hn hm
    rw [hn, hm]
  | succ w ih =>
    rw [Nat.pow_succ] at hn hm
    obtain ⟨hfront, hlast⟩ := List.append_inj h (by rw [length_hex, length_hex])
    have hdiv : n / 16 = m / 16 :=
      ih (Nat.div_lt_of_lt_mul (by omega)) (Nat.div_lt_of_lt_mul (by omega)) hfront
    have hmod : n % 16 = m % 16 :=
      hexDigit_inj (Nat.mod_lt _ (by decide)) (Nat.mod_lt _ (by decide)) (List.cons.inj hlast).1
    omega

end Text

namespace Json

/-! ## Texts -/

/-- The characters that have an escape of their own, and its letter. -/
def shortEscapes : List (Nat × UInt8) :=
  [(0x22, 0x22), (0x5C, 0x5C), (0x0A, 0x6E), (0x0D, 0x72), (0x09, 0x74), (0x08, 0x62), (0x0C, 0x66)]

/-- A character is written by a short escape, by its number, or as it is. -/
theorem char_cases (c : Char) :
    (∃ b, (c.toNat, b) ∈ shortEscapes ∧ char c = [0x5C, b]) ∨
    (c.toNat < 16 ^ 4 ∧ char c = 0x5C :: 0x75 :: Text.hex 4 c.toNat) ∨
    (c.toNat ≠ 0x22 ∧ c.toNat ≠ 0x5C ∧ char c = String.utf8EncodeChar c) := by
  unfold char
  split
  case h_8 hquote hslash _ _ _ _ _ =>
    refine .inr ?_
    split
    · next h =>
      refine .inl ⟨?_, rfl⟩
      simp only [Bool.or_eq_true, decide_eq_true_eq, beq_iff_eq] at h
      omega
    · exact .inr ⟨hquote, hslash, rfl⟩
  all_goals
    next h =>
    rw [h]
    exact .inl ⟨_, by decide, rfl⟩

/-- The bytes of a character start with an ASCII byte only if this is the character. -/
theorem eq_of_utf8EncodeChar_append {c : Char} {b : UInt8} (hb : b < 0x80) {s t : Text}
    (h : String.utf8EncodeChar c ++ s = b :: t) : c = Char.ofNat b.toNat := by
  obtain ⟨b', tail, hbytes⟩ := List.exists_cons_of_ne_nil (String.utf8EncodeChar_ne_nil (c := c))
  rw [hbytes, List.cons_append] at h
  refine Text.eq_of_mem_utf8EncodeChar hb ?_
  rw [hbytes, (List.cons.inj h).1]
  exact List.mem_cons_self

/-- A character without an escape is not written like one with an escape. -/
theorem utf8EncodeChar_append_ne_escape {c : Char} (hc : c.toNat ≠ 0x5C) (s t : Text) :
    String.utf8EncodeChar c ++ s ≠ 0x5C :: t := by
  intro h
  rw [eq_of_utf8EncodeChar_append (by decide) h] at hc
  exact absurd rfl hc

/-- A character between quotes shows where it ends. -/
theorem char_append_inj (c c' : Char) (s s' : Text) (h : char c ++ s = char c' ++ s') :
    c = c' ∧ s = s' := by
  have hshort : ∀ p ∈ shortEscapes, ∀ q ∈ shortEscapes, p.2 = q.2 → p.1 = q.1 := by decide
  have hletter : ∀ p ∈ shortEscapes, p.2 ≠ 0x75 := by decide
  rcases char_cases c with ⟨b, hb, e⟩ | ⟨hlt, e⟩ | ⟨-, hc, e⟩ <;>
    rcases char_cases c' with ⟨b', hb', e'⟩ | ⟨hlt', e'⟩ | ⟨-, hc', e'⟩ <;>
    rw [e, e'] at h
  · simp only [List.cons_append, List.nil_append, List.cons.injEq, true_and] at h
    exact ⟨Char.toNat_inj.mp (hshort _ hb _ hb' h.1), h.2⟩
  · simp only [List.cons_append, List.nil_append, List.cons.injEq, true_and] at h
    exact absurd h.1 (hletter _ hb)
  · exact absurd h.symm (utf8EncodeChar_append_ne_escape hc' s' _)
  · simp only [List.cons_append, List.nil_append, List.cons.injEq, true_and] at h
    exact absurd h.1.symm (hletter _ hb')
  · simp only [List.cons_append, List.cons.injEq, true_and] at h
    obtain ⟨hhex, hrest⟩ := List.append_inj h (by rw [Text.length_hex, Text.length_hex])
    exact ⟨Char.toNat_inj.mp (Text.hex_inj hlt hlt' hhex), hrest⟩
  · exact absurd h.symm (utf8EncodeChar_append_ne_escape hc' s' _)
  · exact absurd h (utf8EncodeChar_append_ne_escape hc s _)
  · exact absurd h (utf8EncodeChar_append_ne_escape hc s _)
  · have hrunes := congrArg Text.runes h
    rw [Text.runes_utf8EncodeChar_append, Text.runes_utf8EncodeChar_append] at hrunes
    obtain rfl := Rune.char.inj (List.cons.inj hrunes).1
    exact ⟨rfl, List.append_cancel_left h⟩

/-- No character is written like the quote behind a text. -/
theorem char_append_ne_quote (c : Char) (u s : Text) : char c ++ u ≠ 0x22 :: s := by
  intro h
  rcases char_cases c with ⟨b, -, e⟩ | ⟨-, e⟩ | ⟨hc, -, e⟩ <;> rw [e] at h
  · exact absurd (List.cons.inj h).1 (by decide)
  · exact absurd (List.cons.inj h).1 (by decide)
  · rw [eq_of_utf8EncodeChar_append (by decide) h] at hc
    exact absurd rfl hc

/-- A text between quotes shows its characters, and where it ends. -/
theorem string_append_inj {t t' s s' : Text} (h : string t ++ s = string t' ++ s') :
    t.chars = t'.chars ∧ s = s' := by
  simp only [string, List.cons_append, List.append_assoc, List.nil_append, List.cons.injEq,
    true_and] at h
  obtain ⟨hmap, hend⟩ := Text.flatMap_append_inj id char_append_inj
    (fun c u => char_append_ne_quote c u s) (fun c u => char_append_ne_quote c u s') h
  rw [List.map_id, List.map_id] at hmap
  exact ⟨hmap, (List.cons.inj hend).2⟩

/-! ## Parts between brackets -/

section Parts

variable {α β : Type} {write : α → Text} {view : α → β} {l l' : List α} {sep s s' : Text}

/-- The text of a part shows what is seen of it, and where it ends, if no digit follows. -/
def Shows (write : α → Text) (view : α → β) (a : α) : Prop :=
  ∀ (a' : α) {s s' : Text}, EndsNumber s → EndsNumber s' → write a ++ s = write a' ++ s' →
    view a = view a' ∧ s = s'

/-- Parts with a comma in front of each. -/
def continued (sep : Text) (write : α → Text) (l : List α) : Text :=
  l.flatMap fun a => 0x2C :: (sep ++ write a)

theorem continued_cons (a : α) (l : List α) :
    continued sep write (a :: l) = 0x2C :: (sep ++ write a) ++ continued sep write l :=
  List.flatMap_cons

/-- Behind a part stands a comma or a line break. -/
theorem endsNumber_continued (sep : Text) (write : α → Text) (l : List α) (s : Text) :
    EndsNumber (continued sep write l ++ 0x0A :: s) := by
  cases l with
  | nil => exact fun b hb => by rw [← Option.some.inj hb]; rfl
  | cons a l => exact fun b hb => by rw [← Option.some.inj hb]; rfl

/-- Parts with a comma in front of each, up to a line break. -/
theorem continued_append_inj (hshows : ∀ a ∈ l, Shows write view a) : ∀ {l' : List α},
    continued sep write l ++ 0x0A :: s = continued sep write l' ++ 0x0A :: s' →
      l.map view = l'.map view ∧ s = s' := by
  induction l with
  | nil =>
    intro l' h
    cases l' with
    | nil => exact ⟨rfl, (List.cons.inj h).2⟩
    | cons a' l' => exact absurd (List.cons.inj h).1 (by decide)
  | cons a l ih =>
    intro l' h
    cases l' with
    | nil => exact absurd (List.cons.inj h).1 (by decide)
    | cons a' l' =>
      simp only [continued_cons, List.cons_append, List.append_assoc, List.cons.injEq, true_and,
        List.append_cancel_left_eq] at h
      obtain ⟨hview, hrest⟩ := hshows a List.mem_cons_self a' (endsNumber_continued sep write l s)
        (endsNumber_continued sep write l' s') h
      obtain ⟨hmap, hend⟩ := ih (fun b hb => hshows b (List.mem_cons_of_mem a hb)) hrest
      exact ⟨by rw [List.map_cons, List.map_cons, hview, hmap], hend⟩

theorem join_map_cons (sep : Text) (a : α) (l : List α) :
    Text.join (lit "," ++ sep) ((a :: l).map write) = write a ++ continued sep write l := by
  induction l generalizing a with
  | nil => simp [Text.join, continued]
  | cons b l ih =>
    rw [List.map_cons, List.map_cons, Text.join_cons_cons, ← List.map_cons, ih, continued_cons,
      show lit "," = [0x2C] from rfl]
    simp

/-- Parts between brackets show what is seen of each of them, and where the last one ends. -/
theorem enclose_append_inj {left right : String} {c : UInt8} {close : Text}
    (hright : lit right = c :: close) (hc : c ≠ 0x0A) {level : Nat}
    (hshows : ∀ a ∈ l, Shows write view a)
    (h : enclose left right level (l.map write) ++ s =
      enclose left right level (l'.map write) ++ s') :
    l.map view = l'.map view ∧ s = s' := by
  have hnil : enclose left right level ([].map write) = lit left ++ lit right := rfl
  have hcons : ∀ (a : α) (l : List α), enclose left right level ((a :: l).map write) =
      lit left ++ (newline (level + 1) ++ (write a ++ (continued (newline (level + 1)) write l ++
        (newline level ++ lit right)))) := by
    intro a l
    rw [enclose, if_neg (by simp), join_map_cons]
    simp only [List.append_assoc]
  cases l with
  | nil =>
    cases l' with
    | nil => exact ⟨rfl, List.append_cancel_left h⟩
    | cons a' l' =>
      rw [hnil, hcons, hright] at h
      simp only [List.append_assoc, List.append_cancel_left_eq] at h
      exact absurd (List.cons.inj h).1 hc
  | cons a l =>
    cases l' with
    | nil =>
      rw [hnil, hcons, hright] at h
      simp only [List.append_assoc, List.append_cancel_left_eq] at h
      exact absurd (List.cons.inj h).1.symm hc
    | cons a' l' =>
      simp only [hcons, newline, List.append_assoc, List.cons_append, List.append_cancel_left_eq,
        List.cons.injEq, true_and] at h
      obtain ⟨hview, hrest⟩ := hshows a List.mem_cons_self a' (endsNumber_continued _ write l _)
        (endsNumber_continued _ write l' _) h
      obtain ⟨hmap, hend⟩ :=
        continued_append_inj (fun b hb => hshows b (List.mem_cons_of_mem a hb)) hrest
      rw [List.append_cancel_left_eq, List.append_cancel_left_eq] at hend
      exact ⟨by rw [List.map_cons, List.map_cons, hview, hmap], hend⟩

end Parts

end Json

/-! ## Documents -/

namespace Document

mutual

/-- What a JSON text shows of a document: stray bytes are replaced, and a table is a list. -/
def shown : Document → Document
  | .text t => .text t.repaired
  | .int n => .int n
  | .bool b => .bool b
  | .list items => .list (shownItems items)
  | .table rows => .list (shownItems rows)
  | .object fields => .object (shownFields fields)

/-- What is shown of the items of a list. -/
def shownItems : List Document → List Document
  | [] => []
  | d :: ds => shown d :: shownItems ds

/-- What is shown of the fields of an object. -/
def shownFields : List (Text × Document) → List (Text × Document)
  | [] => []
  | (name, d) :: fields => (name.repaired, shown d) :: shownFields fields

end

theorem shownItems_eq_map (ds : List Document) : shownItems ds = ds.map shown := by
  induction ds with
  | nil => rfl
  | cons d ds ih => rw [shownItems, ih, List.map_cons]

theorem shownFields_eq_map (fields : List (Text × Document)) :
    shownFields fields = fields.map fun f => (f.1.repaired, f.2.shown) := by
  induction fields with
  | nil => rfl
  | cons f fields ih => rw [shownFields, ih, List.map_cons]

/-- What a JSON text can be. -/
inductive Shape where
  | text
  | int
  | bool
  | list
  | object
  deriving DecidableEq

/-- What the JSON text of a document is. -/
def shape : Document → Shape
  | .text _ => .text
  | .int _ => .int
  | .bool _ => .bool
  | .list _ => .list
  | .table _ => .list
  | .object _ => .object

/-- What a JSON text is, given its first byte. -/
def Shape.ofByte (b : UInt8) : Shape :=
  if b == 0x22 then .text
  else if b == 0x5B then .list
  else if b == 0x7B then .object
  else if isDigit b || b == 0x2D then .int
  else .bool

end Document

namespace Json

open Document (shown shownItems shownFields)

theorem renderItems_eq_map (level : Nat) (ds : List Document) :
    renderItems level ds = ds.map (render level) := by
  induction ds with
  | nil => rfl
  | cons d ds ih => rw [renderItems, ih, List.map_cons]

/-- The text of a field. -/
def renderField (level : Nat) (f : Text × Document) : Text :=
  string f.1 ++ lit ": " ++ render level f.2

theorem renderFields_eq_map (level : Nat) (fields : List (Text × Document)) :
    renderFields level fields = fields.map (renderField level) := by
  induction fields with
  | nil => rfl
  | cons f fields ih => rw [renderFields, ih, List.map_cons, renderField]

/-- The first byte of a JSON text tells what it is. -/
theorem render_eq_cons (level : Nat) (d : Document) :
    ∃ b t, render level d = b :: t ∧ Document.Shape.ofByte b = d.shape := by
  have henclose : ∀ (left right : String) (items : List Text),
      ∃ t, enclose left right level items = lit left ++ t := by
    intro left right items
    rw [enclose]
    split
    · exact ⟨_, rfl⟩
    · rw [List.append_assoc, List.append_assoc, List.append_assoc]
      exact ⟨_, rfl⟩
  cases d with
  | text t => exact ⟨_, _, rfl, rfl⟩
  | int n =>
    obtain ⟨b, t, ht, hb⟩ := Text.ofInt_eq_cons n
    refine ⟨b, t, ht, ?_⟩
    rcases hb with hb | rfl
    · have hne : ∀ c : UInt8, isDigit c = false → (b == c) = false := by
        intro c hc
        rw [beq_eq_false_iff_ne]
        rintro rfl
        rw [hb] at hc
        exact absurd hc (by decide)
      rw [Document.Shape.ofByte, hne 0x22 (by decide), hne 0x5B (by decide), hne 0x7B (by decide),
        hb]
      rfl
    · rfl
  | bool b => cases b <;> exact ⟨_, _, rfl, rfl⟩
  | list items =>
    obtain ⟨t, ht⟩ := henclose "[" "]" (renderItems (level + 1) items)
    exact ⟨_, t, ht, rfl⟩
  | table rows =>
    obtain ⟨t, ht⟩ := henclose "[" "]" (renderItems (level + 1) rows)
    exact ⟨_, t, ht, rfl⟩
  | object fields =>
    obtain ⟨t, ht⟩ := henclose "\x7b" "\x7d" (renderFields (level + 1) fields)
    exact ⟨_, t, ht, rfl⟩

/-- Documents whose texts start alike have one shape. -/
theorem shape_eq_of_render_append_eq {level : Nat} {d d' : Document} {s s' : Text}
    (h : render level d ++ s = render level d' ++ s') : d.shape = d'.shape := by
  obtain ⟨b, t, ht, hb⟩ := render_eq_cons level d
  obtain ⟨b', t', ht', hb'⟩ := render_eq_cons level d'
  rw [ht, ht'] at h
  rw [← hb, ← hb', (List.cons.inj h).1]

/-- The items of a list or a table. -/
theorem items_append_inj {level : Nat} {ds ds' : List Document} {s s' : Text}
    (hshows : ∀ d ∈ ds, Shows (render (level + 1)) shown d)
    (h : enclose "[" "]" level (renderItems (level + 1) ds) ++ s =
      enclose "[" "]" level (renderItems (level + 1) ds') ++ s') :
    shownItems ds = shownItems ds' ∧ s = s' := by
  rw [renderItems_eq_map, renderItems_eq_map] at h
  rw [Document.shownItems_eq_map, Document.shownItems_eq_map]
  exact enclose_append_inj rfl (by decide) hshows h

/-- A field shows its name and its value. -/
theorem shows_renderField {level : Nat} {f : Text × Document}
    (hshows : Shows (render level) shown f.2) :
    Shows (renderField level) (fun f => (f.1.repaired, f.2.shown)) f := by
  intro f' s s' hs hs' h
  rw [renderField, renderField, List.append_assoc, List.append_assoc, List.append_assoc,
    List.append_assoc] at h
  obtain ⟨hname, hvalue⟩ := string_append_inj h
  rw [List.append_cancel_left_eq] at hvalue
  obtain ⟨hshown, hrest⟩ := hshows f'.2 hs hs' hvalue
  exact ⟨Prod.ext (congrArg Text.ofChars hname) hshown, hrest⟩

/-- The fields of an object. -/
theorem fields_append_inj {level : Nat} {fields fields' : List (Text × Document)} {s s' : Text}
    (hshows : ∀ f ∈ fields, Shows (render (level + 1)) shown f.2)
    (h : enclose "\x7b" "\x7d" level (renderFields (level + 1) fields) ++ s =
      enclose "\x7b" "\x7d" level (renderFields (level + 1) fields') ++ s') :
    shownFields fields = shownFields fields' ∧ s = s' := by
  rw [renderFields_eq_map, renderFields_eq_map] at h
  rw [Document.shownFields_eq_map, Document.shownFields_eq_map]
  exact enclose_append_inj rfl (by decide) (fun f hf => shows_renderField (hshows f hf)) h

/-- The value of a field is smaller than the object. -/
theorem sizeOf_value_lt {f : Text × Document} {fields : List (Text × Document)} (hf : f ∈ fields) :
    sizeOf f.2 < 1 + sizeOf fields := by
  have hfields := List.sizeOf_lt_of_mem hf
  have hf : sizeOf f = 1 + sizeOf f.1 + sizeOf f.2 := by
    cases f
    rfl
  omega

/-- **The JSON text of a document shows the document**, up to stray bytes and to the difference
between tables and lists, and where it ends.  The recursion is on the first document. -/
theorem render_append_inj (level : Nat) (d : Document) : Shows (render level) shown d := by
  intro d' s s' hs hs' h
  have hshape := shape_eq_of_render_append_eq h
  match d, d', hshape with
  | .text t, .text t', _ =>
    obtain ⟨hchars, hrest⟩ := string_append_inj h
    exact ⟨congrArg (Document.text ∘ Text.ofChars) hchars, hrest⟩
  | .int n, .int n', _ =>
    obtain ⟨rfl, hrest⟩ := Text.ofInt_append_inj hs hs' h
    exact ⟨rfl, hrest⟩
  | .bool b, .bool b', _ =>
    cases b <;> cases b'
    · exact ⟨rfl, List.append_cancel_left h⟩
    · exact absurd (List.cons.inj h).1 (by decide)
    · exact absurd (List.cons.inj h).1 (by decide)
    · exact ⟨rfl, List.append_cancel_left h⟩
  | .list items, .list items', _ | .list items, .table items', _ | .table items, .list items', _
  | .table items, .table items', _ =>
    obtain ⟨hitems, hrest⟩ := items_append_inj (fun d _ => render_append_inj (level + 1) d) h
    exact ⟨by rw [shown, shown, hitems], hrest⟩
  | .object fields, .object fields', _ =>
    obtain ⟨hfields, hrest⟩ := fields_append_inj (fun f hf => by
      have hlt := sizeOf_value_lt hf
      exact render_append_inj (level + 1) f.2) h
    exact ⟨by rw [shown, shown, hfields], hrest⟩
termination_by sizeOf d

end Json

/-- Documents with the same JSON text show the same. -/
theorem Document.shown_eq_of_toJson_eq {d d' : Document} (h : d.toJson = d'.toJson) :
    d.shown = d'.shown := by
  have hnil : EndsNumber [] := fun b hb => absurd hb (by simp)
  refine (Json.render_append_inj 0 d d' hnil hnil ?_).1
  rw [List.append_nil, List.append_nil]
  exact h

end ReflectGen

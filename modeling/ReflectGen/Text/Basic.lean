/-!
# Byte texts

Source files, paths and messages are byte sequences: most of them are UTF-8, but a file name or a
source line may hold any bytes, and they have to come out of the program as they went in.  So a
text is the list of its bytes, and characters are a view of it (`ReflectGen.Text.Utf8`).

* `lit`: the bytes of a string literal.
* `Text.splitOn`, `Text.join`: cutting at a byte and putting pieces together; `join_splitOn` says
  that the second undoes the first.
* `Text.trimBy`: dropping bytes or characters at both ends.
* `Text.compare`, `Text.sort`: the byte order, in which lists of paths and messages are sorted.

Everything that reads a whole file is written with an accumulator, because a line may be a
mebibyte long.
-/

namespace ReflectGen

/-- A text is the list of its bytes. -/
abbrev Text := List UInt8

/-- The bytes of a string literal in UTF-8. -/
def lit (s : String) : Text := s.toList.flatMap String.utf8EncodeChar

namespace Text

/-! ## Cutting and joining -/

/-- The pieces between the bytes `b`: `cur` is the current piece and `done` the finished ones,
both in reverse. -/
def splitLoop (b : UInt8) : Text → Text → List Text → List Text
  | [], cur, done => (cur.reverse :: done).reverse
  | c :: t, cur, done =>
    if c == b then splitLoop b t [] (cur.reverse :: done) else splitLoop b t (c :: cur) done

/-- The pieces of a text between the bytes `b`; there is always one more piece than such bytes. -/
def splitOn (b : UInt8) (t : Text) : List Text := splitLoop b t [] []

/-- The pieces one after the other, with `sep` between neighbours. -/
def join (sep : Text) (pieces : List Text) : Text := sep.intercalate pieces

/-- The text without its first bytes that satisfy `p` and without its last such bytes. -/
def trimBy {α : Type} (p : α → Bool) (l : List α) : List α :=
  ((l.dropWhile p).reverse.dropWhile p).reverse

/-- The text without its last bytes that satisfy `p`. -/
def trimRightBy (p : UInt8 → Bool) (t : Text) : Text := (t.reverse.dropWhile p).reverse

/-- What follows `front` if the text starts with it. -/
def after? : Text → Text → Option Text
  | [], t => some t
  | _ :: _, [] => none
  | a :: front, b :: t => if a == b then after? front t else none

/-- Does the text start with `front`? -/
def startsWith (t front : Text) : Bool := (after? front t).isSome

/-- Does the text end with `tail`? -/
def endsWith (t tail : Text) : Bool := startsWith t.reverse tail.reverse

/-- The text with every byte `a` written as `b`. -/
def replaceByte (a b : UInt8) (t : Text) : Text := t.map fun c => if c == a then b else c

/-- The text before the last byte `b` and the text from behind it on, when there is one. -/
def splitLast? (b : UInt8) (t : Text) : Option (Text × Text) :=
  match t.reverse.span (· != b) with
  | (_, []) => none
  | (back, _ :: front) => some (front.reverse, back.reverse)

/-- The text before the first byte `b` and the text behind it, when there is one. -/
def splitFirst? (b : UInt8) (t : Text) : Option (Text × Text) :=
  match t.span (· != b) with
  | (_, []) => none
  | (front, _ :: back) => some (front, back)

/-! ## Numbers -/

/-- The decimal digits of a natural number. -/
def ofNat (n : Nat) : Text := (Nat.toDigits 10 n).map Char.toUInt8

/-- The decimal text of an integer. -/
def ofInt : Int → Text
  | .ofNat n => ofNat n
  | .negSucc n => 0x2d :: ofNat (n + 1)

/-- The lower-case hexadecimal digit of a number below sixteen. -/
def hexDigit (n : Nat) : UInt8 := (Nat.digitChar n).toUInt8

/-- The last `width` hexadecimal digits of a number. -/
def hex : (width : Nat) → Nat → Text
  | 0, _ => []
  | w + 1, n => hex w (n / 16) ++ [hexDigit (n % 16)]

/-! ## The byte order -/

/-- Byte order, with a text before its continuations. -/
def compare : Text → Text → Ordering
  | [], [] => .eq
  | [], _ :: _ => .lt
  | _ :: _, [] => .gt
  | a :: s, b :: t => if a < b then .lt else if b < a then .gt else compare s t

/-- Is the first text not behind the second in byte order? -/
def le (s t : Text) : Bool := compare s t != .gt

/-- The texts in byte order; equal ones keep their places. -/
def sort (ts : List Text) : List Text := ts.mergeSort le

/-! ## Laws -/

theorem join_cons_cons (sep a b : Text) (l : List Text) :
    join sep (a :: b :: l) = a ++ sep ++ join sep (b :: l) := by
  simp [join, List.intercalate, List.intersperse]

/-- Behind each piece but the last one stands the separator. -/
theorem intercalate_concat {α : Type} (sep : List α) (ls : List (List α)) (l : List α) :
    sep.intercalate (ls ++ [l]) = ls.flatMap (· ++ sep) ++ l := by
  induction ls with
  | nil => simp [List.intercalate]
  | cons a ls ih =>
    obtain ⟨b, bs, h⟩ := List.exists_cons_of_ne_nil (l := ls ++ [l]) (by simp)
    rw [List.cons_append, h, List.intercalate_cons_cons, ← h, ih, List.flatMap_cons]
    simp

/-- The loop puts the finished pieces, the current one and the pieces of the rest in a row. -/
theorem splitLoop_eq (b : UInt8) (t : Text) : ∀ (cur : Text) (done : List Text),
    splitLoop b t cur done = done.reverse ++ splitLoop b t cur [] := by
  induction t with
  | nil => intro cur done; simp [splitLoop]
  | cons c t ih =>
    intro cur done
    by_cases h : c == b
    · simp only [splitLoop, h, if_true]
      rw [ih [] (cur.reverse :: done), ih [] [cur.reverse]]
      simp
    · simp only [splitLoop, h]
      exact ih (c :: cur) done

/-- There is always a piece. -/
theorem splitLoop_ne_nil (b : UInt8) (t : Text) : ∀ cur : Text, splitLoop b t cur [] ≠ [] := by
  induction t with
  | nil => intro cur; simp [splitLoop]
  | cons c t ih =>
    intro cur
    by_cases h : c == b
    · simp only [splitLoop, h, if_true]
      rw [splitLoop_eq]
      simp
    · simpa [splitLoop, h] using ih (c :: cur)

/-- The pieces of `splitLoop`, joined again, are the current piece and the rest. -/
theorem join_splitLoop (b : UInt8) (t : Text) : ∀ cur : Text,
    join [b] (splitLoop b t cur []) = cur.reverse ++ t := by
  induction t with
  | nil => intro cur; simp [splitLoop, join, List.intercalate]
  | cons c t ih =>
    intro cur
    by_cases h : c == b
    · have hcb : c = b := by simpa using h
      simp only [splitLoop, h, if_true]
      rw [splitLoop_eq]
      obtain ⟨p, l, hp⟩ := List.exists_cons_of_ne_nil (splitLoop_ne_nil b t [])
      have hj := ih []
      rw [hp] at hj
      simp only [List.reverse_cons, List.reverse_nil, List.nil_append, List.singleton_append, hp,
        join_cons_cons, hj, hcb]
      simp
    · simp only [splitLoop, h]
      rw [if_neg (by simp), ih (c :: cur)]
      simp

/-- Joining the pieces with the byte they were cut at gives the text back. -/
theorem join_splitOn (b : UInt8) (t : Text) : join [b] (splitOn b t) = t := by
  simpa [splitOn] using join_splitLoop b t []

theorem after?_eq_some_iff {front t rest : Text} :
    after? front t = some rest ↔ t = front ++ rest := by
  induction front generalizing t with
  | nil => simp [after?, eq_comm]
  | cons a front ih =>
    cases t with
    | nil => simp [after?]
    | cons b t =>
      rw [after?]
      split
      · next h =>
        rw [ih, beq_iff_eq.mp h]
        simp
      · next h =>
        have hne : a ≠ b := fun heq => h (beq_iff_eq.mpr heq)
        simp [Ne.symm hne]

theorem startsWith_iff {t front : Text} : startsWith t front = true ↔ front <+: t := by
  rw [startsWith, Option.isSome_iff_exists]
  constructor
  · rintro ⟨rest, h⟩
    exact ⟨rest, (after?_eq_some_iff.mp h).symm⟩
  · rintro ⟨rest, rfl⟩
    exact ⟨rest, after?_eq_some_iff.mpr rfl⟩

theorem endsWith_iff {t tail : Text} : endsWith t tail = true ↔ tail <:+ t := by
  rw [endsWith, startsWith_iff, List.reverse_prefix]

end Text

end ReflectGen

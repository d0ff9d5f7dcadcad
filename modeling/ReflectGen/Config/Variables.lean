import ReflectGen.Number

/-!
# Variables in paths

In the path of a configuration file a dollar sign and a name with a text between braces,
`${name=text}`, stand for a variable, or for the text if there is no such variable.  The program defines no variables, so the text counts, and
a variable without one is a failure.  Two dollar signs stand for one.
-/

namespace ReflectGen

namespace Config

/-- The letters of names of variables. -/
def isNameLetter (b : UInt8) : Bool :=
  (0x41 ≤ b && b ≤ 0x5A) || (0x61 ≤ b && b ≤ 0x7A) || b == 0x5F

/-- A variable, read from behind its opening brace: the text that it stands for, if there is one, and
what follows the closing brace. -/
def named? (t : Text) : Option (Option Text × Text) :=
  let (name, rest) := t.span fun b => isNameLetter b || Decimal.isDigit b
  if !name.head?.any isNameLetter then none
  else
    match rest with
    | 0x7D :: rest => some (none, rest)
    | 0x3D :: rest =>
      match Text.splitFirst? 0x7D rest with
      | some (b :: text, rest) => some (some (b :: text), rest)
      | _ => none
    | _ => none

/-- The text with its variables replaced; a dollar sign that starts none stands for itself. -/
def replaced? : (fuel : Nat) → Text → (done : Text) → Option Text
  | 0, _, _ => none
  | _ + 1, [], done => some done.reverse
  | n + 1, 0x24 :: 0x24 :: t, done => replaced? n t (0x24 :: done)
  | n + 1, 0x24 :: 0x7B :: t, done =>
    match named? t with
    | some (some text, rest) => replaced? n rest (text.reverse ++ done)
    | some (none, _) => none
    | none => replaced? n (0x7B :: t) (0x24 :: done)
  | n + 1, b :: t, done => replaced? n t (b :: done)

/-- The path with its variables replaced, or nothing if one of them stands for nothing. -/
def expandedPath? (t : Text) : Option Text := replaced? (t.length + 1) t []

end Config

end ReflectGen

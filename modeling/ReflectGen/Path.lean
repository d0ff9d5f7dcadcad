import ReflectGen.Text.Basic

/-!
# Slash-separated paths

Paths are texts whose components are separated by slashes.  These are the purely textual
operations; what a path denotes in a file tree is `ReflectGen.FileTree`.

* `Path.split`: the directory part, with its slash, and the last component.
* `Path.base`, `Path.dir`, `Path.extension`: parts of a path.
* `Path.clean`: the shortest equivalent path; `Path.joinAll` joins components and cleans.
-/

namespace ReflectGen

namespace Path

/-- The byte that separates components. -/
def slash : UInt8 := 0x2F

/-- The component that stands for its own directory. -/
def here : Text := lit "."

/-- The component that stands for the directory above. -/
def above : Text := lit ".."

/-- The path up to its last slash, which belongs to the first part, and the rest. -/
def split (p : Text) : Text × Text :=
  match Text.splitLast? slash p with
  | some (front, back) => (front ++ [slash], back)
  | none => ([], p)

/-- Does the path start at the root? -/
def isAbsolute (p : Text) : Bool := p.head? == some slash

/-- The components in reverse after one more is added: a component that denotes its own directory
adds nothing, and one for the directory above takes the last name away.  Above the root there is
only the root. -/
def push (rooted : Bool) (stack : List Text) (c : Text) : List Text :=
  if c.isEmpty || c == here then stack
  else if c == above then
    match stack with
    | [] => if rooted then [] else [above]
    | top :: rest => if top == above then above :: stack else rest
  else c :: stack

/-- The shortest path with the same meaning, read without looking at any tree. -/
def clean (p : Text) : Text :=
  let rooted := isAbsolute p
  let names := ((Text.splitOn slash p).foldl (push rooted) []).reverse
  let body := Text.join [slash] names
  if rooted then slash :: body else if names.isEmpty then here else body

/-- The non-empty elements joined by slashes, cleaned; no element gives the empty path. -/
def joinAll (elements : List Text) : Text :=
  match elements.filter (!·.isEmpty) with
  | [] => []
  | es => clean (Text.join [slash] es)

/-- The path of `name` in the directory `d`. -/
def join (d name : Text) : Text := joinAll [d, name]

/-- The last component; a path of slashes has a slash, and the empty path has a point. -/
def base (p : Text) : Text :=
  if p.isEmpty then here
  else
    let q := Text.trimRightBy (· == slash) p
    if q.isEmpty then [slash] else (split q).2

/-- The directory that holds the last component, cleaned. -/
def dir (p : Text) : Text := clean (split p).1

/-- The last component from its last point on. -/
def extension (p : Text) : Text :=
  match Text.splitLast? 0x2E (split p).2 with
  | some (_, e) => 0x2E :: e
  | none => []

end Path

end ReflectGen

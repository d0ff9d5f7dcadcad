import ReflectGen.FileTree.Operations
import ReflectGen.Run.Event

/-!
# Log files of a run

A log file is opened before a run and stays open.  Every line goes behind the lines that were
written before it, whatever else has happened to the file in the meantime.  A run may store a
generated source in the very file that holds its log: the log so far is then gone, and later lines
are written into the new content, at the place where the log would have gone on.

Nothing but a storing changes the content of a file, and a storing is an event.  So the events tell
how a log file looks, and it can be put together afterwards.

* `LogFile.overlay`: a text written into a content at some place.
* `LogFile.content`: the content of a log file behind some events.
* `Journal`: what the log files leave in a tree; a run applies it before it looks at the files that
  it has written to.
-/

namespace ReflectGen

/-- A file that is open for what events have to tell. -/
structure LogFile where
  location : Location
  /-- What is written for an event. -/
  text : Event → Text

namespace LogFile

/-- The content with a text written into it at `offset`.  A gap in front of the text is filled with
zeros, and what the text does not reach stays. -/
def overlay (content : Text) (offset : Nat) (text : Text) : Text :=
  if text.isEmpty then content
  else
    content.take offset ++ List.replicate (offset - content.length) 0 ++ text ++
      content.drop (offset + text.length)

/-- The events behind the last storing at a location. -/
def sinceStoring (loc : Location) (es : List Event) : List Event :=
  (es.reverse.takeWhile (· != .stored loc)).reverse

/-- What is written for events. -/
def textOf (f : LogFile) (es : List Event) : Text := es.flatMap f.text

/-- The content of the file behind events, if `stored` is what was stored there last. -/
def content (f : LogFile) (es : List Event) (stored : Text) : Text :=
  let after := sinceStoring f.location es
  let before := es.take (es.length - after.length)
  overlay stored (f.textOf before).length (f.textOf after)

/-- The tree with the file as it is behind events. -/
def update (f : LogFile) (es : List Event) (t : FileTree) : FileTree :=
  match t.entry? f.location with
  | some (.file stored) => t.put f.location (.file (f.content es stored))
  | _ => t

end LogFile

/-- What events leave in the log files of a tree. -/
abbrev Journal := List Event → FileTree → FileTree

/-- There are no log files. -/
def Journal.none : Journal := fun _ t => t

/-- The journal that these files are. -/
def Journal.ofFiles (files : List LogFile) : Journal := fun es t =>
  files.foldl (fun t f => f.update es t) t

end ReflectGen

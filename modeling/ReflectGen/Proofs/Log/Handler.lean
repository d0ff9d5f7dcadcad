import ReflectGen.Log.Console
import ReflectGen.Proofs.Log.Line

/-!
# Each record is one line on one stream

The tree of a console is built anew whenever attributes or a group are added, in both branches.  It
stays the tree of a console all the time: the branches have the same scope, and the filters and the
least severities are those from the start.  So the tree can be kept as one level and one scope, and
what it writes for a record is seen at once.

* `Console.handler_extend`, `Console.handler_foldl_extend`: one change of the scope, and any row of
  changes.
* `Console.enabled_handler`, `Console.handle_handler`: what the tree does is what the console does.
* `Handler.writes_one_line`: what is written for a record after any row of changes.
-/

namespace ReflectGen

/-- What can be added to a scope. -/
inductive Addition where
  | attrs (as : List LogAttr)
  | group (name : Text)
  deriving DecidableEq, Repr

/-- The handler with an addition to its scope. -/
def Handler.extend (h : Handler) : Addition → Handler
  | .attrs as => h.withAttrs as
  | .group name => h.withGroup name

namespace Console

/-- The console with an addition to its scope. -/
def extend (c : Console) : Addition → Console
  | .attrs as => c.withAttrs as
  | .group name => c.withGroup name

/-! ## Additions -/

/-- An addition reaches both branches. -/
theorem handler_extend (c : Console) (a : Addition) :
    c.handler.extend a = (c.extend a).handler := by
  cases a with
  | attrs as => rfl
  | group name => rfl

theorem level_extend (c : Console) (a : Addition) : (c.extend a).level = c.level := by
  cases a with
  | attrs as => rfl
  | group name => rfl

/-- After any row of additions the tree is that of the console with these additions. -/
theorem handler_foldl_extend (added : List Addition) : ∀ c : Console,
    added.foldl Handler.extend c.handler = (added.foldl extend c).handler := by
  induction added with
  | nil => exact fun _ => rfl
  | cons a added ih =>
    intro c
    rw [List.foldl_cons, List.foldl_cons, handler_extend, ih]

theorem level_foldl_extend (added : List Addition) : ∀ c : Console,
    (added.foldl extend c).level = c.level := by
  induction added with
  | nil => exact fun _ => rfl
  | cons a added ih =>
    intro c
    rw [List.foldl_cons, ih, level_extend]

/-! ## What is written -/

variable (c : Console) (r : LogRecord)

/-- The tree is enabled for the severities of the console. -/
theorem enabled_handler (severity : Int) : c.handler.enabled severity = c.enabled severity := by
  simp only [handler, Handler.enabled, Handler.anyEnabled, Bool.or_false, Bool.and_self, enabled]
  by_cases h : severity < Severity.error
  · have herror : ¬ Severity.error ≤ severity := by omega
    simp [h, herror]
  · have herror : Severity.error ≤ severity := by omega
    simp [h, herror]

/-- The tree writes what the console writes. -/
theorem handle_handler : c.handler.handle r = c.write r := by
  simp only [handler, Handler.handle, Handler.handleAll, Handler.enabled, write, enabled]
  by_cases h : r.severity < Severity.error
  · have herror : ¬ Severity.error ≤ r.severity := by omega
    by_cases hlevel : c.level ≤ r.severity
    · simp [h, herror, hlevel, ConsoleText.on, ConsoleText.append]
    · simp [h, herror, hlevel]
  · have herror : Severity.error ≤ r.severity := by omega
    simp [h, herror, ConsoleText.on, ConsoleText.append]

theorem enabled_eq_true_iff (severity : Int) :
    c.enabled severity = true ↔ c.level ≤ severity ∨ Severity.error ≤ severity := by
  unfold enabled
  split
  · next h =>
    rw [decide_eq_true_eq]
    exact (or_iff_left (by omega)).symm
  · next h => exact iff_of_true rfl (.inr (by omega))

theorem write_of_not_enabled (h : c.enabled r.severity = false) : c.write r = {} := by
  rw [write, h]
  rfl

theorem write_of_enabled (h : c.enabled r.severity = true) :
    c.write r = .on (if Severity.error ≤ r.severity then .err else .out) (r.line c.scope) := by
  rw [write, h, if_neg (by decide)]
  by_cases herror : Severity.error ≤ r.severity
  · rw [if_pos herror, if_neg (by omega)]
    rfl
  · rw [if_neg herror, if_pos (by omega)]
    rfl

end Console

/-- **Each record is one line on one stream.**  A console of any level, with any additions to its
scope, is enabled for a severity exactly if it is at least the level or that of errors.  If it is
enabled, it writes one line to one stream, the one for errors or the other by the severity alone,
with one line feed at the end, whatever line feeds there are in the message, the keys, the values and
the names of groups.  If it is not, it writes nothing. -/
theorem Handler.writes_one_line (level : Int) (added : List Addition) (r : LogRecord) :
    let c : Console := { level }
    let h := added.foldl Handler.extend c.handler
    (h.enabled r.severity = (added.foldl Console.extend c).enabled r.severity ∧
        h.handle r = (added.foldl Console.extend c).write r) ∧
      (h.enabled r.severity = true ↔ level ≤ r.severity ∨ Severity.error ≤ r.severity) ∧
      (h.enabled r.severity = true → ∃ front, 0x0A ∉ front ∧
        h.handle r = .on (if Severity.error ≤ r.severity then .err else .out) (front ++ [0x0A])) ∧
      (h.enabled r.severity = false → h.handle r = {}) := by
  intro c h
  have hlevel : (added.foldl Console.extend c).level = level := c.level_foldl_extend added
  have henabled : h.enabled r.severity = (added.foldl Console.extend c).enabled r.severity := by
    rw [← Console.enabled_handler, ← Console.handler_foldl_extend]
  have hhandle : h.handle r = (added.foldl Console.extend c).write r := by
    rw [← Console.handle_handler, ← Console.handler_foldl_extend]
  rw [henabled, hhandle, Console.enabled_eq_true_iff, hlevel]
  refine ⟨⟨rfl, rfl⟩, Iff.rfl, fun hsome => ?_, fun hnone => Console.write_of_not_enabled _ r hnone⟩
  obtain ⟨front, hfront, hline⟩ := r.exists_line_eq (added.foldl Console.extend c).scope
  refine ⟨front, hfront, ?_⟩
  rw [← hline]
  exact Console.write_of_enabled _ r
    ((Console.enabled_eq_true_iff _ _).mpr (by rw [hlevel]; exact hsome))

/-- Line feeds in a group, a key, a value and the message, at the level of errors. -/
theorem Handler.writes_one_line_brokenTexts :
    let c : Console := { level := Severity.ofWord (lit "warn") }
    let added : List Addition :=
      [.attrs [(lit "a\nb", .text (lit "\n"))], .group (lit "g\n"), .attrs [(lit "k", .int 1)]]
    let r : LogRecord := { severity := 8, message := lit "x\ny\n", attrs := [(lit "\n", .null)] }
    let h := added.foldl Handler.extend c.handler
    h.enabled r.severity = true ∧
      (∃ front, 0x0A ∉ front ∧ h.handle r = { err := front ++ [0x0A] }) ∧
      h.enabled 3 = false ∧ h.handle { r with severity := 3 } = {} := by
  intro c added r h
  have hsome : h.enabled r.severity = true := by decide +kernel
  have hnone : h.enabled 3 = false := by decide +kernel
  obtain ⟨-, -, hwrites, -⟩ := Handler.writes_one_line c.level added r
  obtain ⟨-, -, -, hsilent⟩ := Handler.writes_one_line c.level added { r with severity := 3 }
  exact ⟨hsome, hwrites hsome, hnone, hsilent hnone⟩

end ReflectGen

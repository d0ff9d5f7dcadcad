import ReflectGen.Run.Setup
import ReflectGen.Proofs.Discovery
import ReflectGen.Proofs.Glob.Compiled

/-!
# The standard patterns

The standard patterns exclude every file whose name ends in the standard suffix, in whatever
directory it lies and whatever bytes its name has.

* `Pattern.selects_standardExcludes`: the files that are excluded for their names.
* `Discovery.isCandidate_generated`: they are never discovered.
-/

namespace ReflectGen

namespace Pattern

open Glob (Alternates compile writtenAll HasStarAtEnd)

/-- What the first of the standard patterns is made of, for files in the root directory itself. -/
def generatedParts : List Glob := [.any, .text EmitOptions.standard.suffix]

/-- What it is made of for all other files. -/
def nestedParts : List Glob := .super :: .text [Path.slash] :: generatedParts

theorem acceptsShortened_generated {m : Matcher} {name : Text} (h : Path.slash ∉ name) :
    acceptsShortened { text := lit "**/*_reflection.cpp", matcher := m }
      (name ++ EmitOptions.standard.suffix) = true := by
  have hshort : Text.after? (lit "**/") (lit "**/*_reflection.cpp") =
      some (writtenAll generatedParts) := by decide
  rw [acceptsShortened, hshort]
  dsimp only
  rw [Glob.parse_writtenAll (by decide)]
  dsimp only
  rw [Glob.accepts_iff_matches (by decide) (.inl ⟨_, rfl, rfl⟩)]
  exact ⟨name, _, rfl, h, _, [], by rw [List.append_nil], rfl, rfl⟩

theorem accepts_nestedParts {front name : Text} (h : Path.slash ∉ name) :
    (compile (.sequence nestedParts)).accepts
      (front ++ [Path.slash] ++ name ++ EmitOptions.standard.suffix) = true := by
  rw [Glob.accepts_iff_matches (by decide) (.inl ⟨_, rfl, rfl⟩)]
  refine ⟨front, [Path.slash] ++ (name ++ EmitOptions.standard.suffix), ?_, trivial, [Path.slash],
    _, rfl, rfl, name, _, rfl, h, _, [], by rw [List.append_nil], rfl, rfl⟩
  rw [List.append_assoc, List.append_assoc]

theorem readAll_standardExcludes {exc : List Pattern} (h : readAll standardExcludes = .ok exc) :
    ∃ others, exc =
      { text := lit "**/*_reflection.cpp", matcher := compile (.sequence nestedParts) } ::
        others := by
  have hfirst : lit "**/*_reflection.cpp" = writtenAll nestedParts := by decide
  rw [readAll, standardExcludes, List.mapM_cons, hfirst, read_writtenAll (by decide)] at h
  cases hothers : [lit ".git/**"].mapM read with
  | error e =>
    rw [hothers] at h
    exact absurd h (by simp [bind, Except.bind])
  | ok others =>
    rw [hothers] at h
    exact ⟨others, (Except.ok.inj h).symm.trans (by rw [hfirst])⟩

/-- **The standard patterns exclude all generated files**: those whose names end in the standard
suffix, whatever stands in front of it, in every directory. -/
theorem selects_standardExcludes {exc : List Pattern} (hread : readAll standardExcludes = .ok exc)
    {dirs : List Text} {name : Text} (h : Path.slash ∉ name) :
    selects exc (Text.join [Path.slash] (dirs ++ [name ++ EmitOptions.standard.suffix])) =
      true := by
  obtain ⟨others, rfl⟩ := readAll_standardExcludes hread
  rw [selects, Path.join_concat, Bool.or_eq_true]
  rcases List.eq_nil_or_concat dirs with rfl | ⟨dirs, d, rfl⟩
  · right
    rw [List.flatMap_nil, List.nil_append, Bool.and_eq_true]
    refine ⟨?_, ?_⟩
    · have hsuffix : Path.slash ∉ EmitOptions.standard.suffix := by decide
      have hpath : Path.slash ∉ name ++ EmitOptions.standard.suffix := by
        rw [List.mem_append, not_or]
        exact ⟨h, hsuffix⟩
      rw [Bool.not_eq_true', List.contains_eq_mem, decide_eq_false_iff_not]
      exact hpath
    · rw [List.any_cons, acceptsShortened_generated h, Bool.true_or]
  · left
    rw [List.any_cons, List.concat_eq_append, List.flatMap_append, List.flatMap_singleton,
      ← List.append_assoc, ← List.append_assoc, accepts_nestedParts h, Bool.true_or]

end Pattern

namespace Discovery

/-- A file whose name ends in the standard suffix is no candidate. -/
theorem isCandidate_generated {inc exc : List Pattern}
    (hread : Pattern.readAll standardExcludes = .ok exc) {dirs : List Text} {name : Text}
    (h : Path.slash ∉ name) :
    isCandidate inc exc (dirs ++ [name ++ EmitOptions.standard.suffix]) = false := by
  rw [isCandidate, Pattern.selects_standardExcludes hread h]
  simp

end Discovery

end ReflectGen

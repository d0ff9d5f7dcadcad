import ReflectGen.Proofs.FileTree.Basic

/-!
# Paths below a directory

The path of an entry below a directory is the cleaned path of the directory with the names of the
entry behind it.  As long as the cleaned path denotes that directory, such a path is followed to the
directory first and then along real directories, so it ends where it should.

* `FileTree.names_dirText_append`: the names of a path that is written out by its components.
* `FileTree.follow_components`: a cleaned path is followed along the components it keeps.
* `FileTree.follow_below`: a path below a directory is followed from the last real directory on it.
-/

namespace ReflectGen

namespace Path

theorem isAbsolute_dirText_append (rooted : Bool) {dirs : List Text} {k : Text}
    (hdirs : ∀ d ∈ dirs, IsComponent d) (hk : slash ∉ k) :
    isAbsolute (dirText rooted dirs ++ k) = rooted := by
  cases rooted with
  | true => rfl
  | false =>
    have hhead : ∀ {c rest : Text}, slash ∉ c → c ≠ [] → isAbsolute (c ++ rest) = false := by
      intro c rest hslash hne
      obtain ⟨b, c, rfl⟩ := List.exists_cons_of_ne_nil hne
      rw [isAbsolute, List.cons_append, List.head?_cons, beq_eq_false_iff_ne]
      intro heq
      exact hslash (Option.some.inj heq ▸ List.mem_cons_self)
    show isAbsolute (dirs.flatMap (· ++ [slash]) ++ k) = false
    cases dirs with
    | nil =>
      by_cases hnil : k = []
      · rw [hnil]
        rfl
      · have hname := @hhead k [] hk hnil
        rwa [List.append_nil] at hname
    | cons d dirs =>
      have hd := hdirs d List.mem_cons_self
      rw [List.flatMap_cons, List.append_assoc, List.append_assoc]
      exact hhead hd.slash_notMem hd.ne_nil

/-- A cleaned path is written out by the components that cleaning keeps; without any of them it is
the root or the directory itself. -/
theorem clean_eq (p : Text) :
    ∃ dirs k, clean p = dirText (isAbsolute p) dirs ++ k ∧ clean p ≠ [] ∧
      (∀ d ∈ dirs, IsComponent d) ∧ slash ∉ k ∧
      ((k ≠ [] ∧ components p = dirs ++ [k]) ∨
        (components p = [] ∧ dirs = [] ∧ (k = [] ∨ k = here))) := by
  have hclean : clean p = if isAbsolute p then slash :: Text.join [slash] (components p)
      else if (components p).isEmpty then here else Text.join [slash] (components p) := rfl
  rcases List.eq_nil_or_concat (components p) with hnil | ⟨dirs, k, hk⟩
  · rw [hclean, hnil]
    cases isAbsolute p with
    | true => exact ⟨[], [], rfl, by simp, by simp, by simp, .inr ⟨rfl, rfl, .inl rfl⟩⟩
    | false => exact ⟨[], here, rfl, by decide, by simp, by decide, .inr ⟨rfl, rfl, .inr rfl⟩⟩
  · rw [List.concat_eq_append] at hk
    have hcomp : ∀ c ∈ dirs ++ [k], IsComponent c := by
      rw [← hk]
      exact fun c hc => isComponent_of_mem_components hc
    have hlast : IsComponent k := hcomp k (by simp)
    have hp := clean_eq_of_components hk
    refine ⟨dirs, k, hp, ?_, fun d hd => hcomp d (List.mem_append_left _ hd), hlast.slash_notMem,
      .inl ⟨hlast.ne_nil, hk⟩⟩
    rw [hp]
    simp [hlast.ne_nil]

end Path

namespace FileTree

open ReflectGen.Path (dirText components IsComponent IsName)

/-- The names of a path that is written out by its components; a path that ends in a slash has the
name of its own directory as the last one. -/
theorem names_dirText_append (rooted : Bool) {dirs : List Text} {k : Text}
    (hdirs : ∀ d ∈ dirs, IsComponent d) (hk : Path.slash ∉ k)
    (hne : dirText rooted dirs ++ k ≠ []) :
    names (dirText rooted dirs ++ k) = dirs ++ [if k = [] then Path.here else k] := by
  have hfilter : (if rooted then [([] : Text)] else []).filter (!·.isEmpty) = [] := by
    cases rooted <;> rfl
  have hkeep : dirs.filter (!·.isEmpty) = dirs := by
    rw [List.filter_eq_self]
    intro d hd
    simpa using (hdirs d hd).ne_nil
  unfold names
  rw [Path.splitOn_dirText_append rooted (fun d hd => (hdirs d hd).slash_notMem) hk,
    List.filter_append, List.filter_append, hfilter, hkeep, List.nil_append]
  by_cases hnil : k = []
  · have hlast : (dirText rooted dirs ++ k).getLast? = some Path.slash := by
      rw [hnil, List.append_nil] at hne ⊢
      rcases Path.isDirPart_dirText rooted dirs with h | ⟨front, h⟩
      · exact absurd h hne
      · rw [h, List.getLast?_concat]
    rw [hlast, if_pos (beq_self_eq_true _), if_pos hnil, hnil]
    simp
  · have hlast : ¬ ((dirText rooted dirs ++ k).getLast? == some Path.slash) = true := by
      rw [List.getLast?_append_of_ne_nil _ hnil, beq_iff_eq]
      exact fun h => hk (List.mem_of_getLast? h)
    rw [if_neg hlast, if_neg hnil]
    simp [hnil]

variable {t : FileTree}

theorem locate_eq_ok_iff {action : FileAction} {through : Bool} {path : Text} {loc : Location}
    {e : Entry} :
    t.locate action through path = .ok (loc, e) ↔ t.resolve through path = .found loc e := by
  unfold locate
  cases t.resolve through path <;> simp

/-- The path of a directory that is cleaned is followed along the components it keeps. -/
theorem follow_components {root : Text} {top : Location}
    (h : t.stat (Path.clean root) = .ok (top, .directory)) :
    t.follow true maxLinks (if Path.isAbsolute root then [] else t.workdir) (components root) =
      .found top .directory := by
  have hres := locate_eq_ok_iff.mp h
  obtain ⟨dirs, k, hclean, hne, hdirs, hk, hkeep⟩ := Path.clean_eq root
  rcases t.resolve_cases (Path.clean root) with ⟨-, hfollow⟩ | ⟨reason, hfail⟩
  · rw [hfollow, hclean, Path.isAbsolute_dirText_append _ hdirs hk,
      names_dirText_append _ hdirs hk (hclean ▸ hne)] at hres
    rcases hkeep with ⟨hnil, hcomp⟩ | ⟨hcomp, rfl, rfl | rfl⟩
    · have hlast : (if k = [] then Path.here else k) = k := if_neg hnil
      rwa [hcomp, ← hlast]
    · rw [hcomp]
      simpa using hres
    · rw [hcomp]
      simpa using hres
  · rw [hfail] at hres
    exact absurd hres (by simp)

/-- A path below a directory is followed from the last real directory on it, or refused. -/
theorem follow_below {root : Text} {top : Location}
    (hroot : t.stat (Path.clean root) = .ok (top, .directory)) {dirs : List Text}
    (hnames : ∀ d ∈ dirs, IsName d)
    (hreal : ∀ front ≠ [], front <+: dirs → t.entry? (top ++ front) = some .directory) {k : Text}
    (hk : Path.slash ∉ k) :
    (∃ left, ∀ through,
      t.resolve through (dirText (Path.isAbsolute root) (components root ++ dirs) ++ k) =
        t.follow through left (top ++ dirs) [if k = [] then Path.here else k]) ∨
    ∃ reason, ∀ through,
      t.resolve through (dirText (Path.isAbsolute root) (components root ++ dirs) ++ k) =
        .failed reason := by
  have hcomp : ∀ d ∈ components root ++ dirs, IsComponent d := by
    intro d hd
    rcases List.mem_append.mp hd with hd | hd
    · exact Path.isComponent_of_mem_components hd
    · exact (hnames d hd).toIsComponent
  rcases t.resolve_cases (dirText (Path.isAbsolute root) (components root ++ dirs) ++ k) with
    ⟨hne, hfollow⟩ | hfail
  · rw [Path.isAbsolute_dirText_append _ hcomp hk, names_dirText_append _ hcomp hk hne] at hfollow
    obtain ⟨left, hleft⟩ := follow_append (follow_components hroot)
    simp only [List.append_assoc] at hfollow
    rcases walk_directories hnames hreal with hwalk | hwalk
    · refine .inl ⟨left, fun through => ?_⟩
      rw [hfollow, hleft through _ (by simp)]
      exact follow_of_walk_eq (hwalk through _)
    · refine .inr ⟨.nameTooLong, fun through => ?_⟩
      rw [hfollow, hleft through _ (by simp)]
      exact follow_of_walk (hwalk through _) (by simp)
  · exact .inr hfail

end FileTree

end ReflectGen

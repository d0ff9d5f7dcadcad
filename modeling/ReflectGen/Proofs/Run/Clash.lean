import Mathlib.Tactic.ByContra
import Mathlib.Data.List.Count
import ReflectGen.Proofs.Metadata
import ReflectGen.Proofs.Naming
import ReflectGen.Run.Clash

/-!
# When a source clashes

A source is told about a type name that is defined more than once, and about a variable that belongs
to types with different names.  Neither of the two groupings covers all shared variables, but both
together do: a variable at two places has the same type name there, and then the name is defined
twice, or it has different ones.  So a source is told something exactly if one of its records has
the variable of another occurrence.

* `Metadata.SharesOutput`, `Metadata.SharesVariable`: the two kinds of clashes, said by paths and
  occurrences.
* `Metadata.two_le_length_claimants_iff`, `Clash.messages_ne_nil_iff`: how they are found.
* `Metadata.count_descriptors_le_one`: a variable that is not shared stands once in the record set.
-/

namespace ReflectGen

/-! ## Lists with two entries -/

theorem two_le_length_iff_exists_ne {α : Type} {l : List α} (hnodup : l.Nodup) {a : α}
    (ha : a ∈ l) : 2 ≤ l.length ↔ ∃ b ∈ l, b ≠ a := by
  match l with
  | [] => exact absurd ha List.not_mem_nil
  | [x] =>
    have hx : a = x := List.mem_singleton.mp ha
    simp [hx]
  | x :: y :: l =>
    have hxy : x ≠ y := fun h => (List.nodup_cons.mp hnodup).1 (h ▸ List.mem_cons_self)
    refine ⟨fun _ => ?_, fun _ => by simp⟩
    by_cases hx : x = a
    · exact ⟨y, by simp, fun hy => hxy (hx.trans hy.symm)⟩
    · exact ⟨x, by simp, hx⟩

theorem two_le_length_of_mem_of_ne {α : Type} {l : List α} {a b : α} (ha : a ∈ l) (hb : b ∈ l)
    (hne : a ≠ b) : 2 ≤ l.length := by
  match l with
  | [] => exact absurd ha List.not_mem_nil
  | [x] => exact absurd ((List.mem_singleton.mp ha).trans (List.mem_singleton.mp hb).symm) hne
  | _ :: _ :: _ => simp

theorem two_le_length_of_eraseDups {l : List Text} (h : 2 ≤ l.eraseDups.length) :
    2 ≤ l.length := by
  match l with
  | [] => exact h
  | [x] => simp [List.eraseDups_cons] at h
  | _ :: _ :: _ => simp

namespace Metadata

/-! ## Shared outputs -/

/-- Another file with records has the same directory part and the same name up to its first
point. -/
def SharesOutput (md : Metadata) (source : Text) : Prop :=
  ∃ other ∈ md.paths, other ≠ source ∧ (Path.split other).1 = (Path.split source).1 ∧
    stem (Path.split other).2 = stem (Path.split source).2

theorem mem_claimants {md : Metadata} {suffix output p : Text} :
    p ∈ md.claimants suffix output ↔ p ∈ md.paths ∧ outputPath p suffix = output := by
  rw [claimants, List.mem_filter, beq_iff_eq]

/-- Several files claim an output path exactly if the output is shared, whatever the suffix. -/
theorem two_le_length_claimants_iff {md : Metadata} (hnodup : md.paths.Nodup) {source : Text}
    (hsource : source ∈ md.paths) (suffix : Text) :
    2 ≤ (md.claimants suffix (outputPath source suffix)).length ↔ md.SharesOutput source := by
  have hself : source ∈ md.claimants suffix (outputPath source suffix) :=
    mem_claimants.mpr ⟨hsource, rfl⟩
  have hclaim : (md.claimants suffix (outputPath source suffix)).Nodup := hnodup.filter _
  rw [two_le_length_iff_exists_ne hclaim hself]
  constructor
  · rintro ⟨other, hmem, hne⟩
    obtain ⟨hpath, hout⟩ := mem_claimants.mp hmem
    exact ⟨other, hpath, hne, (outputPath_eq_iff other source suffix).mp hout⟩
  · rintro ⟨other, hpath, hne, h⟩
    exact ⟨other, mem_claimants.mpr ⟨hpath, (outputPath_eq_iff other source suffix).mpr h⟩, hne⟩

/-! ## Shared variables -/

/-- A record of the file has the same variable as a record at another place, in the same file or in
another one. -/
def SharesVariable (md : Metadata) (lead source : Text) : Prop :=
  ∃ (i : Nat) (r : TypeRecord) (other : Text) (j : Nat) (r' : TypeRecord),
    (md.records source)[i]? = some r ∧ (md.records other)[j]? = some r' ∧
    (other, j) ≠ (source, i) ∧ descriptorName lead r'.name = descriptorName lead r.name

/-- The site of an occurrence. -/
def siteOf (o : (Text × Nat) × TypeRecord) : Site :=
  { source := o.1.1, line := o.2.line, name := o.2.name }

theorem sites_eq_map_occurrences (md : Metadata) : md.sites = md.occurrences.map siteOf := by
  rw [sites, occurrences, List.map_flatMap]
  congr 1
  funext f
  rw [fileOccurrences, List.map_map]
  conv_lhs => rw [← List.zipIdx_map_fst 0 f.2, List.map_map]
  rfl

/-- The sites that share the variable of an occurrence, counted by occurrences. -/
theorem length_sitesOfVariable (md : Metadata) (lead variableName : Text) :
    (Clash.sitesOfVariable lead md.sites variableName).length =
      (md.occurrences.filter fun o => descriptorName lead o.2.name == variableName).length := by
  rw [Clash.sitesOfVariable, sites_eq_map_occurrences, List.filter_map, List.length_map]
  rfl

theorem mem_filter_variable {md : Metadata} (hnodup : md.paths.Nodup) (lead : Text)
    {variableName p : Text} {i : Nat} {r : TypeRecord} :
    ((p, i), r) ∈ md.occurrences.filter (fun o => descriptorName lead o.2.name == variableName) ↔
      (md.records p)[i]? = some r ∧ descriptorName lead r.name = variableName := by
  rw [List.mem_filter, mem_occurrences_iff hnodup, beq_iff_eq]

/-- A variable is shared exactly if it has several sites, one of them in the file. -/
theorem sharesVariable_iff {md : Metadata} (hnodup : md.paths.Nodup) {lead source : Text} :
    md.SharesVariable lead source ↔
      ∃ s ∈ md.sites, s.source = source ∧
        2 ≤ (Clash.sitesOfVariable lead md.sites (descriptorName lead s.name)).length := by
  constructor
  · rintro ⟨i, r, other, j, r', hr, hr', hne, hvar⟩
    have hmem := (mem_filter_variable hnodup lead).mpr ⟨hr, rfl⟩
    have hmem' := (mem_filter_variable hnodup lead).mpr ⟨hr', hvar⟩
    refine ⟨siteOf ((source, i), r), ?_, rfl, ?_⟩
    · rw [sites_eq_map_occurrences]
      exact List.mem_map_of_mem (List.mem_filter.mp hmem).1
    · rw [length_sitesOfVariable]
      exact two_le_length_of_mem_of_ne hmem' hmem fun h => hne (Prod.mk.inj h).1
  · rintro ⟨s, hs, hsource, htwo⟩
    rw [sites_eq_map_occurrences] at hs
    obtain ⟨⟨⟨p, i⟩, r⟩, ho, rfl⟩ := List.mem_map.mp hs
    have hp : p = source := hsource
    subst hp
    have hr := (mem_occurrences_iff hnodup).mp ho
    have hmem := (mem_filter_variable hnodup lead).mpr ⟨hr, rfl⟩
    rw [siteOf, length_sitesOfVariable,
      two_le_length_iff_exists_ne ((occurrences_nodup hnodup).filter _) hmem] at htwo
    obtain ⟨⟨⟨q, j⟩, r'⟩, hmem', hne⟩ := htwo
    obtain ⟨hr', hvar⟩ := (mem_filter_variable hnodup lead).mp hmem'
    refine ⟨i, r, q, j, r', hr, hr', fun h => hne ?_, hvar⟩
    -- one place has one record
    obtain ⟨rfl, rfl⟩ := Prod.mk.inj h
    rw [Option.some.inj (hr'.symm.trans hr)]

/-- The variables of all occurrences. -/
def descriptors (md : Metadata) (lead : Text) : List Text :=
  md.files.flatMap fun f => f.2.map fun r => descriptorName lead r.name

/-- A variable of a file that shares none stands once in the record set. -/
theorem count_descriptors_le_one {md : Metadata} (hnodup : md.paths.Nodup) {lead : Text}
    {f : Text × List TypeRecord} (hf : f ∈ md.files) (hshares : ¬ md.SharesVariable lead f.1)
    {r : TypeRecord} (hr : r ∈ f.2) :
    (md.descriptors lead).count (descriptorName lead r.name) ≤ 1 := by
  have hvars : md.descriptors lead = md.sites.map fun s => descriptorName lead s.name := by
    rw [descriptors, sites, List.map_flatMap]
    simp only [List.map_map]
    rfl
  rw [hvars, List.count_eq_length_filter, List.filter_map, List.length_map]
  by_contra hlt
  refine hshares ((sharesVariable_iff hnodup).mpr
    ⟨{ source := f.1, line := r.line, name := r.name }, ?_, rfl, ?_⟩)
  · exact List.mem_flatMap.mpr ⟨f, hf, List.mem_map_of_mem hr⟩
  · exact Nat.lt_of_not_le hlt

end Metadata

namespace Clash

/-! ## Messages -/

theorem sort_eq_nil_iff {ts : List Text} : Text.sort ts = [] ↔ ts = [] := by
  rw [← List.length_eq_zero_iff, Text.sort, List.length_mergeSort, List.length_eq_zero_iff]

variable {lead source : Text} {sites : List Site} {s : Site}

theorem nameMessage?_eq_none_iff (hs : s ∈ sites) (hsource : s.source = source) :
    nameMessage? sites source s.name = none ↔ ¬ 2 ≤ (sitesOfName sites s.name).length := by
  have hany : (sitesOfName sites s.name).any (·.source == source) = true :=
    List.any_eq_true.mpr ⟨s, List.mem_filter.mpr ⟨hs, by simp⟩, beq_iff_eq.mpr hsource⟩
  simp [nameMessage?, hany]

theorem variableMessage?_eq_none_iff (hs : s ∈ sites) (hsource : s.source = source) :
    variableMessage? lead sites source (descriptorName lead s.name) = none ↔
      ¬ 2 ≤ ((sitesOfVariable lead sites (descriptorName lead s.name)).map
        Site.name).eraseDups.length := by
  have hany : (sitesOfVariable lead sites (descriptorName lead s.name)).any
      (·.source == source) = true :=
    List.any_eq_true.mpr ⟨s, List.mem_filter.mpr ⟨hs, by simp⟩, beq_iff_eq.mpr hsource⟩
  simp [variableMessage?, hany]

/-- Nothing is said exactly if nothing is said about a name or a variable of the source's own. -/
theorem messages_eq_nil_iff_forall :
    messages lead sites source = [] ↔ ∀ s ∈ sites, s.source = source →
      nameMessage? sites source s.name = none ∧
        variableMessage? lead sites source (descriptorName lead s.name) = none := by
  rw [messages, messagesInOrder, sort_eq_nil_iff, List.append_eq_nil_iff,
    List.filterMap_eq_nil_iff, List.filterMap_eq_nil_iff]
  simp only [List.mem_eraseDups, List.mem_map, List.mem_filter, beq_iff_eq]
  constructor
  · rintro ⟨hname, hvar⟩ s hs hsource
    exact ⟨hname s.name ⟨s, ⟨hs, hsource⟩, rfl⟩, hvar _ ⟨s, ⟨hs, hsource⟩, rfl⟩⟩
  · intro h
    constructor
    · rintro _ ⟨s, ⟨hs, hsource⟩, rfl⟩
      exact (h s hs hsource).1
    · rintro _ ⟨s, ⟨hs, hsource⟩, rfl⟩
      exact (h s hs hsource).2

/-- The two groupings together find every variable with several sites. -/
theorem no_message_iff (hs : s ∈ sites) (hsource : s.source = source) :
    (nameMessage? sites source s.name = none ∧
        variableMessage? lead sites source (descriptorName lead s.name) = none) ↔
      ¬ 2 ≤ (sitesOfVariable lead sites (descriptorName lead s.name)).length := by
  rw [nameMessage?_eq_none_iff hs hsource, variableMessage?_eq_none_iff hs hsource]
  have hmem : s ∈ sitesOfVariable lead sites (descriptorName lead s.name) :=
    List.mem_filter.mpr ⟨hs, by simp⟩
  constructor
  · rintro ⟨hname, hvar⟩ htwo
    -- all sites of the variable have one name, so they are sites of that name
    have hall : ∀ s' ∈ sitesOfVariable lead sites (descriptorName lead s.name),
        s'.name = s.name := by
      intro s' hs'
      by_contra hne
      refine hvar (two_le_length_of_mem_of_ne ?_ ?_ hne)
      · exact List.mem_eraseDups.mpr (List.mem_map_of_mem hs')
      · exact List.mem_eraseDups.mpr (List.mem_map_of_mem hmem)
    have hsub : sitesOfVariable lead sites (descriptorName lead s.name) =
        (sitesOfVariable lead sites (descriptorName lead s.name)).filter (·.name == s.name) :=
      (List.filter_eq_self.mpr fun s' hs' => beq_iff_eq.mpr (hall s' hs')).symm
    have hle : ((sitesOfVariable lead sites (descriptorName lead s.name)).filter
        (·.name == s.name)).length ≤ (sitesOfName sites s.name).length :=
      (List.filter_sublist.filter _).length_le
    rw [hsub] at htwo
    exact hname (Nat.le_trans htwo hle)
  · intro htwo
    refine ⟨fun hname => htwo (Nat.le_trans hname ?_), fun hvar => htwo ?_⟩
    · refine (List.monotone_filter_right sites fun s' hs' => ?_).length_le
      rw [beq_iff_eq.mp hs', beq_self_eq_true]
    · have hlen := two_le_length_of_eraseDups hvar
      rwa [List.length_map] at hlen

/-- A source is told something exactly if one of its records shares its variable. -/
theorem messages_ne_nil_iff {md : Metadata} (hnodup : md.paths.Nodup) :
    messages lead md.sites source ≠ [] ↔ md.SharesVariable lead source := by
  rw [Metadata.sharesVariable_iff hnodup, Ne, messages_eq_nil_iff_forall]
  constructor
  · intro h
    by_contra hnone
    refine h fun s hs hsource => (no_message_iff hs hsource).mpr fun htwo => ?_
    exact hnone ⟨s, hs, hsource, htwo⟩
  · rintro ⟨s, hs, hsource, htwo⟩ h
    exact (no_message_iff hs hsource).mp (h s hs hsource) htwo

end Clash

end ReflectGen

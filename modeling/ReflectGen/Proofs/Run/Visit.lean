import ReflectGen.Proofs.Keyed.Gathered
import ReflectGen.Proofs.Run.Account
import ReflectGen.Proofs.Run.Rejection

/-!
# Clashes are found in any order

To find all clashes at once, the sites of a run are gathered twice, by type name and by variable.
The groups are looked at one after the other, and a group that clashes leaves a message with each
source in it; at last the messages of each source are sorted.  Nothing fixes the orders in which the
groups of the two tables and the sources are visited.  They do not show: a source is left with the
messages that it is told by itself, `Clash.messages`, because it gets one message from each group
that clashes and has a site in it, and sorted lists do not remember where their entries came from.

* `Clash.Rule`: the two kinds of clashes.
* `Clash.told`: the messages by source, after groups are looked at in the given orders.
* `Clash.Visit`: orders in which everything is visited; `Clash.Visit.duplicates`: what comes out.
* `Clash.Rule.addedUnder_perm`: what the groups of one kind leave with a source, before sorting.
* `Clash.Visit.lookup_duplicates`: what all groups leave with it in the end.
* `Run.duplicate_mem_failures_emit_iff`: the duplicates that a run reports.
* `Run.duplicates_in_any_order`: the orders do not matter.
-/

namespace ReflectGen

namespace Clash

/-! ## Looking at groups -/

/-- A kind of clash: how sites are gathered, which groups clash, and what is said about one. -/
structure Rule where
  key : Site → Text
  clashes : List Site → Bool
  message : Text → List Site → Text

/-- A type name is defined more than once. -/
def nameRule : Rule where
  key := Site.name
  clashes group := 2 ≤ group.length
  message name group := lit "type " ++ name ++ lit " is defined at [" ++
    Text.join (lit " ") (group.map Site.text) ++ lit "]"

/-- A variable is derived from different type names. -/
def variableRule (lead : Text) : Rule where
  key s := descriptorName lead s.name
  clashes group := 2 ≤ (group.map Site.name).eraseDups.length
  message variableName group := lit "variable " ++ variableName ++
    lit " is derived from types at [" ++ Text.join (lit " ") (group.map Site.text) ++ lit "]"

namespace Rule

/-- The sites in groups, each with its key. -/
def groups (rule : Rule) (sites : List Site) : List (Text × List Site) :=
  gathered (sites.map fun s => (rule.key s, [s]))

/-- The messages that a group leaves: one for each source in it, if the group clashes. -/
def tells (rule : Rule) (group : Text × List Site) : List (Text × List Text) :=
  if rule.clashes group.2 then
    (group.2.map Site.source).eraseDups.map fun source => (source, [rule.message group.1 group.2])
  else []

/-- The messages by source after one more group is looked at. -/
def visit (rule : Rule) (told : List (Text × List Text)) (group : Text × List Site) :
    List (Text × List Text) :=
  (rule.tells group).foldl (fun told m => appendUnder told m.1 m.2) told

/-- What is said to `source` about the sites with a key. -/
def message? (rule : Rule) (sites : List Site) (source k : Text) : Option Text :=
  let group := sites.filter (rule.key · == k)
  if rule.clashes group && group.any (·.source == source) then some (rule.message k group) else none

end Rule

/-- The messages by source, when the groups by name and those by variable are looked at in the given
orders. -/
def told (lead : Text) (byName byVariable : List (Text × List Site)) : List (Text × List Text) :=
  byVariable.foldl (variableRule lead).visit (byName.foldl nameRule.visit [])

/-- Orders in which the groups by name, those by variable and the sources with messages are
visited. -/
structure Visit (lead : Text) (sites : List Site) where
  byName : List (Text × List Site)
  byVariable : List (Text × List Site)
  sources : List Text
  byName_perm : byName.Perm (nameRule.groups sites)
  byVariable_perm : byVariable.Perm ((variableRule lead).groups sites)
  sources_perm : sources.Perm ((told lead byName byVariable).map Prod.fst)

variable {lead source : Text} {sites : List Site}

namespace Visit

/-- The sorted messages by source. -/
def duplicates (v : Visit lead sites) : List (Text × List Text) :=
  v.sources.foldl (mapUnder Text.sort) (told lead v.byName v.byVariable)

/-- Everything is visited as it turns up. -/
def inOrder (lead : Text) (sites : List Site) : Visit lead sites where
  byName := nameRule.groups sites
  byVariable := (variableRule lead).groups sites
  sources := (told lead (nameRule.groups sites) ((variableRule lead).groups sites)).map Prod.fst
  byName_perm := .refl _
  byVariable_perm := .refl _
  sources_perm := .refl _

/-- Everything is visited from its end. -/
def backwards (lead : Text) (sites : List Site) : Visit lead sites where
  byName := (nameRule.groups sites).reverse
  byVariable := ((variableRule lead).groups sites).reverse
  sources := ((told lead (nameRule.groups sites).reverse
    ((variableRule lead).groups sites).reverse).map Prod.fst).reverse
  byName_perm := List.reverse_perm _
  byVariable_perm := List.reverse_perm _
  sources_perm := List.reverse_perm _

end Visit

/-! ## What groups leave with a source -/

namespace Rule

variable (rule : Rule)

/-- The group of a key consists of the sites with that key. -/
theorem groups_eq_map (sites : List Site) : rule.groups sites =
    (sites.map rule.key).eraseDups.map fun k => (k, sites.filter (rule.key · == k)) := by
  rw [groups, gathered_eq_map, List.map_map]
  refine List.map_congr_left fun k _ => Prod.ext rfl ?_
  rw [addedUnder, List.filter_map, List.flatMap_map]
  exact List.flatMap_singleton' _

/-- A source gets at most one message from a group. -/
theorem addedUnder_tells (group : Text × List Site) :
    addedUnder (rule.tells group) source =
      if rule.clashes group.2 && group.2.any (·.source == source) then
        [rule.message group.1 group.2] else [] := by
  have hany : group.2.any (·.source == source) = true ↔
      source ∈ (group.2.map Site.source).eraseDups := by
    simp [List.mem_eraseDups]
  rw [tells]
  cases rule.clashes group.2 with
  | true =>
    rw [if_pos rfl, addedUnder_map_of_nodup (nodup_eraseDups _), Bool.true_and]
    simp only [hany]
  | false => rfl

theorem ne_nil_of_mem_tells {group : Text × List Site} {e : Text × List Text}
    (h : e ∈ rule.tells group) : e.2 ≠ [] := by
  rw [tells] at h
  split at h
  · obtain ⟨source, -, rfl⟩ := List.mem_map.mp h
    exact List.cons_ne_nil _ _
  · exact absurd h List.not_mem_nil

theorem addedUnder_flatMap_tells (groups : List (Text × List Site)) :
    addedUnder (groups.flatMap rule.tells) source =
      groups.flatMap fun group => addedUnder (rule.tells group) source := by
  rw [addedUnder, List.filter_flatMap, List.flatMap_assoc]
  rfl

/-- From the group of a key a source gets what is said to it about that key. -/
theorem addedUnder_tells_group (k : Text) :
    addedUnder (rule.tells (k, sites.filter (rule.key · == k))) source =
      (rule.message? sites source k).toList := by
  rw [addedUnder_tells, message?]
  dsimp only
  split <;> rfl

/-- A source is told something only about keys of its own. -/
theorem mem_map_key_of_message? {k m : Text} (h : rule.message? sites source k = some m) :
    k ∈ (sites.filter (·.source == source)).map rule.key := by
  rw [message?] at h
  split at h
  · next hcond =>
    obtain ⟨s, hs, hsource⟩ := List.any_eq_true.mp (Bool.and_eq_true_iff.mp hcond).2
    obtain ⟨hmem, hkey⟩ := List.mem_filter.mp hs
    exact List.mem_map.mpr ⟨s, List.mem_filter.mpr ⟨hmem, hsource⟩, beq_iff_eq.mp hkey⟩
  · exact absurd h (by simp)

/-- What is said about all keys is said about those of the source. -/
theorem filterMap_message?_perm :
    ((sites.map rule.key).eraseDups.filterMap (rule.message? sites source)).Perm
      (((sites.filter (·.source == source)).map rule.key).eraseDups.filterMap
        (rule.message? sites source)) := by
  let own := (sites.filter (·.source == source)).map rule.key
  have hown : (sites.map rule.key).eraseDups.filterMap (rule.message? sites source) =
      ((sites.map rule.key).eraseDups.filter (· ∈ own)).filterMap (rule.message? sites source) := by
    rw [List.filterMap_filter]
    refine List.filterMap_congr fun k _ => ?_
    split
    · rfl
    · next hk =>
      refine Option.eq_none_iff_forall_ne_some.mpr fun m hm => hk ?_
      exact decide_eq_true (rule.mem_map_key_of_message? hm)
  rw [hown]
  refine List.Perm.filterMap _ ((List.perm_ext_iff_of_nodup ((nodup_eraseDups _).filter _)
    (nodup_eraseDups own)).mpr fun k => ?_)
  rw [List.mem_filter, List.mem_eraseDups, List.mem_eraseDups, decide_eq_true_eq]
  refine and_iff_right_of_imp fun hk => ?_
  exact List.map_subset rule.key (List.filter_subset_self sites) hk

/-- From all groups, in any order, a source is left with the messages about its own keys. -/
theorem addedUnder_perm {groups : List (Text × List Site)} (h : groups.Perm (rule.groups sites)) :
    (addedUnder (groups.flatMap rule.tells) source).Perm
      (((sites.filter (·.source == source)).map rule.key).eraseDups.filterMap
        (rule.message? sites source)) := by
  rw [addedUnder_flatMap_tells]
  refine (h.flatMap_right _).trans ?_
  rw [groups_eq_map, List.flatMap_map]
  simp only [addedUnder_tells_group]
  rw [← List.filterMap_eq_flatMap_toList]
  exact rule.filterMap_message?_perm

end Rule

/-! ## All visits -/

/-- The table of messages is gathered from what the groups tell. -/
theorem told_eq_gathered (byName byVariable : List (Text × List Site)) :
    told lead byName byVariable =
      gathered (byName.flatMap nameRule.tells ++ byVariable.flatMap (variableRule lead).tells) := by
  rw [told, gathered, List.foldl_append, List.foldl_flatMap, List.foldl_flatMap]
  rfl

theorem nameMessage?_eq : nameMessage? sites source = nameRule.message? sites source := rfl

theorem variableMessage?_eq :
    variableMessage? lead sites source = (variableRule lead).message? sites source := rfl

namespace Visit

variable (v : Visit lead sites)

/-- What all groups tell, source by source. -/
def entries : List (Text × List Text) :=
  v.byName.flatMap nameRule.tells ++ v.byVariable.flatMap (variableRule lead).tells

theorem ne_nil_of_mem_entries : ∀ e ∈ v.entries, e.2 ≠ [] := by
  intro e he
  rcases List.mem_append.mp he with he | he
  · obtain ⟨group, -, hgroup⟩ := List.mem_flatMap.mp he
    exact nameRule.ne_nil_of_mem_tells hgroup
  · obtain ⟨group, -, hgroup⟩ := List.mem_flatMap.mp he
    exact (variableRule lead).ne_nil_of_mem_tells hgroup

/-- What a source is told by all groups, once it is sorted, are its messages. -/
theorem sort_addedUnder (source : Text) :
    Text.sort (addedUnder v.entries source) = messages lead sites source := by
  rw [entries, addedUnder_append, messages, messagesInOrder, nameMessage?_eq, variableMessage?_eq]
  refine Text.sort_eq_of_perm (.trans ?_ (List.mergeSort_perm _ _).symm) (Text.pairwise_sort _)
  exact (nameRule.addedUnder_perm v.byName_perm).append
    ((variableRule lead).addedUnder_perm v.byVariable_perm)

/-- Each source is left with its messages, in their order; one that has none is not listed. -/
theorem lookup_duplicates (source : Text) :
    v.duplicates.lookup source =
      if messages lead sites source = [] then none else some (messages lead sites source) := by
  have hkeys : source ∈ v.sources ↔ source ∈ v.entries.map Prod.fst := by
    rw [v.sources_perm.mem_iff, told_eq_gathered, map_fst_gathered, List.mem_eraseDups]
    rfl
  have hnodup : v.sources.Nodup := by
    rw [v.sources_perm.nodup_iff, told_eq_gathered]
    exact nodup_map_fst_gathered _
  have hlookup : (told lead v.byName v.byVariable).lookup source =
      if source ∈ v.entries.map Prod.fst then some (addedUnder v.entries source) else none := by
    rw [told_eq_gathered]
    exact lookup_gathered v.entries source
  rw [duplicates, lookup_foldl_mapUnder Text.sort hnodup, hlookup, ← v.sort_addedUnder]
  by_cases hmem : source ∈ v.entries.map Prod.fst
  · have hne := addedUnder_ne_nil v.ne_nil_of_mem_entries hmem
    rw [if_pos (hkeys.mpr hmem), if_pos hmem, if_neg (mt sort_eq_nil_iff.mp hne)]
    rfl
  · have hnil := addedUnder_eq_nil_of_notMem hmem
    rw [if_neg (hmem ∘ hkeys.mp), if_neg hmem, if_pos (sort_eq_nil_iff.mpr hnil)]

end Visit

end Clash

namespace Run

/-! ## The duplicates that a run reports -/

variable {run : Run} {md : Metadata} {t : FileTree} {source : Text} {details : List Text}

/-- The source is told something, and what it is told is not hidden by a collision of its output. -/
def ReportsDuplicate (run : Run) (md : Metadata) (source : Text) (details : List Text) : Prop :=
  (md.claimants run.options.suffix (run.output source)).length < 2 ∧ details ≠ [] ∧
    details = Clash.messages run.options.globalPrefix md.sites source

/-- A source that is delivered is not reported as a duplicate. -/
theorem not_duplicate_deliver (run : Run) (t : FileTree) (a : Artifact) (content source : Text)
    (details : List Text) :
    .duplicate source details ∉ (run.deliver t a content).2.failures := by
  obtain ⟨_, -, _, _, hdelivery, -, hfail, -⟩ := run.deliver_cases t a content
  rw [hfail]
  cases hdelivery <;> simp

/-- A source without messages is not reported as a duplicate, whatever else becomes of it. -/
theorem not_duplicate_of_messages_eq_nil {f : Text × List TypeRecord}
    (h : Clash.messages run.options.globalPrefix md.sites f.1 = []) :
    .duplicate source details ∉ (run.emitSource md t f.1 f.2).2.failures := by
  rw [emitSource_eq]
  cases hv : run.verdict md f with
  | ok content => exact run.not_duplicate_deliver t _ content source details
  | error e =>
    unfold verdict at hv
    rw [h] at hv
    split at hv
    · rw [← Except.error.inj hv]
      exact fun hmem => absurd (List.mem_singleton.mp hmem) (by simp)
    · rw [if_neg (by decide)] at hv
      split at hv
      · rw [← Except.error.inj hv]
        exact fun hmem => absurd (List.mem_singleton.mp hmem) (by simp)
      · exact absurd hv (by simp)

theorem duplicate_mem_failures_emitSource_iff {f : Text × List TypeRecord} :
    .duplicate source details ∈ (run.emitSource md t f.1 f.2).2.failures ↔
      source = f.1 ∧ run.ReportsDuplicate md f.1 details := by
  by_cases hmessages : Clash.messages run.options.globalPrefix md.sites f.1 = []
  · refine iff_of_false (not_duplicate_of_messages_eq_nil hmessages) ?_
    rintro ⟨-, -, hne, hdetails⟩
    exact hne (hdetails.trans hmessages)
  · by_cases hclaim : 2 ≤ (md.claimants run.options.suffix (run.output f.1)).length
    · have hverdict : run.verdict md f = .error (refuse (run.artifact f [] .collision)
          (.collision (run.output f.1) (md.claimants run.options.suffix (run.output f.1)))) :=
        if_pos hclaim
      rw [emitSource_of_error hverdict]
      refine iff_of_false (fun hmem => absurd (List.mem_singleton.mp hmem) (by simp)) ?_
      exact fun h => absurd h.2.1 (Nat.not_lt.mpr hclaim)
    · have hverdict : run.verdict md f = .error (refuse (run.artifact f [] .duplicate)
          (.duplicate f.1 (Clash.messages run.options.globalPrefix md.sites f.1))) :=
        (if_neg hclaim).trans (if_pos (by simpa using hmessages))
      rw [emitSource_of_error hverdict]
      refine List.mem_singleton.trans ?_
      rw [Failure.duplicate.injEq]
      refine and_congr_right fun _ => ?_
      constructor
      · rintro rfl
        exact ⟨Nat.lt_of_not_le hclaim, hmessages, rfl⟩
      · exact fun h => h.2.2

theorem duplicate_mem_failures_emitSources_iff {files : List (Text × List TypeRecord)} :
    ∀ {t : FileTree}, .duplicate source details ∈ (run.emitSources md t files).2.failures ↔
      source ∈ files.map Prod.fst ∧ run.ReportsDuplicate md source details := by
  induction files with
  | nil => exact iff_of_false List.not_mem_nil fun h => absurd h.1 List.not_mem_nil
  | cons f files ih =>
    intro t
    rw [emitSources_cons, Emission.failures_append, List.mem_append,
      duplicate_mem_failures_emitSource_iff, ih, List.map_cons, List.mem_cons, or_and_right]
    refine or_congr_left (and_congr_right ?_)
    rintro rfl
    rfl

/-- A run reports those sources as duplicates that are told something, each with its messages. -/
theorem duplicate_mem_failures_emit_iff :
    .duplicate source details ∈ (run.emit t md).2.failures ↔
      source ∈ md.paths ∧ run.ReportsDuplicate md source details := by
  rw [emit_eq]
  refine List.mem_append.trans ?_
  rw [duplicate_mem_failures_emitSources_iff]
  refine or_iff_left fun h => ?_
  rw [failures_orphans] at h
  split at h
  · obtain ⟨p, -, hp⟩ := List.mem_map.mp h
    exact absurd hp (by simp)
  · exact absurd h List.not_mem_nil

/-- **Duplicates are reported in the same way in every run.**  In whatever orders the groups by
name, the groups by variable and the sources with messages are visited, each source is left with the
same list of messages.  These are the messages by which a run decides, and the duplicates that it
reports are the sources with messages whose outputs do not collide, each with just this list. -/
theorem duplicates_in_any_order (run : Run) (md : Metadata)
    (v v' : Clash.Visit run.options.globalPrefix md.sites) (source : Text) :
    v.duplicates.lookup source = v'.duplicates.lookup source ∧
      (v.duplicates.lookup source).getD [] =
        Clash.messages run.options.globalPrefix md.sites source ∧
      ∀ (t : FileTree) (details : List Text),
        .duplicate source details ∈ (run.emit t md).2.failures ↔
          source ∈ md.paths ∧
            (md.claimants run.options.suffix (run.output source)).length < 2 ∧
            v.duplicates.lookup source = some details := by
  rw [v.lookup_duplicates, v'.lookup_duplicates]
  refine ⟨rfl, ?_, fun t details => ?_⟩
  · split
    · next h => exact h.symm
    · rfl
  · rw [duplicate_mem_failures_emit_iff, ReportsDuplicate]
    refine and_congr_right fun _ => and_congr_right fun _ => ?_
    split
    · next h => simp [h]
    · next h =>
      rw [Option.some.injEq]
      constructor
      · exact fun hdetails => hdetails.2.symm
      · rintro rfl
        exact ⟨h, rfl⟩

/-- Files that share names and variables in more than one way. -/
def entangledFiles : List (Text × List TypeRecord) :=
  [(lit "a.h", [{ name := lit "n::C", line := 2, members := [] },
      { name := lit "D", line := 4, members := [] }]),
    (lit "b.h", [{ name := lit "n__C", line := 2, members := [] },
      { name := lit "D", line := 4, members := [] }]),
    (lit "c.h", [{ name := lit "n__C", line := 2, members := [] }])]

/-- The second file takes part in three groups that clash, and is told so from either end. -/
theorem duplicates_of_entangledFiles :
    let run := standardRun .dryRun
    let md := (Metadata.empty (lit ".")).addAll entangledFiles
    let v := Clash.Visit.inOrder run.options.globalPrefix md.sites
    let v' := Clash.Visit.backwards run.options.globalPrefix md.sites
    v.byName ≠ v'.byName ∧
      v.duplicates.lookup (lit "b.h") = v'.duplicates.lookup (lit "b.h") ∧
      ((v'.duplicates.lookup (lit "b.h")).getD []).length = 3 := by
  intro run md v v'
  obtain ⟨heq, hmessages, -⟩ := duplicates_in_any_order run md v v' (lit "b.h")
  refine ⟨by decide +kernel, heq, ?_⟩
  rw [← heq, hmessages, Clash.messages, Clash.messagesInOrder, Text.sort, List.length_mergeSort]
  decide +kernel

end Run

end ReflectGen

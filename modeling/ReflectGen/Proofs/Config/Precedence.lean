import Mathlib.Data.List.Basic
import ReflectGen.Program

/-!
# Which configuration file counts

Configuration is read from several files, and more than one of them may set the same key.  Here it
is worked out which of them counts, and when that is the file which the user names.

## The order of files

The files are read format by format, and within a format the user's file comes first.  A key has
the value of the *last* file that sets it.  So the user's file can be outdone by the other files of
its own format and by all files of the formats behind it: these are its rivals (`Call.rivals`).
Files of the formats in front cannot outdo it.  The user's file counts as long as no rival sets the
key, and otherwise the last rival that does.

* `ConfigFile.select_append`: a later file that says something outdoes all earlier ones.
* `Call.userFile?`, `Call.rivals`: the file that the user names, and those that are read behind it.
* `Call.exists_front_of_configFiles`: where the user's file stands among all files.
* `Values.lookup_configured`: what the files give to a flag.
* `Call.effective?`: the settings in effect, with which a call runs its command
  (`Call.run_of_effective?`).
* `Call.value_of_userConfig`: the value of a flag that the user's file sets.
-/

namespace ReflectGen

/-! ## Several files -/

namespace ConfigFile

variable (command : List Text) (flag : Text)

/-- Files that are read later come first. -/
theorem select_append (front back : List ConfigFile) :
    select (front ++ back) command flag =
      (select back command flag).or (select front command flag) := by
  rw [select, select, select, List.reverse_append, List.findSome?_append]

theorem select_singleton (f : ConfigFile) : select [f] command flag = f.lookup command flag := by
  rw [select, List.reverse_singleton, List.findSome?_singleton]

theorem select_eq_none_iff {files : List ConfigFile} :
    select files command flag = none ↔ ∀ f ∈ files, f.lookup command flag = none := by
  rw [select, List.findSome?_eq_none_iff]
  simp only [List.mem_reverse]

end ConfigFile

namespace Candidates

/-- The format of the file that the user names. -/
def userFormat (path : Text) : Format :=
  let e := Path.extension path
  if e == lit ".yaml" || e == lit ".yml" then .yaml
  else if e == lit ".toml" then .toml
  else .json

/-- The candidates of a format. -/
def ofFormat (cs : Candidates) : Format → List Text
  | .json => cs.json
  | .yaml => cs.yaml
  | .toml => cs.toml

/-- The user's file stands in front of the others of its format. -/
theorem ofFormat_all {path : Text} (hne : path ≠ []) (workdir : Text) (u : UserDirectories)
    (format : Format) :
    (all path workdir u).ofFormat format =
      (if format = userFormat path then [path] else []) ++ (all [] workdir u).ofFormat format := by
  have hall : all path workdir u = append (ofUser path) (all [] workdir u) := rfl
  have hnotEmpty : ¬ path.isEmpty = true := by simpa using hne
  rw [hall, ofUser, if_neg hnotEmpty, userFormat]
  dsimp only
  split
  · cases format <;> rfl
  · split <;> cases format <;> rfl

end Candidates

namespace Call

variable {c : Call} {t : FileTree} {around : Surroundings}

theorem loadFiles_of_stat {format : Format} {path : Text} {paths : List Text}
    {found : Location × Entry} {files : List ConfigFile}
    (hstat : t.stat (around.absolute path) = .ok found)
    (h : loadFiles around t format (path :: paths) = some files) :
    ∃ f rest, loadFile t format (around.absolute path) = some f ∧
      loadFiles around t format paths = some rest ∧ files = f :: rest := by
  rw [loadFiles, hstat] at h
  dsimp only at h
  split at h
  · exact absurd h (by simp)
  · next f hload =>
    obtain ⟨rest, hrest, heq⟩ := Option.map_eq_some_iff.mp h
    exact ⟨f, rest, hload, hrest, heq.symm⟩

/-- The file that the user names. -/
def userFile? (c : Call) (t : FileTree) : Option ConfigFile :=
  loadFile t (Candidates.userFormat c.userConfig) ((c.surroundings t).absolute c.userConfig)

/-- The candidates other than the file that the user names. -/
def otherCandidates (c : Call) (t : FileTree) : Candidates :=
  Candidates.all [] t.workdirPath
    { home := c.variableText "HOME", configHome := c.variableText "XDG_CONFIG_HOME" }

/-- The other files of a format. -/
def others (c : Call) (t : FileTree) (format : Format) : List ConfigFile :=
  (loadFiles (c.surroundings t) t format ((c.otherCandidates t).ofFormat format)).getD []

/-- The files that are read behind the one that the user names: the others of its format and all of
the formats behind. -/
def rivals (c : Call) (t : FileTree) : List ConfigFile :=
  match Candidates.userFormat c.userConfig with
  | .json => c.others t .json ++ c.others t .yaml ++ c.others t .toml
  | .yaml => c.others t .yaml ++ c.others t .toml
  | .toml => c.others t .toml

theorem loadFiles_others {format : Format} {files : List ConfigFile}
    (h : loadFiles (c.surroundings t) t format ((c.otherCandidates t).ofFormat format) =
      some files) : files = c.others t format := by
  rw [others, h]
  rfl

/-- All files are those of the three formats in a row. -/
theorem configFiles_eq_some {files : List ConfigFile} (h : c.configFiles t = some files) :
    ∃ json yaml toml, files = json ++ yaml ++ toml ∧
      loadFiles (c.surroundings t) t .json ((c.candidates t).ofFormat .json) = some json ∧
      loadFiles (c.surroundings t) t .yaml ((c.candidates t).ofFormat .yaml) = some yaml ∧
      loadFiles (c.surroundings t) t .toml ((c.candidates t).ofFormat .toml) = some toml := by
  unfold configFiles at h
  simp only [Option.bind_eq_bind, Option.bind_eq_some_iff, Option.some.injEq] at h
  obtain ⟨json, hjson, yaml, hyaml, toml, htoml, rfl⟩ := h
  exact ⟨json, yaml, toml, rfl, hjson, hyaml, htoml⟩

/-- The files of a format, with the user's file in front of its own. -/
theorem loadFiles_candidates {found : Location × Entry} {format : Format} {files : List ConfigFile}
    (hnamed : c.userConfig ≠ [])
    (hexists : t.stat ((c.surroundings t).absolute c.userConfig) = .ok found)
    (h : loadFiles (c.surroundings t) t format ((c.candidates t).ofFormat format) = some files) :
    if format = Candidates.userFormat c.userConfig then
      ∃ user, c.userFile? t = some user ∧ files = user :: c.others t format
    else files = c.others t format := by
  rw [candidates, Candidates.ofFormat_all hnamed] at h
  split
  · next hformat =>
    rw [if_pos hformat, List.singleton_append] at h
    obtain ⟨user, rest, hload, hrest, rfl⟩ := loadFiles_of_stat hexists h
    rw [hformat] at hload
    exact ⟨user, hload, by rw [loadFiles_others hrest]⟩
  · next hformat =>
    rw [if_neg hformat, List.nil_append] at h
    exact loadFiles_others h

/-- Where the user's file stands: its rivals are the files behind it. -/
theorem exists_front_of_configFiles {found : Location × Entry} {files : List ConfigFile}
    (hfiles : c.configFiles t = some files) (hnamed : c.userConfig ≠ [])
    (hexists : t.stat ((c.surroundings t).absolute c.userConfig) = .ok found) :
    ∃ user front, c.userFile? t = some user ∧ files = front ++ [user] ++ c.rivals t := by
  obtain ⟨json, yaml, toml, rfl, hjson, hyaml, htoml⟩ := configFiles_eq_some hfiles
  have hjson := loadFiles_candidates hnamed hexists hjson
  have hyaml := loadFiles_candidates hnamed hexists hyaml
  have htoml := loadFiles_candidates hnamed hexists htoml
  rw [rivals]
  -- the formats are read in a fixed order, and the user's file is the first of its own
  cases hformat : Candidates.userFormat c.userConfig with
  | json =>
    simp only [hformat, if_true, reduceCtorEq, if_false] at hjson hyaml htoml
    obtain ⟨user, huser, rfl⟩ := hjson
    exact ⟨user, [], huser, by simp [hyaml, htoml]⟩
  | yaml =>
    simp only [hformat, if_true, reduceCtorEq, if_false] at hjson hyaml htoml
    obtain ⟨user, huser, rfl⟩ := hyaml
    exact ⟨user, json, huser, by simp [htoml]⟩
  | toml =>
    simp only [hformat, if_true, reduceCtorEq, if_false] at hjson hyaml htoml
    obtain ⟨user, huser, rfl⟩ := htoml
    exact ⟨user, json ++ yaml, huser, by simp⟩

end Call

/-! ## The settings in effect -/

namespace Values

variable {around : Surroundings} {files : List ConfigFile} {i : Invocation}

/-- What one flag adds: nothing, if the command line gives it or no file sets it, or else the value
that the files select. -/
theorem configured_cons {g : Flag} {flags : List Flag} {vs : Values}
    (h : configured around files i (g :: flags) = .ok vs) :
    (((i.given.lookup g).isSome ∨ ConfigFile.select files g.owner.path g.name = none) ∧
      configured around files i flags = .ok vs) ∨
    ∃ w value rest, ConfigFile.select files g.owner.path g.name = some w ∧
      g.setting.ofConfig around w = .ok value ∧ configured around files i flags = .ok rest ∧
      vs = (g, value) :: rest := by
  rw [configured] at h
  split at h
  · next hgiven => exact .inl ⟨.inl hgiven, h⟩
  · split at h
    · next hselect => exact .inl ⟨.inr hselect, h⟩
    · next w hselect =>
      split at h
      · exact absurd h (by simp)
      · next value hvalue =>
        cases hrest : configured around files i flags with
        | error m =>
          rw [hrest] at h
          exact absurd h (by simp [Except.map])
        | ok rest =>
          rw [hrest] at h
          exact .inr ⟨w, value, rest, hselect, hvalue, rfl, (Except.ok.inj h).symm⟩

/-- A flag that the command line leaves alone has the value that the files select. -/
theorem lookup_configured {f : Flag} {w : ConfigValue} (hgiven : i.given.lookup f = none)
    (hselect : ConfigFile.select files f.owner.path f.name = some w) {flags : List Flag} :
    ∀ {vs : Values}, f ∈ flags → configured around files i flags = .ok vs →
      ∃ value, f.setting.ofConfig around w = .ok value ∧ vs.lookup f = some value := by
  induction flags with
  | nil => exact fun hf _ => absurd hf List.not_mem_nil
  | cons g flags ih =>
    intro vs hf h
    rcases configured_cons h with ⟨hsilent, hrest⟩ | ⟨w', value, rest, hselect', hvalue, hrest, rfl⟩
    · -- `g` is given or set nowhere, so it is another flag
      have hne : f ≠ g := by
        rintro rfl
        simp [hgiven, hselect] at hsilent
      exact ih ((List.mem_cons.mp hf).resolve_left hne) hrest
    · rw [List.lookup_cons]
      by_cases heq : f = g
      · subst heq
        obtain rfl := Option.some.inj (hselect.symm.trans hselect')
        exact ⟨value, hvalue, by simp⟩
      · rw [beq_eq_false_iff_ne.mpr heq]
        exact ih ((List.mem_cons.mp hf).resolve_left heq) hrest

end Values

namespace Call

variable {c : Call} {t : FileTree} {e : Effective}

/-- The settings that are in effect for a call; none if the files, the words or the environment
cannot be used. -/
def effective? (c : Call) (t : FileTree) : Option Effective :=
  match c.configFiles t with
  | none => none
  | some files =>
    match Invocation.read (c.surroundings t) c.words,
      Values.initial (c.surroundings t) c.environment Flag.all with
    | .ok i, .ok initial =>
      match Values.configured (c.surroundings t) files i
        ((Values.trail i.command).flatMap Flag.own) with
      | .ok configured => some { invocation := i, layers := [i.given, configured, initial] }
      | .error _ => none
    | _, _ => none

/-- What the settings in effect are made of. -/
theorem effective?_eq_some (h : c.effective? t = some e) :
    ∃ files initial configured, c.configFiles t = some files ∧
      Invocation.read (c.surroundings t) c.words = .ok e.invocation ∧
      Values.initial (c.surroundings t) c.environment Flag.all = .ok initial ∧
      Values.configured (c.surroundings t) files e.invocation
        ((Values.trail e.invocation.command).flatMap Flag.own) = .ok configured ∧
      e.layers = [e.invocation.given, configured, initial] := by
  unfold effective? at h
  split at h
  · exact absurd h (by simp)
  · next files hfiles =>
    split at h
    · next i initial hread hinitial =>
      split at h
      · next configured hconfigured =>
        rw [← Option.some.inj h]
        exact ⟨files, initial, configured, hfiles, hread, hinitial, hconfigured, rfl⟩
      · exact absurd h (by simp)
    · exact absurd h (by simp)

/-- A call runs its command with the settings in effect, unless help is asked for, a word is not
allowed or an argument is missing. -/
theorem run_of_effective? (h : c.effective? t = some e)
    (hhelp : e.invocation.asksForHelp = false)
    (hvalid : Values.invalid? e.layers e.invocation = none)
    (hcomplete : Values.missing? e.invocation = none) : c.run t = e.perform c.version t := by
  obtain ⟨files, initial, configured, hfiles, hread, hinitial, hconfigured, hlayers⟩ :=
    effective?_eq_some h
  unfold run
  simp only [hfiles, hread, hhelp, hinitial, hconfigured, ← hlayers, hvalid, hcomplete,
    Bool.false_eq_true, if_false]

/-- The value of a flag that is left alone on the command line is what the files select. -/
theorem value_of_select {files : List ConfigFile} {f : Flag} {w : ConfigValue}
    (h : c.effective? t = some e) (hfiles : c.configFiles t = some files)
    (hf : f ∈ (Values.trail e.invocation.command).flatMap Flag.own)
    (hgiven : e.invocation.given.lookup f = none)
    (hselect : ConfigFile.select files f.owner.path f.name = some w) :
    f.setting.ofConfig (c.surroundings t) w = .ok (Values.value e.layers f) := by
  obtain ⟨files', initial, configured, hfiles', -, -, hconfigured, hlayers⟩ := effective?_eq_some h
  obtain rfl := Option.some.inj (hfiles.symm.trans hfiles')
  obtain ⟨value, hvalue, hlookup⟩ := Values.lookup_configured hgiven hselect hf hconfigured
  have heffective : Values.value e.layers f = value := by
    rw [hlayers, Values.value, List.findSome?_cons, hgiven]
    dsimp only
    rw [List.findSome?_cons, hlookup]
    rfl
  rw [heffective]
  exact hvalue

/-- **The file that the user names counts as long as no rival sets the key.**  Take a call that gets
as far as its settings, and a flag of its command that the command line leaves alone and the user's
file sets.  If no file that is read behind the user's sets the flag, its value is that of the user's
file; otherwise it is that of the last of these files which does.  With these settings the command
is run, unless help is asked for, a word is not allowed or an argument is missing. -/
theorem value_of_userConfig (c : Call) (t : FileTree) (e : Effective) (user : ConfigFile)
    (found : Location × Entry) (f : Flag) (v : ConfigValue) (heffective : c.effective? t = some e)
    (hnamed : c.userConfig ≠ [])
    (hexists : t.stat ((c.surroundings t).absolute c.userConfig) = .ok found)
    (huser : c.userFile? t = some user)
    (hf : f ∈ (Values.trail e.invocation.command).flatMap Flag.own)
    (hgiven : e.invocation.given.lookup f = none)
    (hsets : user.lookup f.owner.path f.name = some v) :
    ((∀ rival ∈ c.rivals t, rival.lookup f.owner.path f.name = none) →
      f.setting.ofConfig (c.surroundings t) v = .ok (Values.value e.layers f)) ∧
    (∀ w, ConfigFile.select (c.rivals t) f.owner.path f.name = some w →
      f.setting.ofConfig (c.surroundings t) w = .ok (Values.value e.layers f)) ∧
    (e.invocation.asksForHelp = false → Values.invalid? e.layers e.invocation = none →
      Values.missing? e.invocation = none → c.run t = e.perform c.version t) := by
  obtain ⟨files, -, -, hfiles, -⟩ := effective?_eq_some heffective
  obtain ⟨user', front, huser', hparts⟩ := exists_front_of_configFiles hfiles hnamed hexists
  obtain rfl := Option.some.inj (huser.symm.trans huser')
  have hselect : ConfigFile.select files f.owner.path f.name =
      (ConfigFile.select (c.rivals t) f.owner.path f.name).or (some v) := by
    rw [hparts, ConfigFile.select_append, ConfigFile.select_append, ConfigFile.select_singleton,
      hsets, Option.some_or]
  refine ⟨fun hsilent => ?_, fun w hw => ?_, run_of_effective? heffective⟩
  · rw [(ConfigFile.select_eq_none_iff _ _).mpr hsilent, Option.none_or] at hselect
    exact value_of_select heffective hfiles hf hgiven hselect
  · rw [hw, Option.some_or] at hselect
    exact value_of_select heffective hfiles hf hgiven hselect

/-- The suffix that a printed record set gives to outputs. -/
def suffixFlag : Flag where
  owner := .scan
  name := lit "suffix"
  setting := Settings.text "Suffix" "_reflection.cpp" none

/-- A call that names a configuration file. -/
def namingCall : Call where
  words := [lit "--config=user.json", lit "scan", lit "src"]
  environment := []
  home := lit "/"

/-- The text of the user's file. -/
def userText : Text := lit "\x7b\"suffix\": \"_user.cpp\"\x7d"

/-- A directory with the file that the user names and one that belongs to the directory. -/
def configTree (ofDirectory : Text) : FileTree where
  entries := [
    ([lit "user.json"], .file userText),
    ([lit ".vxrefl.json"], .file ofDirectory)]
  workdir := []

/-- The directory, where the file that belongs to it sets another key. -/
def agreeingTree : FileTree := configTree (lit "\x7b\"format\": \"yaml\"\x7d")

/-- The directory, where the file that belongs to it sets the same key. -/
def disputedTree : FileTree := configTree (lit "\x7b\"suffix\": \"_local.cpp\"\x7d")

/-- The value that the user's file gives to a flag. -/
def userValue? (c : Call) (t : FileTree) (f : Flag) : Option SettingValue :=
  ((c.userFile? t).bind fun user => user.lookup f.owner.path f.name).bind fun v =>
    (f.setting.ofConfig (c.surroundings t) v).toOption

theorem userValue?_eq_some {f : Flag} {value : SettingValue} (h : c.userValue? t f = some value) :
    ∃ user v, c.userFile? t = some user ∧ user.lookup f.owner.path f.name = some v ∧
      f.setting.ofConfig (c.surroundings t) v = .ok value := by
  unfold userValue? at h
  obtain ⟨v, hv, hvalue⟩ := Option.bind_eq_some_iff.mp h
  obtain ⟨user, huser, hlookup⟩ := Option.bind_eq_some_iff.mp hv
  refine ⟨user, v, huser, hlookup, ?_⟩
  cases hconfig : f.setting.ofConfig (c.surroundings t) v with
  | error e =>
    rw [hconfig] at hvalue
    exact absurd hvalue (by simp [Except.toOption])
  | ok value' =>
    rw [hconfig] at hvalue
    exact congrArg Except.ok (Option.some.inj hvalue)

/-- The file of the directory sets another key, so the suffix is the one that the user wants. -/
theorem namingCall_value_of_userConfig :
    ∃ e user v, namingCall.effective? agreeingTree = some e ∧ namingCall.userConfig ≠ [] ∧
      agreeingTree.stat ((namingCall.surroundings agreeingTree).absolute namingCall.userConfig) =
        .ok ([lit "user.json"], .file userText) ∧
      namingCall.userFile? agreeingTree = some user ∧
      suffixFlag ∈ (Values.trail e.invocation.command).flatMap Flag.own ∧
      e.invocation.given.lookup suffixFlag = none ∧
      user.lookup suffixFlag.owner.path suffixFlag.name = some v ∧
      (namingCall.rivals agreeingTree).length = 1 ∧
      Values.value e.layers suffixFlag = .text (lit "_user.cpp") := by
  have hsettled : (namingCall.effective? agreeingTree).map (fun e =>
      (e.invocation.command, e.invocation.given.lookup suffixFlag)) = some (.scan, none) := by
    decide +kernel
  have hwanted : namingCall.userValue? agreeingTree suffixFlag =
      some (.text (lit "_user.cpp")) := by
    decide +kernel
  obtain ⟨e, heffective, hinvocation⟩ := Option.map_eq_some_iff.mp hsettled
  obtain ⟨hcommand, hgiven⟩ := Prod.mk.inj hinvocation
  obtain ⟨user, v, huser, hsets, hword⟩ := userValue?_eq_some hwanted
  have hnamed : namingCall.userConfig ≠ [] := by decide +kernel
  have hexists : agreeingTree.stat
      ((namingCall.surroundings agreeingTree).absolute namingCall.userConfig) =
        .ok ([lit "user.json"], .file userText) := by
    decide +kernel
  have hf : suffixFlag ∈ (Values.trail e.invocation.command).flatMap Flag.own := by
    rw [hcommand]
    decide +kernel
  have hsilent : (namingCall.rivals agreeingTree).all (fun rival =>
      (rival.lookup suffixFlag.owner.path suffixFlag.name).isNone) = true := by
    decide +kernel
  obtain ⟨hvalue, -⟩ := value_of_userConfig namingCall agreeingTree e user _ suffixFlag v
    heffective hnamed hexists huser hf hgiven hsets
  refine ⟨e, user, v, heffective, hnamed, hexists, huser, hf, hgiven, hsets, by decide +kernel, ?_⟩
  refine (Except.ok.inj (hword.symm.trans (hvalue fun rival hrival => ?_))).symm
  exact Option.isNone_iff_eq_none.mp (List.all_eq_true.mp hsilent rival hrival)

/-- The file of the directory sets the same key, and the user's file does not count. -/
theorem disputedTree_overrules_userConfig :
    ∃ e user v, namingCall.effective? disputedTree = some e ∧
      namingCall.userFile? disputedTree = some user ∧
      suffixFlag ∈ (Values.trail e.invocation.command).flatMap Flag.own ∧
      e.invocation.given.lookup suffixFlag = none ∧
      user.lookup suffixFlag.owner.path suffixFlag.name = some v ∧
      suffixFlag.setting.ofConfig (namingCall.surroundings disputedTree) v =
        .ok (.text (lit "_user.cpp")) ∧
      Values.value e.layers suffixFlag = .text (lit "_local.cpp") ∧
      suffixFlag.setting.ofConfig (namingCall.surroundings disputedTree) v ≠
        .ok (Values.value e.layers suffixFlag) := by
  have hsettled : (namingCall.effective? disputedTree).map (fun e =>
      (e.invocation.command, e.invocation.given.lookup suffixFlag,
        Values.value e.layers suffixFlag)) = some (.scan, none, .text (lit "_local.cpp")) := by
    decide +kernel
  have hwanted : namingCall.userValue? disputedTree suffixFlag =
      some (.text (lit "_user.cpp")) := by
    decide +kernel
  obtain ⟨e, heffective, hinvocation⟩ := Option.map_eq_some_iff.mp hsettled
  simp only [Prod.mk.injEq] at hinvocation
  obtain ⟨hcommand, hgiven, hvalue⟩ := hinvocation
  obtain ⟨user, v, huser, hsets, hword⟩ := userValue?_eq_some hwanted
  refine ⟨e, user, v, heffective, huser, ?_, hgiven, hsets, hword, hvalue, ?_⟩
  · rw [hcommand]
    decide +kernel
  · rw [hword, hvalue]
    intro heq
    exact absurd (Except.ok.inj heq) (by decide +kernel)

end Call

end ReflectGen

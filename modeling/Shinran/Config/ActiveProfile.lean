/-
  Shinran.Config.ActiveProfile
  ────────────────────────────
  **WHICH PROFILE IS ACTIVE** (`Filters::is_match`, `ProfileStore::active_config`).

  The first custom profile whose filters match the app is active, and the
  default profile if none is.  The filters of the default profile are never
  asked.  But a custom profile inherits what it leaves open, filters included,
  before its filters are compiled, so the default filters count after all.

    • `ProfileStore.activeConfig`     — the profile that is active for an app,
    • `LoadedWith`                    — the profiles of a directory, under a
                                        given default configuration,
    • `LoadedWith.activeConfig_eq`    — the choice, from the filters that the
                                        custom files set themselves,
    • `selectsSame_iff`               — the default filters make no difference
                                        if and only if the first custom file
                                        that lets the app pass sets all three.
-/
import Mathlib.Data.List.Infix
import Shinran.Config.Load

namespace Shinran

/-! ## §1. Filters. -/

structure AppProperties where
  title : Option String := none
  class_ : Option String := none
  exec : Option String := none
  deriving DecidableEq, Repr

section Filters

/- `Regex::is_match`, of a regular expression that compiles. -/
variable (regexIsMatch : String → String → Bool)

/-- One filter: what the app does not tell does not match. -/
def fieldIsMatch (regex property : Option String) : Bool :=
  match regex with
  | some regex =>
      match property with
      | some property => regexIsMatch regex property
      | none => false
  | none => true

/-- All filters that are set match the app. -/
def Filters.passes (filter : Filters) (app : AppProperties) : Bool :=
  fieldIsMatch regexIsMatch filter.exec app.exec
    && fieldIsMatch regexIsMatch filter.title app.title
    && fieldIsMatch regexIsMatch filter.class_ app.class_

/-- `Filters::is_match`. -/
def Filters.isMatch (filter : Filters) (app : AppProperties) : Bool :=
  if filter.title.isNone && filter.exec.isNone && filter.class_.isNone then false
  else filter.passes regexIsMatch app

/-- `ProfileStore::active_config`. -/
def ProfileStore.activeConfig (store : ProfileStore) (app : AppProperties) : ProfileFile :=
  (store.customProfiles.find? fun custom => custom.filter.isMatch regexIsMatch app).getD
    store.defaultProfile

end Filters

/-- The filters that a configuration sets. -/
def ParsedConfig.filters (config : ParsedConfig) : Filters :=
  ⟨config.filterTitle, config.filterClass, config.filterExec⟩

/-- The configuration with other filters. -/
def ParsedConfig.withFilters (config : ParsedConfig) (filters : Filters) : ParsedConfig :=
  { config with
    filterTitle := filters.title
    filterClass := filters.class_
    filterExec := filters.exec }

/-- The filters, the open ones filled in. -/
def Filters.or (filters defaults : Filters) : Filters :=
  ⟨filters.title.or defaults.title, filters.class_.or defaults.class_,
    filters.exec.or defaults.exec⟩

/-- All three filters are set. -/
def Filters.Complete (filters : Filters) : Prop :=
  filters.title.isSome ∧ filters.class_.isSome ∧ filters.exec.isSome

@[simp] theorem ParsedConfig.filters_withFilters (config : ParsedConfig) (filters : Filters) :
    (config.withFilters filters).filters = filters := rfl

@[simp] theorem filters_inherit (child parent : ParsedConfig) :
    (inherit child parent).filters = child.filters.or parent.filters := rfl

theorem Filters.Complete.or_eq {filters : Filters} (h : filters.Complete) (defaults : Filters) :
    filters.or defaults = filters := by
  obtain ⟨title, class_, exec⟩ := filters
  obtain ⟨htitle, hclass, hexec⟩ := h
  simp only [Filters.or, Filters.mk.injEq]
  exact ⟨Option.or_of_isSome htitle, Option.or_of_isSome hclass, Option.or_of_isSome hexec⟩

/-! ### When filters match, with what is inherited. -/

section Inherited

variable {regexIsMatch : String → String → Bool} {filters : Filters} {app : AppProperties}

theorem fieldIsMatch_iff {regex property : Option String} :
    fieldIsMatch regexIsMatch regex property ↔
      ∀ pattern, regex = some pattern → ∃ text, property = some text
        ∧ regexIsMatch pattern text := by
  cases regex <;> cases property <;> simp [fieldIsMatch]

theorem Filters.isMatch_iff :
    filters.isMatch regexIsMatch app ↔ filters ≠ {} ∧ filters.passes regexIsMatch app := by
  obtain ⟨title, class_, exec⟩ := filters
  cases title <;> cases class_ <;> cases exec <;> simp [Filters.isMatch]

/-- A filter that was inherited only adds a condition. -/
theorem fieldIsMatch_of_or {regex default property : Option String}
    (h : fieldIsMatch regexIsMatch (regex.or default) property) :
    fieldIsMatch regexIsMatch regex property := by
  cases regex with
  | none => rfl
  | some regex => exact h

theorem Filters.passes_of_or {defaults : Filters}
    (h : (filters.or defaults).passes regexIsMatch app) : filters.passes regexIsMatch app := by
  simp only [Filters.passes, Bool.and_eq_true] at h ⊢
  obtain ⟨⟨hexec, htitle⟩, hclass⟩ := h
  exact ⟨⟨fieldIsMatch_of_or hexec, fieldIsMatch_of_or htitle⟩, fieldIsMatch_of_or hclass⟩

/-- An app that tells nothing about itself matches no filters. -/
theorem Filters.not_isMatch_empty : ¬ filters.isMatch regexIsMatch {} := by
  obtain ⟨title, class_, exec⟩ := filters
  cases title <;> cases class_ <;> cases exec <;>
    simp [Filters.isMatch, Filters.passes, fieldIsMatch]

theorem Filters.Complete.ne_empty (h : filters.Complete) : filters ≠ {} := by
  rintro rfl
  simp [Filters.Complete] at h

/-- Complete filters match as they do by themselves. -/
theorem Filters.Complete.isMatch_or (h : filters.Complete) (defaults : Filters) :
    (filters.or defaults).isMatch regexIsMatch app ↔ filters.passes regexIsMatch app := by
  rw [h.or_eq, Filters.isMatch_iff]
  exact and_iff_right h.ne_empty

/-- An open filter that inherits an expression that matches nothing stops the app. -/
theorem Filters.not_isMatch_or_never {never : String} (hnever : ∀ text, ¬ regexIsMatch never text)
    (h : ¬ filters.Complete) :
    ¬ (filters.or ⟨some never, some never, some never⟩).isMatch regexIsMatch app := by
  have hopen : ∀ property, ¬ fieldIsMatch regexIsMatch (some never) property := by
    intro property hmatch
    obtain ⟨text, _, htext⟩ := fieldIsMatch_iff.mp hmatch never rfl
    exact hnever text htext
  obtain ⟨title, class_, exec⟩ := filters
  rw [Filters.isMatch_iff]
  rintro ⟨_, hpasses⟩
  simp only [Filters.passes, Filters.or, Bool.and_eq_true] at hpasses
  obtain ⟨⟨hexec, htitle⟩, hclass⟩ := hpasses
  -- one of the three is open
  cases title with
  | none => exact hopen _ htitle
  | some title =>
      cases class_ with
      | none => exact hopen _ hclass
      | some class_ =>
          cases exec with
          | none => exact hopen _ hexec
          | some exec => exact h ⟨rfl, rfl, rfl⟩

/-- Filters that let an app pass are made to match it by some default filters. -/
theorem Filters.exists_isMatch_or {always : String} (halways : ∀ text, regexIsMatch always text)
    (happ : app ≠ {}) (h : filters.passes regexIsMatch app) :
    ∃ defaults : Filters, (∀ regex, defaults.title = some regex ∨ defaults.class_ = some regex
        ∨ defaults.exec = some regex → regex = always)
      ∧ (filters.or defaults).isMatch regexIsMatch app := by
  by_cases hempty : filters = {}
  · subst hempty
    -- whatever the app tells about itself can be asked for
    obtain ⟨title, class_, exec⟩ := app
    refine ⟨⟨title.map fun _ => always, class_.map fun _ => always, exec.map fun _ => always⟩,
      ?_, ?_⟩
    · intro regex hregex
      simp only [Option.map_eq_some_iff] at hregex
      obtain ⟨_, _, rfl⟩ | ⟨_, _, rfl⟩ | ⟨_, _, rfl⟩ := hregex <;> rfl
    · cases title <;> cases class_ <;> cases exec <;>
        simp_all [Filters.isMatch, Filters.passes, Filters.or, fieldIsMatch]
  · refine ⟨{}, by simp, ?_⟩
    have hor : filters.or {} = filters := by
      obtain ⟨title, class_, exec⟩ := filters
      simp [Filters.or]
    rw [hor, Filters.isMatch_iff]
    exact ⟨hempty, h⟩

end Inherited

/-! ## §2. The profiles under a default configuration. -/

section Loading

variable {ε : Type} (libs : Libraries ε) (fs : FileSystem) (order : PathOrder)

/-- All filters that are set are regular expressions. -/
def Filters.Valid (filters : Filters) : Prop :=
  ∀ regex, filters.title = some regex ∨ filters.class_ = some regex ∨ filters.exec = some regex →
    libs.compileRegex regex = .ok ()

/-- `LoadedProfileFile::load_from_path`, once the configuration has been read and has inherited. -/
def LoadedProfileFile.ofConfig (sourcePath : PathBuf) (config : ParsedConfig) :
    Except (LoadError ε) LoadedProfileFile := do
  let matchPaths ← (generateMatchPaths libs fs config sourcePath).elim
    (.error .parentResolveFailed) .ok
  let filter ← Except.fromLibrary (compileFilters libs config)
  .ok ⟨config, sourcePath, order.iter matchPaths, filter⟩

/-- The profiles of a directory whose default file holds `config`. -/
structure LoadedProfileStore.LoadedWith (configDir : PathBuf) (config : ParsedConfig)
    (store : LoadedProfileStore) : Prop where
  defaultProfile : LoadedProfileFile.ofConfig libs fs order
    (PathBuf.join configDir "default.yml") config = .ok store.defaultProfile
  customProfiles : store.customProfiles = (customFiles fs order configDir).filterMap
    fun configFile => (LoadedProfileFile.loadFromPath libs fs order configFile
      (some store.defaultProfile)).toOption

/-- The custom files that load, as they would without a default profile. -/
def ownProfiles (configDir : PathBuf) : List LoadedProfileFile :=
  (customFiles fs order configDir).filterMap fun configFile =>
    (LoadedProfileFile.loadFromPath libs fs order configFile none).toOption

variable {libs fs order}

theorem loadFromPath_eq_ofConfig {sourcePath : PathBuf} {parent : Option LoadedProfileFile} :
    LoadedProfileFile.loadFromPath libs fs order sourcePath parent
      = ParsedConfig.load libs fs sourcePath >>= fun config =>
          LoadedProfileFile.ofConfig libs fs order sourcePath
            (parent.elim config fun parent => inherit config parent.content) := rfl

/-- **A load is a load with the default configuration** that the directory holds. -/
theorem LoadedProfileStore.LoadedFrom.loadedWith {configDir : PathBuf}
    {store : LoadedProfileStore} (h : store.LoadedFrom libs fs order configDir) :
    ∃ config, ParsedConfig.load libs fs (PathBuf.join configDir "default.yml") = .ok config
      ∧ store.LoadedWith libs fs order configDir config := by
  have hdefault := h.defaultProfile
  rw [loadFromPath_eq_ofConfig] at hdefault
  cases hconfig : ParsedConfig.load libs fs (PathBuf.join configDir "default.yml") with
  | error err => simp [hconfig, bind, Except.bind] at hdefault
  | ok config =>
      rw [hconfig] at hdefault
      exact ⟨config, rfl, hdefault, h.customProfiles⟩

theorem compileFilters_eq {config : ParsedConfig} (h : config.filters.Valid libs) :
    compileFilters libs config = .ok config.filters := by
  have hcompiles : ∀ regex : Option String,
      (∀ pattern, regex = some pattern → libs.compileRegex pattern = .ok ()) →
        regex.elim (.ok ()) libs.compileRegex = .ok () := by
    intro regex hregex
    cases regex with
    | none => rfl
    | some pattern => exact hregex pattern rfl
  have htitle := hcompiles config.filterTitle fun _ heq => h _ (.inl heq)
  have hclass := hcompiles config.filterClass fun _ heq => h _ (.inr (.inl heq))
  have hexec := hcompiles config.filterExec fun _ heq => h _ (.inr (.inr heq))
  simp only [compileFilters, htitle, hclass, hexec, bind, Except.bind]
  rfl

theorem valid_of_compileFilters {config : ParsedConfig} {filter : Filters}
    (h : compileFilters libs config = .ok filter) : config.filters.Valid libs := by
  simp only [compileFilters, bind, Except.bind] at h
  split at h
  · cases h
  rename_i htitle
  split at h
  · cases h
  rename_i hclass
  split at h
  · cases h
  rename_i hexec
  intro regex hregex
  simp only [ParsedConfig.filters] at hregex
  obtain heq | heq | heq := hregex
  · simpa [heq] using htitle
  · simpa [heq] using hclass
  · simpa [heq] using hexec

theorem Filters.Valid.or_iff {filters defaults : Filters} (h : defaults.Valid libs) :
    (filters.or defaults).Valid libs ↔ filters.Valid libs := by
  constructor
  · intro hor regex hregex
    refine hor regex (hregex.imp (fun h => ?_) (Or.imp (fun h => ?_) fun h => ?_)) <;>
      simp [Filters.or, h]
  · intro hfilters regex hregex
    simp only [Filters.or, Option.or_eq_some_iff] at hregex
    obtain (h' | ⟨_, h'⟩) | (h' | ⟨_, h'⟩) | (h' | ⟨_, h'⟩) := hregex
    · exact hfilters regex (.inl h')
    · exact h regex (.inl h')
    · exact hfilters regex (.inr (.inl h'))
    · exact h regex (.inr (.inl h'))
    · exact hfilters regex (.inr (.inr h'))
    · exact h regex (.inr (.inr h'))

theorem ofConfig_ok_iff {sourcePath : PathBuf} {config : ParsedConfig}
    {profile : LoadedProfileFile} :
    LoadedProfileFile.ofConfig libs fs order sourcePath config = .ok profile
      ↔ config.filters.Valid libs ∧ ∃ matchPaths,
          generateMatchPaths libs fs config sourcePath = some matchPaths
            ∧ profile = ⟨config, sourcePath, order.iter matchPaths, config.filters⟩ := by
  unfold LoadedProfileFile.ofConfig
  constructor
  · intro h
    cases hpaths : generateMatchPaths libs fs config sourcePath with
    | none => simp [hpaths, bind, Except.bind] at h
    | some matchPaths =>
        cases hfilter : compileFilters libs config with
        | error err =>
            simp [hpaths, hfilter, bind, Except.bind, Except.fromLibrary, Except.mapError] at h
        | ok filter =>
            have hvalid := valid_of_compileFilters hfilter
            have hsame := (compileFilters_eq hvalid).symm.trans hfilter
            simp only [hpaths, ← hsame, hfilter, bind, Except.bind, Except.fromLibrary,
              Except.mapError, Option.elim_some, Except.ok.injEq] at h
            refine ⟨hvalid, matchPaths, rfl, ?_⟩
            cases hsame
            exact h.symm
  · rintro ⟨hvalid, matchPaths, hpaths, rfl⟩
    simp [hpaths, compileFilters_eq hvalid, bind, Except.bind, Except.fromLibrary,
      Except.mapError]

/-- Where a file lies decides whether its globs can be expanded. -/
theorem ofConfig_isSome_iff {sourcePath : PathBuf} {config : ParsedConfig} :
    (∃ profile, LoadedProfileFile.ofConfig libs fs order sourcePath config = .ok profile)
      ↔ config.filters.Valid libs ∧ (PathBuf.parent sourcePath).isSome := by
  simp only [ofConfig_ok_iff, ← @generateMatchPaths_isSome _ libs fs config,
    Option.isSome_iff_exists]
  constructor
  · rintro ⟨_, hvalid, matchPaths, hpaths, _⟩
    exact ⟨hvalid, matchPaths, hpaths⟩
  · rintro ⟨hvalid, matchPaths, hpaths⟩
    exact ⟨_, hvalid, matchPaths, hpaths, rfl⟩

/-- **A custom file, under a default profile**: it loads as it would by itself, and its open
filters are those of the default profile. -/
theorem loadFromPath_custom {defaultProfile : LoadedProfileFile}
    (hvalid : defaultProfile.content.filters.Valid libs) (configFile : PathBuf) :
    (LoadedProfileFile.loadFromPath libs fs order configFile (some defaultProfile)).toOption.map
        (fun profile => (profile.sourcePath, profile.filter))
      = (LoadedProfileFile.loadFromPath libs fs order configFile none).toOption.map
          fun profile => (profile.sourcePath,
            profile.filter.or defaultProfile.content.filters) := by
  rw [loadFromPath_eq_ofConfig, loadFromPath_eq_ofConfig]
  cases hconfig : ParsedConfig.load libs fs configFile with
  | error err => rfl
  | ok config =>
      show (LoadedProfileFile.ofConfig libs fs order configFile
          (inherit config defaultProfile.content)).toOption.map _
        = (LoadedProfileFile.ofConfig libs fs order configFile config).toOption.map _
      have hiff : (∃ profile, LoadedProfileFile.ofConfig libs fs order configFile
            (inherit config defaultProfile.content) = .ok profile)
          ↔ ∃ profile, LoadedProfileFile.ofConfig libs fs order configFile config
            = .ok profile := by
        rw [ofConfig_isSome_iff, ofConfig_isSome_iff, filters_inherit, Filters.Valid.or_iff hvalid]
      cases hown : LoadedProfileFile.ofConfig libs fs order configFile config with
      | error err =>
          cases hload : LoadedProfileFile.ofConfig libs fs order configFile
              (inherit config defaultProfile.content) with
          | error err' => rfl
          | ok profile => simp [hown, hload] at hiff
      | ok own =>
          obtain ⟨profile, hload⟩ := hiff.mpr ⟨own, hown⟩
          obtain ⟨_, _, _, rfl⟩ := ofConfig_ok_iff.mp hown
          obtain ⟨_, _, _, rfl⟩ := ofConfig_ok_iff.mp hload
          simp [hload, Except.toOption]

/-- What is in a directory has a parent. -/
theorem parent_join_isSome (dir : PathBuf) {name : PathBuf} {c : Char}
    (hname : name.toList.getLast? = some c) (hc : c ≠ '/') :
    (PathBuf.parent (PathBuf.join dir name)).isSome := by
  have hlast : (PathBuf.join dir name).toList.getLast? = some c := by
    unfold PathBuf.join
    split
    · exact hname
    · split <;> simp [String.toList_append, List.getLast?_append, List.getLast?_cons, hname]
  obtain ⟨chars, hchars⟩ := List.getLast?_eq_some_iff.mp hlast
  have hsplit : (PathBuf.splitName (PathBuf.join dir name)).2 ≠ [] := by
    simp [PathBuf.splitName, hchars, hc]
  unfold PathBuf.parent
  split <;> simp_all

/-- The directory can be loaded with every default configuration that has valid filters. -/
theorem exists_loadedWith {configDir : PathBuf} {config : ParsedConfig}
    (hvalid : config.filters.Valid libs) :
    ∃ store : LoadedProfileStore, store.LoadedWith libs fs order configDir config := by
  have hparent : (PathBuf.parent (PathBuf.join configDir "default.yml")).isSome :=
    @parent_join_isSome configDir "default.yml" 'l' rfl (by decide)
  obtain ⟨profile, hprofile⟩ := (@ofConfig_isSome_iff _ libs fs order _ _).mpr ⟨hvalid, hparent⟩
  exact ⟨{ defaultProfile := profile
           customProfiles := (customFiles fs order configDir).filterMap fun configFile =>
            (LoadedProfileFile.loadFromPath libs fs order configFile (some profile)).toOption },
    hprofile, rfl⟩

/-- The paths and the filters of the custom profiles. -/
theorem LoadedProfileStore.LoadedWith.customs_eq {configDir : PathBuf} {config : ParsedConfig}
    {store : LoadedProfileStore} (h : store.LoadedWith libs fs order configDir config) :
    store.customProfiles.map (fun profile => (profile.sourcePath, profile.filter))
      = (ownProfiles libs fs order configDir).map fun profile =>
          (profile.sourcePath, profile.filter.or config.filters) := by
  obtain ⟨hvalid, _, _, hdefault⟩ := ofConfig_ok_iff.mp h.defaultProfile
  have hcontent : store.defaultProfile.content = config := by rw [hdefault]
  rw [h.customProfiles, ownProfiles, List.map_filterMap, List.map_filterMap]
  refine List.filterMap_congr fun configFile _ => ?_
  have hcustom := @loadFromPath_custom _ libs fs order store.defaultProfile (by rwa [hcontent])
    configFile
  rwa [hcontent] at hcustom

theorem sourcePath_of_loadFromPath {sourcePath : PathBuf} {parent : Option LoadedProfileFile}
    {profile : LoadedProfileFile}
    (h : LoadedProfileFile.loadFromPath libs fs order sourcePath parent = .ok profile) :
    profile.sourcePath = sourcePath := by
  obtain ⟨_, _, _, _, hpath, _⟩ := loadFromPath_ok_iff.mp h
  exact hpath

/-- Each custom file has its own path, which is not that of the default file. -/
theorem sourcePaths_ownProfiles (configDir : PathBuf) :
    ((ownProfiles libs fs order configDir).map (·.sourcePath)).Sublist
      (customFiles fs order configDir) := by
  unfold ownProfiles
  induction customFiles fs order configDir with
  | nil => exact .refl []
  | cons configFile configFiles ih =>
      cases hload : LoadedProfileFile.loadFromPath libs fs order configFile none with
      | error err =>
          rw [List.filterMap_cons_none (by simp [hload, Except.toOption])]
          exact ih.cons _
      | ok profile =>
          rw [List.filterMap_cons_some (b := profile) (by simp [hload, Except.toOption]),
            List.map_cons, sourcePath_of_loadFromPath hload]
          exact ih.cons_cons _

end Loading

/-! ## §3. The choice. -/

section Choice

variable {ε : Type} {libs : Libraries ε} {fs : FileSystem} {order : PathOrder}
  {configDir : PathBuf} (regexIsMatch : String → String → Bool)

/-- The first of the profiles that matches the app once its open filters are filled in. -/
def firstMatch (profiles : List LoadedProfileFile) (defaults : Filters) (app : AppProperties) :
    Option LoadedProfileFile :=
  profiles.find? fun profile => (profile.filter.or defaults).isMatch regexIsMatch app

variable {regexIsMatch}

/-- **The active profile**, from the filters that the custom files set and the default filters. -/
theorem LoadedProfileStore.LoadedWith.activeConfig_eq {config : ParsedConfig}
    {store : LoadedProfileStore} (h : store.LoadedWith libs fs order configDir config)
    (fileMap : HashMap PathBuf MatchFileRef) (app : AppProperties) :
    ((ProfileStore.resolvePaths store fileMap).activeConfig regexIsMatch app).sourcePath
      = ((firstMatch regexIsMatch (ownProfiles libs fs order configDir) config.filters app).map
          (·.sourcePath)).getD (PathBuf.join configDir "default.yml") := by
  obtain ⟨_, _, _, hdefault⟩ := ofConfig_ok_iff.mp h.defaultProfile
  have hpath : store.defaultProfile.sourcePath = PathBuf.join configDir "default.yml" := by
    rw [hdefault]
  -- both choices are made in one list of paths and filters
  have hleft : (store.customProfiles.find?
        fun custom => custom.filter.isMatch regexIsMatch app).map (·.sourcePath)
      = ((store.customProfiles.map fun profile => (profile.sourcePath, profile.filter)).find?
          fun custom => custom.2.isMatch regexIsMatch app).map (·.1) := by
    rw [List.find?_map, Option.map_map]
    rfl
  have hright : (firstMatch regexIsMatch (ownProfiles libs fs order configDir) config.filters
        app).map (·.sourcePath)
      = (((ownProfiles libs fs order configDir).map fun profile =>
          (profile.sourcePath, profile.filter.or config.filters)).find?
            fun custom => custom.2.isMatch regexIsMatch app).map (·.1) := by
    rw [firstMatch, List.find?_map, Option.map_map]
    rfl
  rw [hright, ← h.customs_eq, ← hleft]
  have hfind : (ProfileStore.resolvePaths store fileMap).customProfiles.find?
        (fun custom => custom.filter.isMatch regexIsMatch app)
      = (store.customProfiles.find? fun custom =>
          custom.filter.isMatch regexIsMatch app).map (.fromLoadedProfile · fileMap) := by
    unfold ProfileStore.resolvePaths
    rw [List.find?_map]
    rfl
  rw [ProfileStore.activeConfig, hfind]
  cases store.customProfiles.find? fun custom => custom.filter.isMatch regexIsMatch app with
  | none => exact hpath
  | some profile => rfl

/-- **The first custom file whose own filters let the app pass sets all three filters**, if there
is such a file. -/
def FirstPassingComplete (regexIsMatch : String → String → Bool)
    (profiles : List LoadedProfileFile) (app : AppProperties) : Prop :=
  ∀ before profile after, profiles = before ++ profile :: after →
    (∀ earlier ∈ before, ¬ earlier.filter.passes regexIsMatch app) →
    profile.filter.passes regexIsMatch app → profile.filter.Complete

/-- A profile that the app does not pass is never chosen. -/
theorem firstMatch_append {before after : List LoadedProfileFile} {defaults : Filters}
    {app : AppProperties}
    (hbefore : ∀ earlier ∈ before, ¬ earlier.filter.passes regexIsMatch app) :
    firstMatch regexIsMatch (before ++ after) defaults app
      = firstMatch regexIsMatch after defaults app := by
  have hnone : before.find? (fun profile =>
      (profile.filter.or defaults).isMatch regexIsMatch app) = none := by
    rw [List.find?_eq_none]
    intro earlier hmem hmatch
    exact hbefore earlier hmem (Filters.passes_of_or (Filters.isMatch_iff.mp hmatch).2)
  rw [firstMatch, List.find?_append, hnone, Option.none_or, firstMatch]

theorem firstMatch_cons {profile : LoadedProfileFile} {after : List LoadedProfileFile}
    {defaults : Filters} {app : AppProperties} :
    firstMatch regexIsMatch (profile :: after) defaults app
      = if (profile.filter.or defaults).isMatch regexIsMatch app then some profile
        else firstMatch regexIsMatch after defaults app := by
  simp only [firstMatch, List.find?_cons]
  split <;> simp [*]

/-- Then the choice does not depend on the default filters. -/
theorem FirstPassingComplete.firstMatch_eq {profiles : List LoadedProfileFile}
    {app : AppProperties} (h : FirstPassingComplete regexIsMatch profiles app)
    (defaults defaults' : Filters) :
    firstMatch regexIsMatch profiles defaults app
      = firstMatch regexIsMatch profiles defaults' app := by
  cases hfirst : profiles.find? fun profile => profile.filter.passes regexIsMatch app with
  | none =>
      have hnone := List.find?_eq_none.mp hfirst
      rw [← List.append_nil profiles, firstMatch_append hnone, firstMatch_append hnone]
      rfl
  | some profile =>
      obtain ⟨hpasses, before, after, rfl, hbefore⟩ := List.find?_eq_some_iff_append.mp hfirst
      have hbefore : ∀ earlier ∈ before, ¬ earlier.filter.passes regexIsMatch app := by
        simpa using hbefore
      have hcomplete := h before profile after rfl hbefore hpasses
      have hmatch : ∀ defaults, (profile.filter.or defaults).isMatch regexIsMatch app :=
        fun defaults => (hcomplete.isMatch_or defaults).mpr hpasses
      rw [firstMatch_append hbefore, firstMatch_append hbefore, firstMatch_cons, firstMatch_cons,
        if_pos (hmatch defaults), if_pos (hmatch defaults')]

/-- Regular expressions that match every text, and none. -/
structure RegexLaws (libs : Libraries ε) (regexIsMatch : String → String → Bool) : Prop where
  always : ∃ regex, libs.compileRegex regex = .ok () ∧ ∀ text, regexIsMatch regex text
  never : ∃ regex, libs.compileRegex regex = .ok () ∧ ∀ text, ¬ regexIsMatch regex text

/-- If the first custom file that the app passes leaves a filter open, then two sets of default
filters lead to different choices. -/
theorem exists_firstMatch_ne (hlaws : RegexLaws libs regexIsMatch) {app : AppProperties}
    (happ : app ≠ {}) {before after : List LoadedProfileFile} {profile : LoadedProfileFile}
    (hnodup : ((before ++ profile :: after).map (·.sourcePath)).Nodup)
    (hbefore : ∀ earlier ∈ before, ¬ earlier.filter.passes regexIsMatch app)
    (hpasses : profile.filter.passes regexIsMatch app) (hopen : ¬ profile.filter.Complete) :
    ∃ defaults defaults' : Filters, defaults.Valid libs ∧ defaults'.Valid libs
      ∧ firstMatch regexIsMatch (before ++ profile :: after) defaults app = some profile
      ∧ ∀ other, firstMatch regexIsMatch (before ++ profile :: after) defaults' app = some other →
          other.sourcePath ≠ profile.sourcePath := by
  obtain ⟨always, halways, hmatches⟩ := hlaws.always
  obtain ⟨never, hnever, hmatches'⟩ := hlaws.never
  obtain ⟨defaults, hdefaults, hmatch⟩ := Filters.exists_isMatch_or hmatches happ hpasses
  refine ⟨defaults, ⟨some never, some never, some never⟩, ?_, ?_, ?_, ?_⟩
  · intro regex hregex
    rw [hdefaults regex hregex]
    exact halways
  · intro regex hregex
    obtain rfl : never = regex := by simpa using hregex
    exact hnever
  · rw [firstMatch_append hbefore, firstMatch_cons, if_pos hmatch]
  · intro other hother
    rw [firstMatch_append hbefore, firstMatch_cons,
      if_neg (Filters.not_isMatch_or_never hmatches' hopen)] at hother
    -- the other choice is further behind
    have hmem : other.sourcePath ∈ after.map (·.sourcePath) :=
      List.mem_map_of_mem (List.mem_of_find?_eq_some hother)
    rw [List.map_append, List.map_cons, List.nodup_append, List.nodup_cons] at hnodup
    exact fun heq => hnodup.2.1.1 (heq ▸ hmem)

/-- **The default filters make no difference**, whatever they are: exactly if the app tells
nothing about itself, or the first custom file whose own filters let it pass sets all three. -/
theorem selectsSame_iff (hlaws : RegexLaws libs regexIsMatch) (fs : FileSystem) (order : PathOrder)
    (configDir : PathBuf) (config : ParsedConfig) (app : AppProperties) :
    (∀ filters filters' : Filters, filters.Valid libs → filters'.Valid libs →
      ∃ store store' : LoadedProfileStore,
        store.LoadedWith libs fs order configDir (config.withFilters filters)
          ∧ store'.LoadedWith libs fs order configDir (config.withFilters filters')
          ∧ ∀ fileMap fileMap',
            ((ProfileStore.resolvePaths store fileMap).activeConfig regexIsMatch app).sourcePath
              = ((ProfileStore.resolvePaths store' fileMap').activeConfig regexIsMatch
                  app).sourcePath)
      ↔ app = {} ∨ FirstPassingComplete regexIsMatch (ownProfiles libs fs order configDir) app := by
  have hsub := @sourcePaths_ownProfiles _ libs fs order configDir
  have hnodup : ((ownProfiles libs fs order configDir).map (·.sourcePath)).Nodup :=
    hsub.nodup nodup_customFiles
  constructor
  · intro hsame
    by_cases happ : app = {}
    · exact .inl happ
    refine .inr fun before profile after hsplit hbefore hpasses => ?_
    by_contra hopen
    rw [hsplit] at hnodup
    obtain ⟨filters, filters', hvalid, hvalid', hchosen, hother⟩ :=
      exists_firstMatch_ne hlaws happ hnodup hbefore hpasses hopen
    obtain ⟨store, store', hload, hload', heq⟩ := hsame filters filters' hvalid hvalid'
    have heq := heq ∅ ∅
    rw [hload.activeConfig_eq, hload'.activeConfig_eq, hsplit,
      ParsedConfig.filters_withFilters, ParsedConfig.filters_withFilters, hchosen] at heq
    cases hchosen' : firstMatch regexIsMatch (before ++ profile :: after) filters' app with
    | none =>
        -- the default profile is chosen instead, which is none of the custom ones
        have hmem : profile.sourcePath ∈ customFiles fs order configDir :=
          hsub.subset (List.mem_map_of_mem (by simp [hsplit]))
        rw [hchosen'] at heq
        have hpath : profile.sourcePath = PathBuf.join configDir "default.yml" := heq
        simp [customFiles, hpath] at hmem
    | some other =>
        rw [hchosen'] at heq
        exact hother other hchosen' heq.symm
  · intro hcondition filters filters' hvalid hvalid'
    obtain ⟨store, hload⟩ := @exists_loadedWith _ libs fs order configDir
      (config.withFilters filters) hvalid
    obtain ⟨store', hload'⟩ := @exists_loadedWith _ libs fs order configDir
      (config.withFilters filters') hvalid'
    refine ⟨store, store', hload, hload', fun fileMap fileMap' => ?_⟩
    rw [hload.activeConfig_eq, hload'.activeConfig_eq]
    obtain rfl | hcomplete := hcondition
    · have hnone : ∀ defaults, firstMatch regexIsMatch (ownProfiles libs fs order configDir)
          defaults {} = none := fun defaults =>
        List.find?_eq_none.mpr fun _ _ => Filters.not_isMatch_empty
      rw [hnone, hnone]
    · rw [hcomplete.firstMatch_eq _ (config.withFilters filters').filters]

end Choice

/-! ## §4. A filter of the default profile. -/

/-- The libraries, on the configurations below. -/
def filterLibraries : Libraries String where
  parseConfig text :=
    if text = "" then .ok {}
    else if text = "filter_title: Firefox" then .ok { filterTitle := some "Firefox" }
    else if text = "filter_class: term" then .ok { filterClass := some "term" }
    else .error "invalid configuration"
  parseMatchFile _ := .error "invalid match file"
  compileRegex _ := .ok ()
  globMatches _ _ := false
  canonical path := path

/-- A literal is found anywhere in a text; nothing comes in front of the start of a text. -/
def literalIsMatch (regex text : String) : Bool :=
  if regex = "x^" then false else text.toList.tails.any (regex.toList.isPrefixOf ·)

/-- A directory with one custom profile, which is for terminals. -/
def terminalDirectory (default : String) : FileSystem where
  files := HashMap.insertEntries ∅ [("/shinran/config/default.yml", ⟨default, 1⟩),
    ("/shinran/config/terminal.yml", ⟨"filter_class: term", 1⟩)]
  directories := ["/shinran", "/shinran/config"]

/-- A terminal, with the title that its shell gives it. -/
def terminalApp : AppProperties := { title := some "zsh", class_ := some "xterm" }

/-- **A filter of the default profile hides a custom one.**  The directories differ in a filter of
their default files, and the profiles that are active for the terminal differ. -/
theorem defaultFilter_hides_custom :
    ∃ store store' : LoadedProfileStore,
      LoadedProfileStore.load filterLibraries (terminalDirectory "") .canonical "/shinran/config"
          = .ok (store, [])
        ∧ LoadedProfileStore.load filterLibraries (terminalDirectory "filter_title: Firefox")
            .canonical "/shinran/config" = .ok (store', [])
        ∧ store'.defaultProfile.content
          = store.defaultProfile.content.withFilters { title := some "Firefox" }
        ∧ ((ProfileStore.resolvePaths store ∅).activeConfig literalIsMatch terminalApp).sourcePath
          = "/shinran/config/terminal.yml"
        ∧ ((ProfileStore.resolvePaths store' ∅).activeConfig literalIsMatch terminalApp).sourcePath
          = "/shinran/config/default.yml" :=
  ⟨_, _, rfl, rfl, rfl, rfl, rfl⟩

theorem literal_laws : RegexLaws filterLibraries literalIsMatch where
  always := ⟨"", rfl, fun text => by
    simpa [literalIsMatch] using ⟨_, List.suffix_refl text.toList⟩⟩
  never := ⟨"x^", rfl, fun text => by simp [literalIsMatch]⟩

theorem selectsSame_iff_terminal :
    (∀ filters filters' : Filters, filters.Valid filterLibraries →
      filters'.Valid filterLibraries → ∃ store store' : LoadedProfileStore,
        store.LoadedWith filterLibraries (terminalDirectory "") .canonical "/shinran/config"
            (ParsedConfig.withFilters {} filters)
          ∧ store'.LoadedWith filterLibraries (terminalDirectory "") .canonical "/shinran/config"
            (ParsedConfig.withFilters {} filters')
          ∧ ∀ fileMap fileMap',
            ((ProfileStore.resolvePaths store fileMap).activeConfig literalIsMatch
                terminalApp).sourcePath
              = ((ProfileStore.resolvePaths store' fileMap').activeConfig literalIsMatch
                  terminalApp).sourcePath)
      ↔ terminalApp = {} ∨ FirstPassingComplete literalIsMatch
          (ownProfiles filterLibraries (terminalDirectory "") .canonical "/shinran/config")
          terminalApp :=
  selectsSame_iff literal_laws (terminalDirectory "") .canonical "/shinran/config" {} terminalApp

end Shinran

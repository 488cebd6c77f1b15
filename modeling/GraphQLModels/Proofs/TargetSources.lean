import GraphQLModels.Proofs.JsonText
import GraphQLModels.Proofs.Mappings
import GraphQLModels.Proofs.Outcome
import GraphQLModels.Proofs.Pairs
import GraphQLModels.Schema.Basic

/-!
# Sources of targets

The command line and a configuration file say which targets scalars and fields have, each with
repeated keys. The settings that a run makes of them keep under every key what was said of it last,
the command line after the file.
-/

namespace GraphQLModels

namespace CommandLine

/-- Entries whose targets are texts, as a configuration holds them. -/
def asJson {κ : Type} (entries : List (κ × String)) : List (κ × Json) :=
  entries.map fun entry => (entry.1, .str entry.2)

@[simp] theorem keys_asJson {κ : Type} (entries : List (κ × String)) :
    (asJson entries).map (·.1) = entries.map (·.1) := by
  rw [asJson, List.map_map]
  rfl

theorem forall₂_asJson {κ : Type} (entries : List (κ × String)) :
    List.Forall₂ (fun entry given => given = (entry.1, Json.str entry.2)) entries
      (asJson entries) :=
  List.forall₂_map_right_iff.mpr (List.forall₂_same.mpr fun _ _ => rfl)

theorem asJson_of_forall₂ {κ : Type} {entries : List (κ × String)} {given : List (κ × Json)}
    (related : List.Forall₂ (fun entry given => given = (entry.1, Json.str entry.2)) entries
      given) : given = asJson entries := by
  induction related with
  | nil => rfl
  | cons first _ ih => rw [first, ih]; rfl

theorem setKeys_asJson {κ : Type} [BEq κ] [LawfulBEq κ] (base entries : List (κ × String)) :
    setKeys (asJson base) (asJson entries) = asJson (setKeys base entries) := by
  refine asJson_of_forall₂ (forall₂_setKeys _ ?_ (forall₂_asJson entries) (forall₂_asJson base))
  rintro e f e' f' rfl rfl
  exact Iff.rfl

/-- The last entry under a key. -/
def IsLast {κ α : Type} (key : κ) (value : α) (entries : List (κ × α)) : Prop :=
  ∃ before after, entries = before ++ (key, value) :: after ∧ key ∉ after.map (·.1)

theorem isLast_iff {κ α : Type} [BEq κ] [LawfulBEq κ] (key : κ) (value : α)
    (entries : List (κ × α)) :
    findKey? key entries.reverse = some value ↔ IsLast key value entries := by
  rw [findKey?, Option.map_eq_some_iff]
  constructor
  · rintro ⟨⟨known, _⟩, found, rfl⟩
    obtain ⟨same, after, before, turned, absent⟩ := List.find?_eq_some_iff_append.mp found
    obtain rfl : known = key := by simpa using same
    refine ⟨before.reverse, after.reverse, ?_, ?_⟩
    · rw [← List.reverse_reverse entries, turned]
      simp
    · simp only [Bool.not_eq_true', beq_eq_false_iff_ne] at absent
      rintro within
      obtain ⟨entry, member, rfl⟩ := List.mem_map.mp within
      exact absent entry (List.mem_reverse.mp member) rfl
  · rintro ⟨before, after, rfl, absent⟩
    refine ⟨(key, value), List.find?_eq_some_iff_append.mpr ⟨by simp, after.reverse,
      before.reverse, by simp, ?_⟩, rfl⟩
    simp only [Bool.not_eq_true', beq_eq_false_iff_ne]
    rintro entry member rfl
    exact absent (List.mem_map_of_mem (List.mem_reverse.mp member))

theorem findKey?_reverse_eq_none_iff {κ α : Type} [BEq κ] [LawfulBEq κ] (key : κ)
    (entries : List (κ × α)) :
    findKey? key entries.reverse = none ↔ key ∉ entries.map (·.1) := by
  rw [findKey?_eq_none_iff, List.map_reverse, List.mem_reverse]

/-! ## Sources -/

/-- What the places say that target names come from, in the order in which they say it. -/
structure TargetSources where
  givenScalars : List (String × String) := []
  givenOverrides : List ((String × String) × String) := []
  configScalars : List (String × String) := []
  configOverrides : List ((String × String) × String) := []
  /-- Whether the command line asks for enums as texts. -/
  flag : Bool := false
  /-- Whether the configuration asks for enums as texts. -/
  configFlag : Bool := false

/-- A pair of two texts inside of a configuration. -/
inductive IsTextPair : Json → String → String → Prop
  | list (key target : String) : IsTextPair (.arr [.str key, .str target]) key target
  | names (key target : String) (first second : Json) :
      IsTextPair (.obj [(key, first), (target, second)]) key target
  | letters (key target : Char) :
      IsTextPair (.str (String.ofList [key, target])) (String.singleton key)
        (String.singleton target)

/-- A value of a configuration that maps texts to texts. -/
inductive IsTextMapping : Json → List (String × String) → Prop
  | absent (value : Json) (notGiven : value.isGiven = false) : IsTextMapping value []
  | members (entries : List (String × String)) : IsTextMapping (.obj (asJson entries)) entries
  | pairs (items : List Json) (entries : List (String × String))
      (related : List.Forall₂ (fun item entry => IsTextPair item entry.1 entry.2) items entries) :
      IsTextMapping (.arr items) entries

/-- A value of a configuration that maps names of fields to texts. -/
inductive IsFieldMapping : Json → List ((String × String) × String) → Prop
  | absent (value : Json) (notGiven : value.isGiven = false) : IsFieldMapping value []
  | members (named : List (String × String)) (entries : List ((String × String) × String))
      (related : List.Forall₂ (fun name entry => NamesField name.1 entry.1 ∧ name.2 = entry.2)
        named entries) :
      IsFieldMapping (.obj (asJson named)) entries

/-- The value of a configuration under a name, null where it has none. -/
def valueOf (name : String) (config : List (String × Json)) : Json :=
  (findKey? name config).getD .null

/-- What a configuration says of target names. -/
structure ConfigStates (config : List (String × Json)) (s : TargetSources) : Prop where
  known : ∀ key ∈ config.map (·.1), key ∈ Settings.configKeys
  scalars : IsTextMapping (valueOf "scalars" config) s.configScalars
  overrides : IsFieldMapping (valueOf "overrides" config) s.configOverrides
  flag : (valueOf "enumMembersAsString" config).isGiven = s.configFlag

/-- What the arguments of a run say of target names, with the configuration that they name. -/
structure SettingArguments.Say (a : SettingArguments) (s : TargetSources) : Prop where
  scalars : List.Forall₂ (fun text entry => IsPair '=' text entry.1 entry.2) a.scalars
    s.givenScalars
  overrides : List.Forall₂ (fun text entry => ∃ name, IsPair '=' text name entry.2 ∧
    NamesField name entry.1) a.overrides s.givenOverrides
  flag : a.enumsAsText = s.flag
  unconfigured : a.config = none →
    s.configScalars = [] ∧ s.configOverrides = [] ∧ s.configFlag = false
  configured : ∀ path text, a.config = some (path, text) →
    ∃ config, Json.load text = .ok (.obj config) ∧ ConfigStates config s

/-! ## Reading the sources -/

/-- Kept entries that are found exactly where the last of some entries stand. -/
def Keeps {κ : Type} [BEq κ] (kept : List (κ × Json)) (entries : List (κ × String)) : Prop :=
  ∃ texts, kept = asJson texts ∧ ∀ key, findKey? key texts = findKey? key entries.reverse

section Keeps

variable {κ : Type} [BEq κ] [LawfulBEq κ]

theorem keeps_distinct (entries : List (κ × String)) (distinct : (entries.map (·.1)).Nodup) :
    Keeps (asJson entries) entries :=
  ⟨entries, rfl, fun key => (findKey?_reverse key entries distinct).symm⟩

theorem keeps_set (entries : List (κ × String)) : Keeps (asJson (setKeys [] entries)) entries := by
  refine ⟨_, rfl, fun key => ?_⟩
  rw [findKey?_setKeys]
  cases findKey? key entries.reverse <;> rfl

/-- Entries that are set on top come after those that were kept. -/
theorem Keeps.merged {base changes : List (κ × Json)} {entries later : List (κ × String)}
    (keeps : Keeps base entries) (keeps' : Keeps changes later)
    (distinct : (changes.map (·.1)).Nodup) : Keeps (setKeys base changes) (entries ++ later) := by
  obtain ⟨texts, rfl, found⟩ := keeps
  obtain ⟨texts', rfl, found'⟩ := keeps'
  have distinct' : (texts'.map (·.1)).Nodup := keys_asJson texts' ▸ distinct
  refine ⟨setKeys texts texts', setKeys_asJson texts texts', fun key => ?_⟩
  rw [findKey?_setKeys, findKey?_reverse key texts' distinct', found, found', List.reverse_append,
    findKey?_append]

end Keeps

theorem readPair_ok (item : Json) (key target : String) (pair : IsTextPair item key target) :
    Settings.readPair item = .ok (key, .str target) := by
  cases pair with
  | list | names => rfl
  | letters first second =>
    rw [Settings.readPair, Settings.pairParts, String.toList_ofList]
    rfl

theorem readMapping_keeps (value : Json) (proper : value.IsProper)
    (entries : List (String × String)) (mapping : IsTextMapping value entries) :
    ∃ kept, Settings.readMapping value = .ok kept ∧ Keeps kept entries := by
  cases mapping with
  | absent value notGiven =>
    exact ⟨[], by simp [Settings.readMapping, notGiven], keeps_distinct [] List.nodup_nil⟩
  | members entries =>
    have distinct : (entries.map (·.1)).Nodup := keys_asJson entries ▸ proper.1
    refine ⟨asJson entries, ?_, keeps_distinct entries distinct⟩
    cases entries <;> rfl
  | pairs items entries related =>
    refine ⟨asJson (setKeys [] entries), ?_, keeps_set entries⟩
    have read : items.mapM Settings.readPair = .ok (asJson entries) := by
      refine (Outcome.mapM_ok_iff _ _ _).mpr (List.forall₂_map_right_iff.mpr ?_)
      exact related.imp fun item entry pair => readPair_ok item entry.1 entry.2 pair
    cases items with
    | nil =>
      cases related
      rfl
    | cons item rest =>
      rw [← setKeys_asJson [] entries]
      simp only [Settings.readMapping, Json.isGiven, List.isEmpty_cons, Bool.not_false,
        Bool.not_true, Bool.false_eq_true, if_false, read]
      rfl

/-- Names of fields keep their order and their targets when they are read. -/
theorem readOverrides_ok {α : Type} (named : List (String × α))
    (entries : List ((String × String) × α))
    (related : List.Forall₂ (fun name entry => NamesField name.1 entry.1 ∧ name.2 = entry.2) named
      entries) : readOverrides named = .ok (setKeys [] entries) := by
  rw [readOverrides, (Outcome.mapM_ok_iff _ named entries).mpr ?read]
  case read =>
    refine related.imp ?_
    rintro ⟨name, target⟩ ⟨place, _⟩ ⟨names, rfl⟩
    simp only [(overrideKey_ok_iff name place).mpr names, Outcome.ok_bind]
    rfl
  rfl

theorem readOverrides_asJson (named : List (String × String))
    (entries : List ((String × String) × String))
    (related : List.Forall₂ (fun name entry => NamesField name.1 entry.1 ∧ name.2 = entry.2) named
      entries) : readOverrides (asJson named) = .ok (asJson (setKeys [] entries)) := by
  rw [readOverrides_ok (asJson named) (asJson entries), ← setKeys_asJson [] entries]
  · rfl
  · refine List.forall₂_map_left_iff.mpr (List.forall₂_map_right_iff.mpr (related.imp ?_))
    exact fun name entry same => ⟨same.1, congrArg Json.str same.2⟩

/-- Settings that keep what some sources say. -/
structure SettingsKeep (settings : Settings Json) (scalars : List (String × String))
    (overrides : List ((String × String) × String)) (flag : Bool) : Prop where
  scalars : Keeps settings.scalars scalars
  overrides : Keeps settings.overrides overrides
  flag : settings.enumsAsText = flag

theorem initial_keeps (name : Json) : SettingsKeep (.initial name) [] [] false :=
  ⟨keeps_distinct [] List.nodup_nil, keeps_distinct [] List.nodup_nil, rfl⟩

/-- Overrides are read from an object, or there are none. -/
theorem configOverrides_keep (value : Json) (entries : List ((String × String) × String))
    (mapping : IsFieldMapping value entries) :
    (∃ members kept, value = .obj members ∧ readOverrides members = .ok kept ∧
        Keeps kept entries) ∨
      (∀ members, value ≠ .obj members) ∧ value.isGiven = false ∧ entries = [] := by
  cases mapping with
  | members named entries related =>
    exact .inl ⟨_, _, rfl, readOverrides_asJson named entries related, keeps_set entries⟩
  | absent value notGiven =>
    cases value with
    | obj members =>
      cases members with
      | nil => exact .inl ⟨[], [], rfl, rfl, keeps_distinct [] List.nodup_nil⟩
      | cons member rest => cases notGiven
    | _ => exact .inr ⟨nofun, notGiven, rfl⟩

theorem ofConfig_keeps (config : List (String × Json)) (proper : (Json.obj config).IsProper)
    (s : TargetSources) (stated : ConfigStates config s) :
    ∃ settings, Settings.ofConfig config = .ok settings ∧
      SettingsKeep settings s.configScalars s.configOverrides s.configFlag := by
  have known : (config.all fun entry => Settings.configKeys.contains entry.1) = true := by
    simp only [List.all_eq_true, List.contains_iff_mem]
    exact fun entry member => stated.known _ (List.mem_map_of_mem member)
  have properValue : (valueOf "scalars" config).IsProper := by
    unfold valueOf
    cases found : findKey? "scalars" config with
    | none => trivial
    | some value =>
      exact (Json.membersAreProper_iff config).mp proper.2 _ (findKey?_mem _ _ _ found)
  obtain ⟨scalars, readScalars, keptScalars⟩ := readMapping_keeps _ properValue _ stated.scalars
  have overrides := configOverrides_keep _ _ stated.overrides
  have flag := stated.flag
  unfold valueOf at readScalars overrides flag
  simp only [Settings.ofConfig, known, Bool.not_true, Bool.false_eq_true, if_false, readScalars,
    Outcome.ok_bind]
  rcases overrides with ⟨members, kept, given, read, keeps⟩ | ⟨other, notGiven, nothing⟩
  · simp only [given, read, Outcome.ok_bind]
    exact ⟨_, rfl, keptScalars, keeps, flag⟩
  · split
    · rename_i given
      exact absurd given (other _)
    · rw [notGiven, nothing, if_neg Bool.false_ne_true]
      exact ⟨_, rfl, keptScalars, keeps_distinct [] List.nodup_nil, flag⟩

theorem readPairs_ok (name : String) (texts : List String) (entries : List (String × String))
    (related : List.Forall₂ (fun text entry => IsPair '=' text entry.1 entry.2) texts entries) :
    readPairs name '=' texts = .ok (setKeys [] entries) := by
  have read : texts.mapM (readPair name '=') = .ok entries :=
    (Outcome.mapM_ok_iff _ _ _).mpr (related.imp fun text entry pair =>
      (readPair_ok_iff name '=' text entry.1 entry.2).mpr pair)
  rw [readPairs, read]
  rfl

/-- A key that comes again among the overrides is the same field again, and no other key is. -/
theorem setKeys_named {named : List (String × String)}
    {entries : List ((String × String) × String)}
    (related : List.Forall₂ (fun name entry => NamesField name.1 entry.1 ∧ name.2 = entry.2) named
      entries) :
    List.Forall₂ (fun name entry => NamesField name.1 entry.1 ∧ name.2 = entry.2)
      (setKeys [] named) (setKeys [] entries) := by
  refine forall₂_setKeys _ ?_ related .nil
  rintro name entry name' entry' ⟨names, -⟩ ⟨names', -⟩
  constructor
  · intro same
    rw [same] at names
    exact names.place_eq names'
  · intro same
    rw [same] at names
    exact names.text_eq names'

theorem changes_ok (a : SettingArguments) (s : TargetSources) (stated : a.Say s) :
    ∃ changes, a.changes = .ok changes ∧ changes.scalars = asJson (setKeys [] s.givenScalars) ∧
      changes.overrides = asJson (setKeys [] s.givenOverrides) ∧
      changes.enumsAsText = if s.flag then some true else none := by
  obtain ⟨named, pairs, names⟩ : ∃ named : List (String × String),
      List.Forall₂ (fun text name => IsPair '=' text name.1 name.2) a.overrides named ∧
      List.Forall₂ (fun name entry => NamesField name.1 entry.1 ∧ name.2 = entry.2) named
        s.givenOverrides := by
    refine Outcome.forall₂_between (stated.overrides.imp ?_)
    rintro text entry ⟨name, pair, names⟩
    exact ⟨(name, entry.2), pair, names, rfl⟩
  have once : setKeys [] (setKeys [] s.givenOverrides) = setKeys [] s.givenOverrides :=
    setKeys_distinct [] _ (setKeys_nodup [] _ List.nodup_nil)
  rw [SettingArguments.changes, readPairs_ok "--scalar" a.scalars _ stated.scalars,
    readPairs_ok "--override" a.overrides named pairs]
  simp only [Except.mapError, Outcome.ok_bind, readOverrides_ok _ _ (setKeys_named names), once]
  exact ⟨_, rfl, rfl, rfl, by rw [stated.flag]⟩

theorem merged_keeps (base : Settings Json) (changes : Changes Json) (s : TargetSources)
    (kept : SettingsKeep base s.configScalars s.configOverrides s.configFlag)
    (scalars : changes.scalars = asJson (setKeys [] s.givenScalars))
    (overrides : changes.overrides = asJson (setKeys [] s.givenOverrides))
    (flag : changes.enumsAsText = if s.flag then some true else none) :
    SettingsKeep (base.merged changes) (s.configScalars ++ s.givenScalars)
      (s.configOverrides ++ s.givenOverrides) (s.flag || s.configFlag) := by
  constructor
  · refine kept.scalars.merged (scalars ▸ keeps_set s.givenScalars) ?_
    rw [scalars, keys_asJson]
    exact setKeys_nodup [] _ List.nodup_nil
  · refine kept.overrides.merged (overrides ▸ keeps_set s.givenOverrides) ?_
    rw [overrides, keys_asJson]
    exact setKeys_nodup [] _ List.nodup_nil
  · change changes.enumsAsText.getD base.enumsAsText = _
    rw [flag, kept.flag]
    cases s.flag <;> rfl

/-- The settings of a run keep what the configuration says with the command line on top. -/
theorem settings_keep (a : SettingArguments) (s : TargetSources) (stated : a.Say s) :
    ∃ settings, a.settings = .ok settings ∧
      SettingsKeep settings (s.configScalars ++ s.givenScalars)
        (s.configOverrides ++ s.givenOverrides) (s.flag || s.configFlag) := by
  obtain ⟨changes, read, scalars, overrides, flag⟩ := changes_ok a s stated
  have keeps := fun base kept => merged_keeps base changes s kept scalars overrides flag
  unfold SettingArguments.settings
  cases given : a.config with
  | none =>
    obtain ⟨noScalars, noOverrides, noFlag⟩ := stated.unconfigured given
    have kept := initial_keeps (.str Settings.defaultName)
    rw [← noScalars, ← noOverrides, ← noFlag] at kept
    refine ⟨_, ?_, keeps _ kept⟩
    simp only [read, Outcome.ok_bind]
    rfl
  | some file =>
    obtain ⟨config, parsed, states⟩ := stated.configured file.1 file.2 given
    obtain ⟨base, readBase, kept⟩ :=
      ofConfig_keeps config (Json.load_isProper _ _ parsed) s states
    refine ⟨_, ?_, keeps base kept⟩
    simp only [read, Outcome.ok_bind, Settings.ofConfigText, parsed, readBase, Except.mapError]
    rfl

@[simp] theorem targetTexts_asJson {κ : Type} (texts : List (κ × String)) :
    Settings.targetTexts (asJson texts) = texts := by
  rw [Settings.targetTexts, asJson, List.filterMap_map]
  exact List.filterMap_some

end CommandLine

end GraphQLModels

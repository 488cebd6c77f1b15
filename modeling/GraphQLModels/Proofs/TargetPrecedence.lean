import GraphQLModels.Proofs.Resolution
import GraphQLModels.Proofs.TargetSources

/-!
# Precedence of targets

The target of a scalar or enum field may come from six places: overrides and scalars of the command
line, overrides and scalars of a configuration file, the wish for enums as texts, and the built-in
table. Reading them, setting the command line on top of the file and looking a name up always comes
to one ranking.
-/

namespace GraphQLModels

namespace CommandLine

/-- A reference that ends in a type: wrappers around it, or the type itself. -/
inductive EndsIn : SchemaType → SchemaType → Prop
  | named (t : SchemaType) (bare : t.kind.isWrapper = false) : EndsIn t t
  | wrapped (t inner bottom : SchemaType) (wraps : t.ofType = some inner)
      (wrapper : t.kind.isWrapper = true) (below : EndsIn inner bottom) : EndsIn t bottom

/-- The name at the bottom of a field is that of the type that its reference ends in. -/
theorem terminalName_resolve {reference bottom : SchemaType} (ends : EndsIn reference bottom)
    (options : Options) (type field : Option String) :
    (reference.resolve options type field).map FieldType.terminalName =
      options.typeName bottom type field := by
  induction ends with
  | named t bare =>
    rw [t.resolve_named options type field bare]
    cases options.typeName t type field <;> rfl
  | wrapped t inner bottom wraps wrapper _ ih =>
    rcases (SchemaType.isWrapper_iff t.kind).mp wrapper with nonNull | list
    · rw [t.resolve_nonNull options type field inner nonNull wraps, ih]
    · rw [t.resolve_list options type field inner list wraps, ← ih]
      cases inner.resolve options type field <;> rfl

/-! ## The ranking -/

namespace TargetSources

/-- Whether an override is given for a field of a type. -/
def Overrides (s : TargetSources) (place : String × String) : Prop :=
  place ∈ s.givenOverrides.map (·.1) ∨ place ∈ s.configOverrides.map (·.1)

/-- Whether a scalar has a target of its own. -/
def Targets (s : TargetSources) (scalar : String) : Prop :=
  scalar ∈ s.givenScalars.map (·.1) ∨ scalar ∈ s.configScalars.map (·.1)

instance (s : TargetSources) (place : String × String) : Decidable (s.Overrides place) :=
  inferInstanceAs (Decidable (_ ∨ _))

instance (s : TargetSources) (scalar : String) : Decidable (s.Targets scalar) :=
  inferInstanceAs (Decidable (_ ∨ _))

/-- The target of a scalar or enum type in a field, by rank of the sources. -/
inductive Decide (s : TargetSources) (t : SchemaType) (place : String × String) :
    Except ResolutionError (Option String) → Prop
  | givenOverride (target : String) (last : IsLast place target s.givenOverrides) :
      Decide s t place (.ok (some target))
  | configOverride (target : String) (notGiven : place ∉ s.givenOverrides.map (·.1))
      (last : IsLast place target s.configOverrides) : Decide s t place (.ok (some target))
  | enumText (free : ¬s.Overrides place) (kind : t.kind = .enum)
      (asked : s.flag = true ∨ s.configFlag = true) : Decide s t place (.ok (some "str"))
  | enumName (free : ¬s.Overrides place) (kind : t.kind = .enum)
      (unasked : s.flag = false ∧ s.configFlag = false) : Decide s t place (.ok t.name)
  | givenScalar (name target : String) (free : ¬s.Overrides place) (kind : t.kind = .scalar)
      (named : t.name = some name) (last : IsLast name target s.givenScalars) :
      Decide s t place (.ok (some target))
  | configScalar (name target : String) (free : ¬s.Overrides place) (kind : t.kind = .scalar)
      (named : t.name = some name) (notGiven : name ∉ s.givenScalars.map (·.1))
      (last : IsLast name target s.configScalars) : Decide s t place (.ok (some target))
  | builtin (name target : String) (free : ¬s.Overrides place) (kind : t.kind = .scalar)
      (named : t.name = some name) (untargeted : ¬s.Targets name)
      (listed : (name, target) ∈ builtinScalars) : Decide s t place (.ok (some target))
  | unknown (free : ¬s.Overrides place) (kind : t.kind = .scalar)
      (untargeted : ∀ name, t.name = some name →
        ¬s.Targets name ∧ name ∉ builtinScalars.map (·.1)) :
      Decide s t place (.error (.unknownScalar t.name (some place.1) (some place.2)))

end TargetSources

/-- What is found last in two lists stands in the second, or in the first and not in the second. -/
theorem isLast_append_iff {κ α : Type} [BEq κ] [LawfulBEq κ] (key : κ) (value : α)
    (first second : List (κ × α)) :
    findKey? key (first ++ second).reverse = some value ↔
      IsLast key value second ∨ key ∉ second.map (·.1) ∧ IsLast key value first := by
  rw [List.reverse_append, findKey?_append, ← findKey?_reverse_eq_none_iff, ← isLast_iff,
    ← isLast_iff]
  cases findKey? key second.reverse <;> simp

/-- Options that answer as some sources say. -/
structure Answer (options : Options) (s : TargetSources) : Prop where
  scalar : ∀ name, options.scalar? name = findKey? name (s.configScalars ++ s.givenScalars).reverse
  override : ∀ type field, options.override? type field =
    findKey? (type, field) (s.configOverrides ++ s.givenOverrides).reverse
  flag : options.enumsAsText = (s.flag || s.configFlag)

/-- What the settings of a run keep is what its options answer with. -/
theorem options_answer (settings : Settings Json) (s : TargetSources)
    (keep : SettingsKeep settings (s.configScalars ++ s.givenScalars)
      (s.configOverrides ++ s.givenOverrides) (s.flag || s.configFlag)) :
    Answer settings.toOptions s := by
  obtain ⟨scalarTexts, sameScalars, foundScalars⟩ := keep.scalars
  obtain ⟨overrideTexts, sameOverrides, foundOverrides⟩ := keep.overrides
  refine ⟨fun name => ?_, fun type field => ?_, keep.flag⟩
  · rw [Settings.scalar?, Settings.toOptions, sameScalars, targetTexts_asJson, foundScalars]
  · rw [Settings.override?, Settings.toOptions, sameOverrides, targetTexts_asJson, foundOverrides]

section Answer

variable {options : Options} {s : TargetSources} (answer : Answer options s)

include answer

theorem Answer.override_iff (type field target : String) :
    options.override? type field = some target ↔
      IsLast (type, field) target s.givenOverrides ∨
        (type, field) ∉ s.givenOverrides.map (·.1) ∧
          IsLast (type, field) target s.configOverrides := by
  rw [answer.override, isLast_append_iff]

theorem Answer.override_none_iff (type field : String) :
    options.override? type field = none ↔ ¬s.Overrides (type, field) := by
  rw [answer.override, findKey?_reverse_eq_none_iff, List.map_append, List.mem_append,
    TargetSources.Overrides, or_comm]

theorem Answer.scalar_iff (name target : String) :
    options.scalar? name = some target ↔ IsLast name target s.givenScalars ∨
      name ∉ s.givenScalars.map (·.1) ∧ IsLast name target s.configScalars := by
  rw [answer.scalar, isLast_append_iff]

theorem Answer.scalar_none_iff (name : String) :
    options.scalar? name = none ↔ ¬s.Targets name := by
  rw [answer.scalar, findKey?_reverse_eq_none_iff, List.map_append, List.mem_append,
    TargetSources.Targets, or_comm]

end Answer

theorem typeName_of_override (options : Options) (t : SchemaType) (type field target : String)
    (kind : t.kind = .scalar ∨ t.kind = .enum)
    (found : options.override? type field = some target) :
    options.typeName t (some type) (some field) = .ok (some target) := by
  rcases kind with kind | kind <;> simp [Options.typeName, kind, Options.overrideAt?, found]

theorem typeName_enum (options : Options) (t : SchemaType) (type field : String)
    (kind : t.kind = .enum) (free : options.override? type field = none) :
    options.typeName t (some type) (some field) =
      .ok (if options.enumsAsText then some textTarget else t.name) := by
  simp [Options.typeName, kind, Options.overrideAt?, free]

theorem typeName_scalar (options : Options) (t : SchemaType) (type field : String)
    (kind : t.kind = .scalar) (free : options.override? type field = none) :
    options.typeName t (some type) (some field) =
      ((t.name.bind options.scalarTarget?).map fun target => .ok (some target)).getD
        (.error (.unknownScalar t.name (some type) (some field))) := by
  simp only [Options.typeName, kind, Options.overrideAt?, free, Option.orElse_none]
  cases t.name.bind options.scalarTarget? <;> rfl

section Ranking

variable {options : Options} {s : TargetSources} (answer : Answer options s) {t : SchemaType}
  (type field : String)

include answer

theorem Answer.decide_override {target : String}
    (found : options.override? type field = some target) :
    s.Decide t (type, field) (.ok (some target)) := by
  rcases (answer.override_iff type field target).mp found with last | ⟨notGiven, last⟩
  · exact .givenOverride target last
  · exact .configOverride target notGiven last

theorem Answer.decide_enum (kind : t.kind = .enum) :
    s.Decide t (type, field) (options.typeName t (some type) (some field)) := by
  cases found : options.override? type field with
  | some target =>
    rw [typeName_of_override options t type field target (.inr kind) found]
    exact answer.decide_override type field found
  | none =>
    have free := (answer.override_none_iff type field).mp found
    rw [typeName_enum options t type field kind found, answer.flag]
    by_cases asked : s.flag = true ∨ s.configFlag = true
    · rw [if_pos (Bool.or_eq_true_iff.mpr asked)]
      exact .enumText free kind asked
    · rw [if_neg (mt Bool.or_eq_true_iff.mp asked)]
      simp only [not_or, Bool.not_eq_true] at asked
      exact .enumName free kind asked

theorem Answer.decide_scalar (kind : t.kind = .scalar) :
    s.Decide t (type, field) (options.typeName t (some type) (some field)) := by
  cases found : options.override? type field with
  | some target =>
    rw [typeName_of_override options t type field target (.inl kind) found]
    exact answer.decide_override type field found
  | none =>
    have free := (answer.override_none_iff type field).mp found
    rw [typeName_scalar options t type field kind found]
    cases known : t.name.bind options.scalarTarget? with
    | none =>
      refine .unknown free kind fun name named => ?_
      rw [named, Option.bind_some, Options.scalarTarget?] at known
      cases configured : options.scalar? name with
      | some own => simp [configured] at known
      | none =>
        rw [configured, Option.orElse_none] at known
        exact ⟨(answer.scalar_none_iff name).mp configured, (findKey?_eq_none_iff _ _).mp known⟩
    | some target =>
      obtain ⟨name, named, known⟩ := Option.bind_eq_some_iff.mp known
      cases configured : options.scalar? name with
      | some own =>
        obtain rfl : own = target := by simpa [Options.scalarTarget?, configured] using known
        rcases (answer.scalar_iff name own).mp configured with last | ⟨notGiven, last⟩
        · exact .givenScalar name own free kind named last
        · exact .configScalar name own free kind named notGiven last
      | none =>
        have untargeted := (answer.scalar_none_iff name).mp configured
        simp only [Options.scalarTarget?, configured, Option.orElse_none] at known
        exact .builtin name target free kind named untargeted (findKey?_mem _ _ _ known)

/-- What the ranking decides is what the options name. -/
theorem Answer.typeName_decided {outcome : Except ResolutionError (Option String)}
    (decided : s.Decide t (type, field) outcome) (kind : t.kind = .scalar ∨ t.kind = .enum) :
    options.typeName t (some type) (some field) = outcome := by
  -- Each case says that the look-ups in front of its own find nothing.
  cases decided with
  | givenOverride target last =>
    exact typeName_of_override options t type field target kind
      ((answer.override_iff type field target).mpr (.inl last))
  | configOverride target notGiven last =>
    exact typeName_of_override options t type field target kind
      ((answer.override_iff type field target).mpr (.inr ⟨notGiven, last⟩))
  | enumText free kind asked =>
    rw [typeName_enum options t type field kind ((answer.override_none_iff type field).mpr free),
      answer.flag, if_pos (Bool.or_eq_true_iff.mpr asked)]
    rfl
  | enumName free kind unasked =>
    rw [typeName_enum options t type field kind ((answer.override_none_iff type field).mpr free),
      answer.flag, unasked.1, unasked.2]
    rfl
  | givenScalar name target free kind named last =>
    have found := (answer.scalar_iff name target).mpr (.inl last)
    rw [typeName_scalar options t type field kind ((answer.override_none_iff type field).mpr free),
      named, Option.bind_some, Options.scalarTarget?, found]
    rfl
  | configScalar name target free kind named notGiven last =>
    have found := (answer.scalar_iff name target).mpr (.inr ⟨notGiven, last⟩)
    rw [typeName_scalar options t type field kind ((answer.override_none_iff type field).mpr free),
      named, Option.bind_some, Options.scalarTarget?, found]
    rfl
  | builtin name target free kind named untargeted listed =>
    have found := (answer.scalar_none_iff name).mpr untargeted
    have known := (findKey?_eq_some_iff name target builtinScalars (by decide)).mpr listed
    rw [typeName_scalar options t type field kind ((answer.override_none_iff type field).mpr free),
      named, Option.bind_some, Options.scalarTarget?, found, Option.orElse_none, known]
    rfl
  | unknown free kind untargeted =>
    rw [typeName_scalar options t type field kind ((answer.override_none_iff type field).mpr free)]
    cases named : t.name with
    | none => rfl
    | some name =>
      have found := (answer.scalar_none_iff name).mpr (untargeted name named).1
      have unlisted := (findKey?_eq_none_iff name builtinScalars).mpr (untargeted name named).2
      rw [Option.bind_some, Options.scalarTarget?, found, Option.orElse_none, unlisted]
      rfl

theorem Answer.typeName_iff (kind : t.kind = .scalar ∨ t.kind = .enum)
    (outcome : Except ResolutionError (Option String)) :
    options.typeName t (some type) (some field) = outcome ↔ s.Decide t (type, field) outcome := by
  constructor
  · rintro rfl
    rcases kind with kind | kind
    · exact answer.decide_scalar type field kind
    · exact answer.decide_enum type field kind
  · exact fun decided => answer.typeName_decided type field decided kind

end Ranking

/-- **Precedence of targets**: a run whose arguments can be read has options, and under them the
name at the bottom of a scalar or enum field is the one that the ranking of the sources decides.
Pairs are split at their first equals sign and stripped, names of fields at their first point, and
two names never name one field. -/
theorem targets_ranked :
    (∀ name separator text key item,
      readPair name separator text = .ok (key, item) ↔ IsPair separator text key item) ∧
    (∀ text place, overrideKey text = .ok place ↔ NamesField text place) ∧
    (∀ text other place, overrideKey text = .ok place → overrideKey other = .ok place →
      text = other) ∧
    ∀ (a : SettingArguments) (s : TargetSources), a.Say s →
      ∃ settings, a.settings = .ok settings ∧
        ∀ (reference bottom : SchemaType), EndsIn reference bottom →
        bottom.kind = .scalar ∨ bottom.kind = .enum →
        ∀ (type field : String) (outcome : Except ResolutionError (Option String)),
          settings.toOptions.typeName bottom (some type) (some field) =
              (reference.resolve settings.toOptions (some type) (some field)).map
                FieldType.terminalName ∧
            (settings.toOptions.typeName bottom (some type) (some field) = outcome ↔
              s.Decide bottom (type, field) outcome) := by
  refine ⟨readPair_ok_iff, overrideKey_ok_iff, ?_, ?_⟩
  · intro text other place names names'
    exact ((overrideKey_ok_iff text place).mp names).text_eq
      ((overrideKey_ok_iff other place).mp names')
  · intro a s stated
    obtain ⟨settings, read, keep⟩ := settings_keep a s stated
    have answer := options_answer settings s keep
    refine ⟨settings, read, ?_⟩
    intro reference bottom ends kind type field outcome
    exact ⟨(terminalName_resolve ends settings.toOptions (some type) (some field)).symm,
      answer.typeName_iff type field kind outcome⟩

/-! ## An order -/

def orderConfig : List (String × Json) := [
  ("scalars", .obj (asJson [("DateTime", "str"), ("Money", "float")])),
  ("overrides", .obj (asJson [("Order.total", "Decimal")])),
  ("enumMembersAsString", .bool true)]

/-- Arguments that name one scalar twice, with a configuration. -/
def orderArguments : SettingArguments where
  config := some ("order.json", Json.compact (.obj orderConfig))
  scalars := ["DateTime=date", " DateTime = datetime"]
  overrides := ["Order.id=int"]

def orderSources : TargetSources where
  givenScalars := [("DateTime", "date"), ("DateTime", "datetime")]
  givenOverrides := [(("Order", "id"), "int")]
  configScalars := [("DateTime", "str"), ("Money", "float")]
  configOverrides := [(("Order", "total"), "Decimal")]
  configFlag := true

theorem orderConfig_states : ConfigStates orderConfig orderSources where
  known := by decide
  scalars := .members [("DateTime", "str"), ("Money", "float")]
  overrides :=
    .members [("Order.total", "Decimal")] _
      (.cons ⟨(overrideKey_ok_iff _ _).mp (by decide), rfl⟩ .nil)
  flag := rfl

theorem orderArguments_say : orderArguments.Say orderSources where
  scalars :=
    .cons ((readPair_ok_iff "" _ _ _ _).mp (by decide))
      (.cons ((readPair_ok_iff "" _ _ _ _).mp (by decide)) .nil)
  overrides :=
    .cons ⟨"Order.id", (readPair_ok_iff "" _ _ _ _).mp (by decide),
      (overrideKey_ok_iff _ _).mp (by decide)⟩ .nil
  flag := rfl
  unconfigured := nofun
  configured := by
    rintro path text ⟨⟩
    refine ⟨orderConfig, Json.load_of_parse? _ _ (Json.parse?_compact _ ?_) (by decide +kernel)
      (by decide +kernel), orderConfig_states⟩
    simp [orderConfig, asJson, Json.IsProper, Json.MembersAreProper]

/-- The last of two scalars, a scalar of the configuration, overrides of both places and an enum. -/
theorem targets_ranked_order :
    orderArguments.Say orderSources ∧
      ∃ settings options, orderArguments.settings = .ok settings ∧
        settings.toOptions = options ∧
        options.typeName { kind := .scalar, name := some "DateTime" } (some "Order") (some "at") =
          .ok (some "datetime") ∧
        options.typeName { kind := .scalar, name := some "Money" } (some "Order") (some "fee") =
          .ok (some "float") ∧
        options.typeName { kind := .scalar, name := some "Money" } (some "Order") (some "total") =
          .ok (some "Decimal") ∧
        options.typeName { kind := .enum, name := some "State" } (some "Order") (some "id") =
          .ok (some "int") ∧
        options.typeName { kind := .enum, name := some "State" } (some "Order") (some "state") =
          .ok (some "str") := by
  obtain ⟨settings, read, ranked⟩ :=
    targets_ranked.2.2.2 orderArguments orderSources orderArguments_say
  have named := fun t bare kind type field outcome =>
    (ranked t t (.named t bare) kind type field outcome).2
  refine ⟨orderArguments_say, settings, _, read, rfl, ?_, ?_, ?_, ?_, ?_⟩
  · exact (named _ rfl (.inl rfl) _ _ _).mpr
      (.givenScalar "DateTime" _ (by decide) rfl rfl ⟨[("DateTime", "date")], [], rfl, by decide⟩)
  · exact (named _ rfl (.inl rfl) _ _ _).mpr
      (.configScalar "Money" _ (by decide) rfl rfl (by decide)
        ⟨[("DateTime", "str")], [], rfl, by decide⟩)
  · exact (named _ rfl (.inl rfl) _ _ _).mpr
      (.configOverride _ (by decide) ⟨[], [], rfl, by decide⟩)
  · exact (named _ rfl (.inr rfl) _ _ _).mpr (.givenOverride _ ⟨[], [], rfl, by decide⟩)
  · exact (named _ rfl (.inr rfl) _ _ _).mpr (.enumText (by decide) rfl (.inr rfl))

end CommandLine

end GraphQLModels

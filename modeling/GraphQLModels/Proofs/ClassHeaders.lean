import GraphQLModels.Proofs.LoadedClasses
import GraphQLModels.Proofs.References

/-!
# The heads of class statements

Whether a class statement is accepted depends on its head and on the heads before it: its bases are
bound to different classes, and the orders of these classes and the list of the bases can be merged.
A walk over the heads knows no more than that, and loading a module walks over its heads.
-/

namespace GraphQLModels.Model

/-- The head of a class statement: what it names and what the class is derived from. -/
structure Header where
  name : String
  bases : List Source.Base

/-- The heads of the class statements of a module, in the order of the statements. -/
def headers (m : Source.Module) : List Header :=
  m.contracts.map (fun c => { name := c.name, bases := c.bases }) ++
    m.objects.map fun c => { name := nameText c.name, bases := c.bases }

/-- What a walk over class statements knows: the order of each class by its place, and the classes
that names are bound to. -/
structure Walk where
  orders : List (List Nat)
  bound : List (String × Nat) := []

namespace Walk

/-- The classes that are there before the first statement. -/
def start : Walk := { orders := Foundation.classes.map (·.order) }

/-- The place of a base. -/
def place? (w : Walk) : Source.Base → Option Nat
  | .model => some Foundation.model
  | .capability kind => some (Foundation.capability kind)
  | .contract name => findKey? name w.bound

/-- The order of the class at a place. -/
def orderAt (w : Walk) (place : Nat) : List Nat := (w.orders[place]?).getD []

/-- The class of a head, if its bases are bound to different classes and have a common order. -/
def step (w : Walk) (h : Header) : Option Walk := do
  let places ← h.bases.mapM w.place?
  if places.Nodup then
    let order ← linearize w.orders.length (places.map w.orderAt)
    return { orders := w.orders ++ [order], bound := setKey h.name w.orders.length w.bound }
  else none

/-- The classes of some heads, one after the other. -/
def run (w : Walk) (heads : List Header) : Option Walk := heads.foldlM step w

/-- What the order of a new class has to keep: the orders of its bases and the list of its bases. -/
def ordersFor (w : Walk) (h : Header) : List (List Nat) :=
  (h.bases.filterMap w.place?).map w.orderAt ++ [h.bases.filterMap w.place?]

/-! ## The classes of a walk -/

/-- What holds of the classes of a walk: an order starts with its own class, and the classes of
different names are different and new. -/
structure IsSound (w : Walk) : Prop where
  foundation : Foundation.classes.length ≤ w.orders.length
  heads : ∀ place, place < w.orders.length → (w.orderAt place).head? = some place
  bound : ∀ name place, findKey? name w.bound = some place →
    Foundation.classes.length ≤ place ∧ place < w.orders.length
  apart : ∀ one other place, findKey? one w.bound = some place →
    findKey? other w.bound = some place → one = other

theorem start_isSound : start.IsSound where
  foundation := Nat.le_refl _
  heads := by decide
  bound name place found := by cases found
  apart one other place found := by cases found

theorem mapM_some_iff {α β : Type} (f : α → Option β) (xs : List α) (ys : List β) :
    xs.mapM f = some ys ↔ List.Forall₂ (fun x y => f x = some y) xs ys := by
  induction xs generalizing ys with
  | nil => cases ys <;> simp
  | cons x xs ih =>
    simp only [List.mapM_cons, Option.bind_eq_bind, Option.bind_eq_some_iff, Option.pure_def,
      Option.some.injEq, ih, List.forall₂_cons_left_iff]
    constructor
    · rintro ⟨y, first, ys, rest, rfl⟩
      exact ⟨y, ys, first, rest, rfl⟩
    · rintro ⟨y, ys, first, rest, rfl⟩
      exact ⟨y, first, ys, rest, rfl⟩

theorem step_some_iff (w w' : Walk) (h : Header) :
    w.step h = some w' ↔ ∃ places order, h.bases.mapM w.place? = some places ∧ places.Nodup ∧
      linearize w.orders.length (places.map w.orderAt) = some order ∧
      w' = { orders := w.orders ++ [order], bound := setKey h.name w.orders.length w.bound } := by
  unfold step
  constructor
  · intro given
    obtain ⟨places, bases, given⟩ := Option.bind_eq_some_iff.mp given
    split at given
    next distinct =>
      obtain ⟨order, merged, made⟩ := Option.bind_eq_some_iff.mp given
      exact ⟨places, order, bases, distinct, merged, (Option.some.inj made).symm⟩
    next => cases given
  · rintro ⟨places, order, bases, distinct, merged, rfl⟩
    simp [bases, distinct, merged]

theorem step_isSound (w w' : Walk) (h : Header) (given : w.step h = some w') (sound : w.IsSound) :
    w'.IsSound := by
  obtain ⟨places, order, _, _, merged, rfl⟩ := (step_some_iff w w' h).mp given
  obtain ⟨above, rfl, _⟩ := linearize_some _ _ order merged
  refine ⟨?_, ?_, ?_, ?_⟩
  · have foundation := sound.foundation
    simp only [List.length_append, List.length_singleton]
    omega
  · intro place within
    simp only [List.length_append, List.length_singleton] at within
    rcases Nat.lt_succ_iff_lt_or_eq.mp within with old | rfl
    · have heads := sound.heads place old
      unfold orderAt at heads ⊢
      rwa [List.getElem?_append_left old]
    · simp [orderAt]
  · intro name place found
    simp only [findKey?_setKey, List.length_append, List.length_singleton] at found ⊢
    split at found
    · cases found
      exact ⟨sound.foundation, by omega⟩
    · obtain ⟨low, high⟩ := sound.bound name place found
      exact ⟨low, by omega⟩
  · intro one other place first second
    simp only [findKey?_setKey, beq_iff_eq] at first second
    -- The new place is that of no name that was bound before.
    have fresh : ∀ name, findKey? name w.bound ≠ some w.orders.length := fun name found =>
      absurd (sound.bound name _ found).2 (Nat.lt_irrefl _)
    split at first <;> split at second
    next same same' => exact same.symm.trans same'
    next =>
      cases first
      exact absurd second (fresh other)
    next =>
      cases second
      exact absurd first (fresh one)
    next => exact sound.apart one other place first second

theorem capability_injective (one other : CapabilityKind)
    (same : Foundation.capability one = Foundation.capability other) : one = other := by
  revert same
  cases one <;> cases other <;> decide

/-- Different bases are at different places. -/
theorem place?_injective (w : Walk) (sound : w.IsSound) (one other : Source.Base) (place : Nat)
    (first : w.place? one = some place) (second : w.place? other = some place) : one = other := by
  -- Whatever is bound by a name comes behind the foundation.
  have model : ∀ name, findKey? name w.bound = some place → Foundation.model ≠ place := by
    rintro name found rfl
    exact absurd (sound.bound name _ found).1 (by decide)
  have capability : ∀ name kind, findKey? name w.bound = some place →
      Foundation.capability kind ≠ place := by
    rintro name kind found rfl
    exact absurd (sound.bound name _ found).1 (by cases kind <;> decide)
  have apart : ∀ kind, Foundation.capability kind ≠ Foundation.model := by
    intro kind
    cases kind <;> decide
  cases one with
  | contract name =>
    cases other with
    | contract name' => rw [sound.apart name name' place first second]
    | capability kind => exact absurd (Option.some.inj second) (capability name kind first)
    | model => exact absurd (Option.some.inj second) (model name first)
  | capability kind =>
    cases other with
    | contract name => exact absurd (Option.some.inj first) (capability name kind second)
    | capability kind' =>
      rw [capability_injective kind kind' (Option.some.inj (first.trans second.symm))]
    | model => exact absurd (Option.some.inj (first.trans second.symm)) (apart kind)
  | model =>
    cases other with
    | contract name => exact absurd (Option.some.inj first) (model name second)
    | capability kind => exact absurd (Option.some.inj (second.trans first.symm)) (apart kind)
    | model => rfl

theorem places_of_mapM (w : Walk) (bases : List Source.Base) (places : List Nat)
    (given : bases.mapM w.place? = some places) : bases.filterMap w.place? = places := by
  have related := (mapM_some_iff _ _ _).mp given
  clear given
  induction related with
  | nil => rfl
  | cons found _ ih => rw [List.filterMap_cons_some found, ih]

theorem mapM_isSome_iff {α β : Type} (f : α → Option β) (xs : List α) :
    (∃ ys, xs.mapM f = some ys) ↔ ∀ x ∈ xs, ∃ y, f x = some y := by
  induction xs with
  | nil => simp
  | cons x xs ih =>
    simp only [List.mapM_cons, List.forall_mem_cons, ← ih]
    constructor
    · rintro ⟨ys, given⟩
      obtain ⟨y, first, given⟩ := Option.bind_eq_some_iff.mp given
      obtain ⟨rest, later, _⟩ := Option.bind_eq_some_iff.mp given
      exact ⟨⟨y, first⟩, rest, later⟩
    · rintro ⟨⟨y, first⟩, rest, later⟩
      exact ⟨y :: rest, by simp [first, later]⟩

/-- Different bases that are bound are bound to different classes. -/
theorem places_nodup (w : Walk) (sound : w.IsSound) (bases : List Source.Base) (places : List Nat)
    (given : bases.mapM w.place? = some places) (distinct : bases.Nodup) : places.Nodup := by
  rw [← places_of_mapM w bases places given]
  refine distinct.filterMap fun one other place first second => ?_
  exact place?_injective w sound one other place first second

theorem place?_lt (w : Walk) (sound : w.IsSound) (base : Source.Base) (place : Nat)
    (found : w.place? base = some place) : place < w.orders.length := by
  have foundation := sound.foundation
  cases base with
  | contract name => exact (sound.bound name place found).2
  | capability kind =>
    cases found
    refine Nat.lt_of_lt_of_le ?_ foundation
    cases kind <;> decide
  | model =>
    cases found
    exact Nat.lt_of_lt_of_le (by decide) foundation

/-- The orders of bound bases start with the bases themselves. -/
theorem heads_of_places (w : Walk) (sound : w.IsSound) (bases : List Source.Base)
    (places : List Nat) (given : bases.mapM w.place? = some places) :
    (places.map w.orderAt).filterMap List.head? = places := by
  have related := (mapM_some_iff _ _ _).mp given
  clear given
  induction related with
  | nil => rfl
  | @cons base place _ _ found _ ih =>
    have first := sound.heads place (place?_lt w sound base place found)
    rw [List.map_cons, List.filterMap_cons_some first, ih]

/-- A statement binds its name and leaves the others bound. -/
theorem step_binds (w w' : Walk) (h : Header) (given : w.step h = some w') :
    (∃ place, findKey? h.name w'.bound = some place) ∧
      ∀ name place, findKey? name w.bound = some place →
        ∃ place', findKey? name w'.bound = some place' := by
  obtain ⟨_, _, _, _, _, rfl⟩ := (step_some_iff w w' h).mp given
  simp only [findKey?_setKey]
  refine ⟨⟨w.orders.length, by simp⟩, fun name place found => ?_⟩
  by_cases same : (h.name == name) = true
  · exact ⟨w.orders.length, by rw [if_pos same]⟩
  · exact ⟨place, by rw [if_neg same, found]⟩

/-- The names of all statements of a walk are bound at its end. -/
theorem run_binds (w w' : Walk) (heads : List Header) (given : w.run heads = some w') :
    (∀ h ∈ heads, ∃ place, findKey? h.name w'.bound = some place) ∧
      ∀ name place, findKey? name w.bound = some place →
        ∃ place', findKey? name w'.bound = some place' := by
  -- A name stays bound, though a later statement may bind it again.
  induction heads generalizing w with
  | nil =>
    cases given
    exact ⟨by simp, fun name place found => ⟨place, found⟩⟩
  | cons h rest ih =>
    obtain ⟨next, first, later⟩ := Option.bind_eq_some_iff.mp given
    obtain ⟨named, kept⟩ := step_binds w next h first
    obtain ⟨others, kept'⟩ := ih next later
    constructor
    · intro other member
      rcases List.mem_cons.mp member with rfl | member
      · obtain ⟨place, found⟩ := named
        exact kept' _ place found
      · exact others other member
    · intro name place found
      obtain ⟨place', found'⟩ := kept name place found
      exact kept' name place' found'

/-- A statement whose bases are different is accepted exactly if they are all bound and their orders
and their list are compatible. -/
theorem step_isSome_iff (w : Walk) (sound : w.IsSound) (h : Header) (distinct : h.bases.Nodup) :
    (∃ w', w.step h = some w') ↔
      (∀ base ∈ h.bases, ∃ place, w.place? base = some place) ∧ Compatible (w.ordersFor h) := by
  rw [← mapM_isSome_iff]
  constructor
  · rintro ⟨w', given⟩
    obtain ⟨places, order, bases, _, merged, _⟩ := (step_some_iff w w' h).mp given
    refine ⟨⟨places, bases⟩, ?_⟩
    have compatible := (linearize_isSome_iff _ _).mp ⟨order, merged⟩
    rw [heads_of_places w sound h.bases places bases] at compatible
    rwa [ordersFor, places_of_mapM w h.bases places bases]
  · rintro ⟨⟨places, bases⟩, compatible⟩
    rw [ordersFor, places_of_mapM w h.bases places bases] at compatible
    have merges := (linearize_isSome_iff w.orders.length (places.map w.orderAt)).mpr (by
      rwa [heads_of_places w sound h.bases places bases])
    obtain ⟨order, merged⟩ := merges
    exact ⟨_, (step_some_iff w _ h).mpr
      ⟨places, order, bases, places_nodup w sound h.bases places bases distinct, merged, rfl⟩⟩

/-- Statements are accepted one after the other exactly if each is accepted after those before
it. -/
theorem run_isSome_iff (w : Walk) (sound : w.IsSound) (heads : List Header)
    (distinct : ∀ h ∈ heads, h.bases.Nodup) :
    (∃ w', w.run heads = some w') ↔ ∀ before h after w', heads = before ++ h :: after →
      w.run before = some w' →
      (∀ base ∈ h.bases, ∃ place, w'.place? base = some place) ∧ Compatible (w'.ordersFor h) := by
  induction heads generalizing w with
  | nil => exact ⟨fun _ before h after _ same => by simp at same, fun _ => ⟨w, rfl⟩⟩
  | cons h rest ih =>
    have accepted := step_isSome_iff w sound h (distinct h List.mem_cons_self)
    have others : ∀ h ∈ rest, h.bases.Nodup := fun h member =>
      distinct h (List.mem_cons_of_mem _ member)
    constructor
    · -- A statement is the first one, or one of those after it.
      rintro ⟨w', given⟩ before other after reached same walked
      obtain ⟨next, first, later⟩ := Option.bind_eq_some_iff.mp given
      cases before with
      | nil =>
        cases same
        cases walked
        exact accepted.mp ⟨next, first⟩
      | cons _ before =>
        cases same
        obtain ⟨next', first', walked⟩ := Option.bind_eq_some_iff.mp walked
        cases first.symm.trans first'
        exact (ih next (step_isSound w next _ first sound) others).mp ⟨w', later⟩ before other
          after reached rfl walked
    · intro each
      obtain ⟨next, first⟩ := accepted.mpr (each [] h rest w rfl rfl)
      obtain ⟨w', later⟩ := (ih next (step_isSound w next h first sound) others).mpr
        fun before other after reached same walked =>
          each (h :: before) other after reached (by rw [same]; rfl)
            (Option.bind_eq_some_iff.mpr ⟨next, first, walked⟩)
      exact ⟨w', Option.bind_eq_some_iff.mpr ⟨next, first, later⟩⟩

end Walk

/-! ## Loading walks over the heads -/

/-- Whether a walk knows the classes of a loading. Only the page information has a name that no
statement has given. -/
structure Agrees (s : Loading) (w : Walk) : Prop where
  orders : s.classes.map (·.order) = w.orders
  bound : ∀ name, name ≠ "PageInfo" → ∀ place,
    s.binding? name = some (.cls place) ↔ findKey? name w.bound = some place

/-- Whether a walk accepts what is loaded, and accepts nothing that has no order. -/
def Tracks (loaded : Except LoadError Loading) (walked : Option Walk) : Prop :=
  match loaded with
  | .ok s => ∃ w, walked = some w ∧ Agrees s w
  | .error e => (∃ name, e = .noOrder name) → walked = none

/-- A computation that does not fail for want of an order. -/
def Orderly {α : Type} (x : Except LoadError α) : Prop := ∀ name, x ≠ .error (.noOrder name)

theorem orderly_ok {α : Type} (a : α) : Orderly (.ok a) := by
  rintro name impossible
  cases impossible

theorem Orderly.bind {α β : Type} {x : Except LoadError α} {f : α → Except LoadError β}
    (first : Orderly x) (rest : ∀ a, Orderly (f a)) : Orderly (x >>= f) := by
  rintro name failed
  rcases (Outcome.bind_error_iff _ _ _).mp failed with now | ⟨a, _, later⟩
  · exact first name now
  · exact rest a name later

theorem Orderly.map {α β : Type} {x : Except LoadError α} (f : α → β) (first : Orderly x) :
    Orderly (x.map f) :=
  fun name failed => first name ((Outcome.map_error_iff f x _).mp failed)

theorem orderly_mapM {α β : Type} (f : α → Except LoadError β) (xs : List α)
    (each : ∀ x, Orderly (f x)) : Orderly (xs.mapM f) := by
  induction xs with
  | nil => exact orderly_ok []
  | cons x xs ih =>
    rw [List.mapM_cons]
    exact (each x).bind fun y => ih.bind fun ys => orderly_ok (y :: ys)

theorem shapeOfMeaning_orderly (world : World) (classes : List (ClassOf Draft)) (name : String)
    (meaning : Meaning) : Orderly (shapeOfMeaning world classes name meaning) := by
  rintro other failed
  unfold shapeOfMeaning at failed
  split at failed
  all_goals first
    | cases failed
    | (split at failed <;> cases failed)

theorem typeShape?_orderly (world : World) (classes : List (ClassOf Draft))
    (meaning? : String → Option Meaning) (type : Source.TypeExpr) (shape : Except LoadError Shape)
    (given : typeShape? world classes meaning? type = some shape) : Orderly shape := by
  obtain ⟨meaning, _, rfl⟩ := Option.map_eq_some_iff.mp given
  exact (shapeOfMeaning_orderly world classes _ meaning).map _

theorem declaredFields_orderly (d : Statement) (s : Loading) : Orderly (d.declaredFields s) := by
  have field : ∀ a, Orderly (d.field s a) := by
    intro a
    unfold Statement.field
    cases given : typeShape? s.world s.classes (d.meaning? s) a.type with
    | none => exact orderly_ok _
    | some shape =>
      exact ((typeShape?_orderly _ _ _ _ shape given).map _).bind fun _ => orderly_ok _
  exact (orderly_mapM _ _ field).bind fun _ => orderly_ok _

theorem orders_of_agrees (s : Loading) (w : Walk) (agrees : Agrees s w) (place : Nat) :
    ((s.classes[place]?).map (·.order)).getD [] = w.orderAt place := by
  rw [Walk.orderAt, ← agrees.orders, List.getElem?_map]

theorem binding?_bind (s : Loading) (name other : String) (binding : Binding) :
    (s.bind name binding).binding? other =
      if name == other then some binding else s.binding? other := by
  unfold Loading.bind Loading.binding?
  rw [findKey?_setKey]
  split <;> rfl

/-- A new class has the same place on both sides. -/
theorem Agrees.extend {s : Loading} {w : Walk} (agrees : Agrees s w) (name : String)
    (c : ClassOf Draft) :
    Agrees ({ s with classes := s.classes ++ [c] }.bind name (.cls w.orders.length))
      { orders := w.orders ++ [c.order], bound := setKey name w.orders.length w.bound } where
  orders := by simp [Loading.bind, agrees.orders]
  bound other different place := by
    have before := agrees.bound other different place
    rw [binding?_bind, findKey?_setKey]
    split
    · simp
    · exact before

/-- A class statement whose bases are at their places is accepted as its head is. -/
theorem load_tracks (d : Statement) (s : Loading) (w : Walk) (agrees : Agrees s w)
    (bases : List Source.Base) (places : bases.mapM w.place? = some d.bases) :
    Tracks (d.load s) (w.step { name := d.name, bases }) := by
  have length : s.classes.length = w.orders.length := by
    rw [← agrees.orders, List.length_map]
  have orders : d.bases.map (fun base => ((s.classes[base]?).map (·.order)).getD []) =
      d.bases.map w.orderAt :=
    List.map_congr_left fun place _ => orders_of_agrees s w agrees place
  -- What is left are the types of the fields, and no error about them is one about an order.
  unfold Statement.load Walk.step
  simp only [orders, length, places]
  by_cases distinct : d.bases.Nodup
  · have same : (d.bases.eraseDups != d.bases) = false := by
      simpa using (eraseDups_eq_iff d.bases).mpr distinct
    simp only [same]
    cases merged : linearize w.orders.length (d.bases.map w.orderAt) with
    | none => exact fun _ => by simp [merged]
    | some order =>
      cases fields : d.declaredFields s with
      | error e =>
        rintro ⟨name, rfl⟩
        exact absurd fields (declaredFields_orderly d s name)
      | ok declared =>
        refine ⟨{ orders := w.orders ++ [order], bound := setKey d.name w.orders.length w.bound },
          by simp [merged, distinct], ?_⟩
        exact agrees.extend d.name _
  · have differ : (d.bases.eraseDups != d.bases) = true := by
      simpa using fun same => distinct ((eraseDups_eq_iff d.bases).mp same)
    simp only [differ]
    exact fun _ => by simp [distinct]

/-- The name of a base that may be looked up by a walk: the page information is no base. -/
def MayDerive (bases : List Source.Base) : Prop := .contract "PageInfo" ∉ bases

theorem basePlace_ok_iff (s : Loading) (w : Walk) (agrees : Agrees s w) (base : Source.Base)
    (other : base ≠ .contract "PageInfo") (place : Nat) :
    basePlace s base = .ok place ↔ w.place? base = some place := by
  cases base with
  | model => simp [basePlace, Walk.place?]
  | capability kind => simp [basePlace, Walk.place?]
  | contract name =>
    have different : name ≠ "PageInfo" := fun same => other (by rw [same])
    rw [Walk.place?, ← agrees.bound name different place]
    simp only [basePlace]
    cases s.binding? name with
    | none => simp
    | some binding => cases binding <;> simp

theorem basePlaces_ok_iff (s : Loading) (w : Walk) (agrees : Agrees s w)
    (bases : List Source.Base) (derive : MayDerive bases) (places : List Nat) :
    bases.mapM (basePlace s) = .ok places ↔ bases.mapM w.place? = some places := by
  rw [Outcome.mapM_ok_iff, Walk.mapM_some_iff]
  induction bases generalizing places with
  | nil => cases places <;> simp
  | cons base rest ih =>
    have other : base ≠ .contract "PageInfo" := fun same => derive (same ▸ List.mem_cons_self)
    have others : MayDerive rest := fun member => derive (List.mem_cons_of_mem base member)
    simp only [List.forall₂_cons_left_iff, ih others, basePlace_ok_iff s w agrees base other]

theorem basePlace_orderly (s : Loading) (base : Source.Base) : Orderly (basePlace s base) := by
  rintro name failed
  cases base with
  | model => cases failed
  | capability kind => cases failed
  | contract name =>
    simp only [basePlace] at failed
    cases found : s.binding? name with
    | none => simp [found] at failed
    | some binding => cases binding <;> simp [found] at failed

/-- A class statement is accepted as its head is. -/
theorem statement_tracks (s : Loading) (w : Walk) (agrees : Agrees s w) (name : String)
    (bases : List Source.Base) (derive : MayDerive bases) (d : List Nat → Statement)
    (same : ∀ places, (d places).name = name ∧ (d places).bases = places) :
    Tracks (bases.mapM (basePlace s) >>= fun places => (d places).load s)
      (w.step { name, bases }) := by
  cases located : bases.mapM (basePlace s) with
  | error e =>
    rintro ⟨name, rfl⟩
    exact absurd located (orderly_mapM _ _ (basePlace_orderly s) name)
  | ok places =>
    obtain ⟨named, based⟩ := same places
    rw [Outcome.ok_bind, ← named]
    refine load_tracks (d places) s w agrees bases ?_
    rw [based]
    exact (basePlaces_ok_iff s w agrees bases derive places).mp located

theorem tracks_bind (x : Except LoadError Loading) (y : Option Walk)
    (f : Loading → Except LoadError Loading) (g : Walk → Option Walk) (first : Tracks x y)
    (rest : ∀ s w, Agrees s w → Tracks (f s) (g w)) : Tracks (x >>= f) (y >>= g) := by
  cases x with
  | error e =>
    intro unordered
    rw [first unordered]
    rfl
  | ok s =>
    obtain ⟨w, rfl, agrees⟩ := first
    exact rest s w agrees

/-- Statements are accepted one after the other as their heads are. -/
theorem foldlM_tracks {α : Type} (f : Loading → α → Except LoadError Loading) (head : α → Header)
    (xs : List α) (s : Loading) (w : Walk) (agrees : Agrees s w)
    (each : ∀ x ∈ xs, ∀ s w, Agrees s w → Tracks (f s x) (w.step (head x))) :
    Tracks (xs.foldlM f s) (w.run (xs.map head)) := by
  induction xs generalizing s w with
  | nil => exact ⟨w, rfl, agrees⟩
  | cons x xs ih =>
    refine tracks_bind _ _ _ _ (each x List.mem_cons_self s w agrees) fun s w agrees => ?_
    exact ih s w agrees fun y member => each y (List.mem_cons_of_mem x member)

theorem loadContract_tracks (c : Source.ContractClass) (derive : MayDerive c.bases) (s : Loading)
    (w : Walk) (agrees : Agrees s w) :
    Tracks (loadContract s c) (w.step { name := c.name, bases := c.bases }) :=
  statement_tracks s w agrees c.name c.bases derive _ fun _ => ⟨rfl, rfl⟩

theorem loadObject_tracks (c : Source.ObjectClass) (derive : MayDerive c.bases) (s : Loading)
    (w : Walk) (agrees : Agrees s w) :
    Tracks (loadObject s c) (w.step { name := nameText c.name, bases := c.bases }) :=
  statement_tracks s w agrees (nameText c.name) c.bases derive _ fun _ => ⟨rfl, rfl⟩

/-! ## Whole modules -/

theorem builtinBinding?_not_class (name : String) (place : Nat) :
    builtinBinding? name ≠ some (.cls place) := by
  unfold builtinBinding?
  split <;> simp

theorem Imports.not_class {world : World} {statement : String} {bindings : List (String × Binding)}
    (imports : Imports world statement bindings) (name : String) (place : Nat) :
    (name, Binding.cls place) ∉ bindings := by
  intro isBound
  cases imports with
  | known found =>
    cases List.mem_singleton.mp isBound
    have listed := findKey?_mem _ _ _ found
    simp [importedNames] at listed
  | builtin origin listed found =>
    cases List.mem_singleton.mp isBound
    exact builtinBinding?_not_class _ place found
  | foreign told => simp at isBound

/-- Before the first class statement no name but that of the page information is bound to a class. -/
theorem start_agrees {world : World} (imports : List String) (s : Loading)
    (given : Loading.start imports world = .ok s) : Agrees s Walk.start := by
  obtain ⟨bindings, rfl, imported⟩ := Loading.start_ok given
  refine ⟨rfl, fun name other place => iff_of_false ?_ (by simp [Walk.start, findKey?])⟩
  intro bound
  rcases Option.or_eq_some_iff.mp ((Option.or_eq_orElse ..).trans bound) with found | ⟨_, found⟩
  · rcases mem_setKeys _ _ _ (findKey?_mem _ _ _ found) with early | late
    · rcases mem_setKeys _ _ _ early with initial | isImport
      · simp [initialScope] at initial
      · obtain ⟨statement, -, own, imports, isOwn⟩ := imported _ isImport
        exact imports.not_class name place isOwn
    · simp [importedScope, other] at late
  · exact builtinBinding?_not_class name place found

/-- Binding a name to something that is no class leaves a walk without names as it is. -/
theorem Agrees.bind_other {s : Loading} {w : Walk} (agrees : Agrees s w) (unnamed : w.bound = [])
    (name : String) (binding : Binding) (other : ∀ place, binding ≠ .cls place) :
    Agrees (s.bind name binding) w where
  orders := agrees.orders
  bound name' different place := by
    rw [binding?_bind]
    split
    · simp [unnamed, findKey?, other place]
    · exact agrees.bound name' different place

theorem loadEnum_agrees (s s' : Loading) (e : Source.EnumClass) (w : Walk)
    (agrees : Agrees s w) (unnamed : w.bound = []) (given : loadEnum s e = .ok s') :
    Agrees s' w := by
  obtain ⟨members, _, given⟩ := (Outcome.bind_ok_iff _ _ _).mp given
  have withEnum : Agrees { s with enums := s.enums ++ [{ name := nameText e.name, members }] } w :=
    ⟨agrees.orders, agrees.bound⟩
  have named := withEnum.bind_other unnamed (nameText e.name) (.enum s.enums.length)
    (by rintro place ⟨⟩)
  split at given
  · obtain ⟨constants, _, given⟩ := (Outcome.bind_ok_iff _ _ _).mp given
    cases given
    exact named.bind_other unnamed _ _ (by rintro place ⟨⟩)
  · cases given
    exact named

theorem enumMembers_orderly (name : String) (seen : List (String × String))
    (members : List Source.Member) : Orderly (enumMembers name seen members) := by
  induction members generalizing seen with
  | nil => exact orderly_ok seen
  | cons m rest ih =>
    unfold enumMembers
    intro other failed
    split at failed
    · exact ih _ other failed
    · simp only [] at failed
      split at failed
      · cases failed
      · split at failed
        · exact ih _ other failed
        · split at failed
          · cases failed
          · exact ih _ other failed

theorem enumBody_orderly (name : String) (body : List Source.Member) :
    Orderly (enumBody name body) := by
  refine (enumMembers_orderly name [] body).bind fun members => ?_
  split
  · intro other failed
    cases failed
  · exact orderly_ok members

theorem companionConstants_orderly (name : String) (body : List Source.Member) :
    Orderly (companionConstants name body) := by
  unfold companionConstants
  split
  · intro other failed
    cases failed
  · exact orderly_ok _

theorem loadEnum_orderly (s : Loading) (e : Source.EnumClass) : Orderly (loadEnum s e) := by
  refine (enumBody_orderly _ _).bind fun members => ?_
  split
  · exact (companionConstants_orderly _ _).bind fun constants => orderly_ok _
  · exact orderly_ok _

theorem importBindings_orderly (world : World) (statement : String) :
    Orderly (importBindings world statement) := by
  intro name failed
  rcases importBindings_cases world statement with ⟨_, same, -⟩ | same | same
  all_goals cases failed.symm.trans same

theorem loadAlias_orderly (s : Loading) (a : Source.Alias) : Orderly (loadAlias s a) := by
  unfold loadAlias
  split
  · split
    · exact orderly_ok _
    · intro name failed
      cases failed
  · refine (orderly_mapM _ _ fun name => ?_).bind fun places => orderly_ok _
    intro other failed
    simp only [aliasPlace] at failed
    cases found : s.binding? name with
    | none => simp [found] at failed
    | some binding => cases binding <;> simp [found] at failed

theorem finishClasses_orderly (s : Loading) : Orderly (finishClasses s) := by
  have draft : ∀ className d, Orderly (finishDraft s className d) := by
    intro className d
    cases d with
    | known shape => exact orderly_ok shape
    | later type =>
      simp only [finishDraft]
      cases given : typeShape? s.world s.classes (finalMeaning? s className) type with
      | none =>
        intro name failed
        cases failed
      | some shape => exact typeShape?_orderly _ _ _ _ shape given
  have finish : ∀ c, Orderly (finishClass s c) := by
    intro c
    refine (orderly_mapM _ _ fun f => ?_).bind fun _ => orderly_ok _
    exact (draft c.name f.shape).bind fun _ => orderly_ok _
  refine (orderly_mapM _ _ finish).bind fun classes => ?_
  split
  · intro name failed
    cases failed
  · exact orderly_ok _

theorem orderly_foldlM {α : Type} (f : Loading → α → Except LoadError Loading) (xs : List α)
    (s : Loading) (each : ∀ s x, Orderly (f s x)) : Orderly (xs.foldlM f s) := by
  induction xs generalizing s with
  | nil => exact orderly_ok s
  | cons x xs ih => exact (each s x).bind fun next => ih next

theorem enums_agree (enums : List Source.EnumClass) (s s' : Loading) (w : Walk)
    (agrees : Agrees s w) (unnamed : w.bound = []) (given : enums.foldlM loadEnum s = .ok s') :
    Agrees s' w := by
  induction enums generalizing s with
  | nil =>
    cases given
    exact agrees
  | cons e rest ih =>
    obtain ⟨next, first, later⟩ := (Outcome.bind_ok_iff _ _ _).mp given
    exact ih next (loadEnum_agrees s next e w agrees unnamed first) later

/-- The contracts and objects of a module are loaded as its heads are accepted. -/
theorem loadClasses_tracks (m : Source.Module) (derive : ∀ h ∈ headers m, MayDerive h.bases)
    (s : Loading) (agrees : Agrees s Walk.start) :
    Tracks (m.contracts.foldlM loadContract s >>= fun s => m.objects.foldlM loadObject s)
      (Walk.start.run (headers m)) := by
  have ofContracts : ∀ c ∈ m.contracts, MayDerive c.bases := fun c member =>
    derive { name := c.name, bases := c.bases }
      (List.mem_append_left _ (List.mem_map_of_mem member))
  have ofObjects : ∀ c ∈ m.objects, MayDerive c.bases := fun c member =>
    derive { name := nameText c.name, bases := c.bases }
      (List.mem_append_right _ (List.mem_map_of_mem member))
  unfold Walk.run headers
  rw [List.foldlM_append]
  refine tracks_bind _ _ _ _ ?_ fun s w agrees => ?_
  · exact foldlM_tracks loadContract _ m.contracts s Walk.start agrees fun c member =>
      loadContract_tracks c (ofContracts c member)
  · exact foldlM_tracks loadObject _ m.objects s w agrees fun c member =>
      loadObject_tracks c (ofObjects c member)

/-- **Class statements are accepted as their heads are.** A module that loads has heads that are
accepted one after the other; a module that is refused because some class has no order has heads
that are not. -/
theorem load_follows_headers (m : Source.Module) (world : World)
    (derive : ∀ h ∈ headers m, MayDerive h.bases) :
    (∀ lib, load m world = .ok lib → ∃ w, Walk.start.run (headers m) = some w) ∧
      ∀ name, load m world = .error (.noOrder name) → Walk.start.run (headers m) = none := by
  constructor
  · -- The heads walk along with the statements.
    intro lib given
    obtain ⟨s₀, started, given⟩ := (Outcome.bind_ok_iff _ _ _).mp given
    obtain ⟨s₁, withEnums, given⟩ := (Outcome.bind_ok_iff _ _ _).mp given
    obtain ⟨s₂, withContracts, given⟩ := (Outcome.bind_ok_iff _ _ _).mp given
    obtain ⟨s₃, withObjects, _⟩ := (Outcome.bind_ok_iff _ _ _).mp given
    have tracked := loadClasses_tracks m derive s₁
      (enums_agree m.enums s₀ s₁ _ (start_agrees _ s₀ started) rfl withEnums)
    rw [withContracts, Outcome.ok_bind, withObjects] at tracked
    obtain ⟨w, walked, _⟩ := tracked
    exact ⟨w, walked⟩
  · -- Only class statements are refused for want of an order.
    intro name failed
    have notStart : Orderly (Loading.start m.imports world) :=
      (orderly_mapM _ _ (importBindings_orderly world)).bind fun _ => orderly_ok _
    rcases (Outcome.bind_error_iff _ _ _).mp failed with early | ⟨s₀, started, failed⟩
    · exact absurd early (notStart name)
    rcases (Outcome.bind_error_iff _ _ _).mp failed with early | ⟨s₁, withEnums, failed⟩
    · exact absurd early (orderly_foldlM _ _ _ loadEnum_orderly name)
    have tracked := loadClasses_tracks m derive s₁
      (enums_agree m.enums s₀ s₁ _ (start_agrees _ s₀ started) rfl withEnums)
    rcases (Outcome.bind_error_iff _ _ _).mp failed with early | ⟨s₂, withContracts, failed⟩
    · rw [early] at tracked
      exact tracked ⟨name, rfl⟩
    rw [withContracts, Outcome.ok_bind] at tracked
    rcases (Outcome.bind_error_iff _ _ _).mp failed with early | ⟨s₃, withObjects, failed⟩
    · rw [early] at tracked
      exact tracked ⟨name, rfl⟩
    rcases (Outcome.bind_error_iff _ _ _).mp failed with early | ⟨s₄, withAliases, failed⟩
    · exact absurd early (orderly_foldlM _ _ _ loadAlias_orderly name)
    rcases (Outcome.bind_error_iff _ _ _).mp failed with early | ⟨finished, _, failed⟩
    · exact absurd early (finishClasses_orderly s₄ name)
    · cases failed

end GraphQLModels.Model

import GraphQLModels.Report
import Mathlib.Data.List.Forall2

/-!
# Outcomes

A report ends in a value or in an error, whatever it warned of on its way: its outcome passes
through every step. A traversal gives a value exactly if every step gives one.
-/

namespace GraphQLModels

namespace Outcome

variable {ε α β : Type}

@[simp] theorem ok_bind (a : α) (f : α → Except ε β) : ((.ok a : Except ε α) >>= f) = f a := rfl

theorem bind_ok_iff (x : Except ε α) (f : α → Except ε β) (b : β) :
    (x >>= f) = .ok b ↔ ∃ a, x = .ok a ∧ f a = .ok b := by
  cases x with
  | error e => simp [bind, Except.bind]
  | ok a => simp [bind, Except.bind]

theorem bind_error_iff (x : Except ε α) (f : α → Except ε β) (e : ε) :
    (x >>= f) = .error e ↔ x = .error e ∨ ∃ a, x = .ok a ∧ f a = .error e := by
  cases x with
  | error other => simp [bind, Except.bind]
  | ok a => simp [bind, Except.bind]

theorem map_ok_iff (f : α → β) (x : Except ε α) (b : β) :
    x.map f = .ok b ↔ ∃ a, x = .ok a ∧ f a = b := by
  cases x with
  | error e => simp [Except.map]
  | ok a => simp [Except.map]

theorem fmap_ok_iff (f : α → β) (x : Except ε α) (b : β) :
    f <$> x = .ok b ↔ ∃ a, x = .ok a ∧ f a = b :=
  map_ok_iff f x b

theorem map_error_iff (f : α → β) (x : Except ε α) (e : ε) :
    x.map f = .error e ↔ x = .error e := by
  cases x with
  | error other => simp [Except.map]
  | ok a => simp [Except.map]

theorem mapError_ok_iff {δ : Type} (f : ε → δ) (x : Except ε α) (a : α) :
    x.mapError f = .ok a ↔ x = .ok a := by
  cases x <;> simp [Except.mapError]

theorem pure_ok_iff (a b : α) : (pure a : Except ε α) = .ok b ↔ a = b := by
  simp [pure, Except.pure]

/-- A traversal gives the values that its steps give. -/
theorem mapM_ok_iff (f : α → Except ε β) (xs : List α) (ys : List β) :
    xs.mapM f = .ok ys ↔ List.Forall₂ (fun x y => f x = .ok y) xs ys := by
  induction xs generalizing ys with
  | nil => cases ys <;> simp [pure, Except.pure]
  | cons x xs ih =>
    rw [List.mapM_cons, bind_ok_iff]
    simp only [bind_ok_iff, pure_ok_iff, ih, List.forall₂_cons_left_iff]
    constructor
    · rintro ⟨y, first, ys, rest, rfl⟩
      exact ⟨y, ys, first, rest, rfl⟩
    · rintro ⟨y, ys, first, rest, rfl⟩
      exact ⟨y, first, ys, rest, rfl⟩

/-- A traversal depends on nothing but its steps at the items. -/
theorem mapM_congr {m : Type → Type} [Monad m] [LawfulMonad m] (f g : α → m β) (xs : List α)
    (same : ∀ x ∈ xs, f x = g x) : xs.mapM f = xs.mapM g := by
  induction xs with
  | nil => rfl
  | cons x xs ih =>
    rw [List.mapM_cons, List.mapM_cons, same x List.mem_cons_self,
      ih fun y member => same y (List.mem_cons_of_mem x member)]

theorem forall₂_left {R : α → β → Prop} {xs : List α} {ys : List β} (related : List.Forall₂ R xs ys)
    (x : α) (member : x ∈ xs) : ∃ y ∈ ys, R x y := by
  induction related with
  | nil => cases member
  | @cons first value _ _ same _ ih =>
    rcases List.mem_cons.mp member with rfl | later
    · exact ⟨value, List.mem_cons_self, same⟩
    · obtain ⟨y, present, same⟩ := ih later
      exact ⟨y, List.mem_cons_of_mem _ present, same⟩

theorem forall₂_right {R : α → β → Prop} {xs : List α} {ys : List β}
    (related : List.Forall₂ R xs ys) (y : β) (member : y ∈ ys) : ∃ x ∈ xs, R x y :=
  forall₂_left related.flip y member

/-- Where items are related to others in two ways, each is so to one of them. -/
theorem forall₂_both {R S : α → β → Prop} {xs : List α} {ys : List β}
    (related : List.Forall₂ R xs ys) (related' : List.Forall₂ S xs ys) :
    ∀ x ∈ xs, ∃ y, R x y ∧ S x y := by
  induction related with
  | nil => exact fun _ member => absurd member List.not_mem_nil
  | @cons x y _ _ first _ ih =>
    cases related' with
    | cons first' others => exact List.forall_mem_cons.mpr ⟨⟨y, first, first'⟩, ih others⟩

/-- Items that are each related to something form a list that is related to another. -/
theorem forall₂_exists {R : α → β → Prop} (xs : List α) (each : ∀ x ∈ xs, ∃ y, R x y) :
    ∃ ys, List.Forall₂ R xs ys := by
  induction xs with
  | nil => exact ⟨[], .nil⟩
  | cons x rest ih =>
    rw [List.forall_mem_cons] at each
    obtain ⟨⟨y, first⟩, others⟩ := each
    obtain ⟨ys, related⟩ := ih others
    exact ⟨y :: ys, .cons first related⟩

/-- A traversal gives values if each step gives one. -/
theorem mapM_exists (f : α → Except ε β) (xs : List α) (each : ∀ x ∈ xs, ∃ y, f x = .ok y) :
    ∃ ys, xs.mapM f = .ok ys := by
  obtain ⟨ys, related⟩ := forall₂_exists xs each
  exact ⟨ys, (mapM_ok_iff f xs ys).mpr related⟩

/-- The items between two lists that are related through them. -/
theorem forall₂_between {γ : Type} {R : α → β → Prop} {S : β → γ → Prop} {xs : List α}
    {zs : List γ} (related : List.Forall₂ (fun x z => ∃ y, R x y ∧ S y z) xs zs) :
    ∃ ys, List.Forall₂ R xs ys ∧ List.Forall₂ S ys zs := by
  induction related with
  | nil => exact ⟨[], .nil, .nil⟩
  | cons first _ ih =>
    obtain ⟨y, left, right⟩ := first
    obtain ⟨ys, lefts, rights⟩ := ih
    exact ⟨y :: ys, .cons left lefts, .cons right rights⟩

/-- What two lists are related by that are each related to a third one. -/
theorem forall₂_through {γ : Type} {R : α → β → Prop} {S : α → γ → Prop} {T : β → γ → Prop}
    {xs : List α} {ys : List β} {zs : List γ} (left : List.Forall₂ R xs ys)
    (right : List.Forall₂ S xs zs) (both : ∀ x ∈ xs, ∀ y z, R x y → S x z → T y z) :
    List.Forall₂ T ys zs := by
  induction left generalizing zs with
  | nil =>
    cases right
    exact .nil
  | @cons x y xs ys first _ ih =>
    cases right with
    | cons second others =>
      rw [List.forall_mem_cons] at both
      exact .cons (both.1 y _ first second) (ih others both.2)

/-- What a traversal gives for one of its items. -/
theorem mapM_mem (f : α → Except ε β) (xs : List α) (ys : List β) (given : xs.mapM f = .ok ys)
    (x : α) (member : x ∈ xs) : ∃ y ∈ ys, f x = .ok y :=
  forall₂_left ((mapM_ok_iff f xs ys).mp given) x member

/-- Where a value of a traversal comes from. -/
theorem mapM_from (f : α → Except ε β) (xs : List α) (ys : List β) (given : xs.mapM f = .ok ys)
    (y : β) (member : y ∈ ys) : ∃ x ∈ xs, f x = .ok y :=
  forall₂_right ((mapM_ok_iff f xs ys).mp given) y member

/-- What related values have in common with each other, the lists have item by item. -/
theorem forall₂_map {γ : Type} {R : α → β → Prop} (g : β → γ) (h : α → γ)
    (same : ∀ x y, R x y → g y = h x) {xs : List α} {ys : List β}
    (related : List.Forall₂ R xs ys) : ys.map g = xs.map h := by
  induction related with
  | nil => rfl
  | @cons x y _ _ first _ ih => rw [List.map_cons, List.map_cons, same x y first, ih]

/-- What all values of a traversal have from the items they come from. -/
theorem mapM_map {γ : Type} (f : α → Except ε β) (g : β → γ) (h : α → γ)
    (same : ∀ x y, f x = .ok y → g y = h x) (xs : List α) (ys : List β)
    (given : xs.mapM f = .ok ys) : ys.map g = xs.map h :=
  forall₂_map g h same ((mapM_ok_iff f xs ys).mp given)

/-- What every step keeps is kept by a run of them. -/
theorem foldlM_preserves {σ : Type} (holds : σ → Prop) (f : σ → α → Except ε σ) (xs : List α)
    (s s' : σ) (before : holds s) (given : xs.foldlM f s = .ok s')
    (each : ∀ x ∈ xs, ∀ s s', holds s → f s x = .ok s' → holds s') : holds s' := by
  induction xs generalizing s with
  | nil =>
    cases given
    exact before
  | cons x rest ih =>
    obtain ⟨next, first, later⟩ := (bind_ok_iff _ _ _).mp given
    exact ih next (each x List.mem_cons_self s next before first) later fun y member =>
      each y (List.mem_cons_of_mem _ member)

/-- A run passes through every one of its steps. -/
theorem foldlM_at {σ : Type} (f : σ → α → Except ε σ) (xs : List α) (s s' : σ)
    (given : xs.foldlM f s = .ok s') (i : Nat) (x : α) (present : xs[i]? = some x) :
    ∃ t u, (xs.take i).foldlM f s = .ok t ∧ f t x = .ok u ∧
      (xs.drop (i + 1)).foldlM f u = .ok s' := by
  obtain ⟨within, rfl⟩ := List.getElem?_eq_some_iff.mp present
  rw [← List.take_append_drop i xs, List.drop_eq_getElem_cons within, List.foldlM_append] at given
  obtain ⟨t, first, given⟩ := (bind_ok_iff _ _ _).mp given
  obtain ⟨u, step, later⟩ := (bind_ok_iff _ _ _).mp given
  exact ⟨t, u, first, step, later⟩

/-- Whether a computation ends in an error. -/
def Fails (x : Except ε α) : Prop := ∃ e, x = .error e

@[simp] theorem fails_error (e : ε) : Fails (.error e : Except ε α) := ⟨e, rfl⟩

@[simp] theorem not_fails_ok (a : α) : ¬Fails (.ok a : Except ε α) := by
  rintro ⟨e, impossible⟩
  cases impossible

theorem not_fails_iff (x : Except ε α) : ¬Fails x ↔ ∃ a, x = .ok a := by
  cases x with
  | error e => simp
  | ok a => simp

@[simp] theorem fails_map (f : α → β) (x : Except ε α) : Fails (x.map f) ↔ Fails x := by
  simp only [Fails, map_error_iff]

theorem fails_bind (x : Except ε α) (f : α → Except ε β) :
    Fails (x >>= f) ↔ Fails x ∨ ∃ a, x = .ok a ∧ Fails (f a) := by
  cases x with
  | error e => simp [bind, Except.bind]
  | ok a => simp [bind, Except.bind]

variable {sort : ε → Prop}

/-- A computation that fails exactly under a condition and with errors of one sort only. -/
structure FailsUnder (sort : ε → Prop) (x : Except ε α) (condition : Prop) : Prop where
  fails : Fails x ↔ condition
  sorted : ∀ e, x = .error e → sort e

theorem FailsUnder.congr {x : Except ε α} {condition other : Prop}
    (under : FailsUnder sort x condition) (same : condition ↔ other) : FailsUnder sort x other :=
  ⟨under.fails.trans same, under.sorted⟩

theorem failsUnder_ok (a : α) : FailsUnder sort (.ok a) False := by
  constructor
  · simp
  · rintro e impossible
    cases impossible

theorem FailsUnder.map {x : Except ε α} {condition : Prop} (f : α → β)
    (under : FailsUnder sort x condition) : FailsUnder sort (x.map f) condition :=
  ⟨(fails_map f x).trans under.fails,
    fun e failed => under.sorted e ((map_error_iff f x e).mp failed)⟩

theorem FailsUnder.bind {x : Except ε α} {f : α → Except ε β} {first rest : Prop}
    (under : FailsUnder sort x first) (then' : ∀ a, x = .ok a → FailsUnder sort (f a) rest) :
    FailsUnder sort (x >>= f) (first ∨ rest) := by
  constructor
  · rw [fails_bind, ← under.fails]
    constructor
    · rintro (now | ⟨a, same, later⟩)
      · exact .inl now
      · exact .inr ((then' a same).fails.mp later)
    · rintro (now | later)
      · exact .inl now
      · by_cases now : Fails x
        · exact .inl now
        · obtain ⟨a, same⟩ := (not_fails_iff x).mp now
          exact .inr ⟨a, same, (then' a same).fails.mpr later⟩
  · intro e failed
    rcases (bind_error_iff _ _ _).mp failed with now | ⟨a, same, later⟩
    · exact under.sorted e now
    · exact (then' a same).sorted e later

theorem FailsUnder.bind_pure {x : Except ε α} {condition : Prop} (f : α → β)
    (under : FailsUnder sort x condition) :
    FailsUnder sort (x >>= fun a => pure (f a)) condition :=
  (under.bind fun _ _ => failsUnder_ok _).congr (by simp)

/-- A step that is taken under a condition only. -/
theorem FailsUnder.when {x : Except ε α} {condition : Prop} (under : FailsUnder sort x condition)
    (taken : Bool) (otherwise : α) :
    FailsUnder sort (if taken then x else .ok otherwise) (taken = true ∧ condition) := by
  cases taken with
  | false => exact (failsUnder_ok otherwise).congr (by simp)
  | true => exact under.congr (by simp)

/-- A traversal all of whose steps fail with one sort of errors. -/
theorem failsUnder_mapM (f : α → Except ε β) (xs : List α) (condition : α → Prop)
    (each : ∀ x ∈ xs, FailsUnder sort (f x) (condition x)) :
    FailsUnder sort (xs.mapM f) (∃ x ∈ xs, condition x) := by
  induction xs with
  | nil => exact (failsUnder_ok []).congr (by simp)
  | cons x xs ih =>
    rw [List.mapM_cons]
    have later := ih fun y member => each y (List.mem_cons_of_mem x member)
    refine ((each x List.mem_cons_self).bind fun _ _ =>
      later.bind fun _ _ => failsUnder_ok _).congr ?_
    simp

/-- How a computation ends: in a value of one sort or in an error of one sort. -/
inductive Ends (good : α → Prop) (bad : ε → Prop) : Except ε α → Prop
  | ok {a : α} (holds : good a) : Ends good bad (.ok a)
  | error {e : ε} (holds : bad e) : Ends good bad (.error e)

theorem Ends.bind {good : α → Prop} {better : β → Prop} {bad : ε → Prop} {x : Except ε α}
    {f : α → Except ε β} (ends : Ends good bad x) (next : ∀ a, good a → Ends better bad (f a)) :
    Ends better bad (x >>= f) := by
  cases ends with
  | ok holds => exact next _ holds
  | error holds => exact .error holds

theorem Ends.mapError {δ : Type} {good : α → Prop} {bad : ε → Prop} {worse : δ → Prop}
    {x : Except ε α} {f : ε → δ} (ends : Ends good bad x) (turns : ∀ e, bad e → worse (f e)) :
    Ends good worse (x.mapError f) := by
  cases ends with
  | ok holds => exact .ok holds
  | error holds => exact .error (turns _ holds)

/-- A traversal ends as its steps do. -/
theorem ends_mapM {good : β → Prop} {bad : ε → Prop} (f : α → Except ε β) (xs : List α)
    (each : ∀ x ∈ xs, Ends good bad (f x)) :
    Ends (fun ys => ∀ y ∈ ys, good y) bad (xs.mapM f) := by
  induction xs with
  | nil => exact .ok fun _ => nofun
  | cons x rest ih =>
    rw [List.forall_mem_cons] at each
    rw [List.mapM_cons]
    refine each.1.bind fun y first => (ih each.2).bind fun ys later => .ok ?_
    exact List.forall_mem_cons.mpr ⟨first, later⟩

end Outcome

namespace Report

variable {ε α β : Type}

instance : LawfulMonad (Report ε) := by
  refine LawfulMonad.mk' (Report ε) ?_ ?_ ?_
  · rintro α ⟨warnings, events, outcome⟩
    cases outcome <;> simp [Functor.map, andThen]
  · intro α β a f
    simp [bind, andThen, pure]
  · rintro α β γ ⟨warnings, events, outcome⟩ f g
    cases outcome with
    | error e => simp [bind, andThen]
    | ok a =>
      rcases h : f a with ⟨more, told, result⟩
      cases result <;> simp [bind, andThen, h]

@[simp] theorem outcome_pure (a : α) : (pure a : Report ε α).outcome = .ok a := rfl

@[simp] theorem outcome_throw (e : ε) : (throw e : Report ε α).outcome = .error e := rfl

@[simp] theorem outcome_warn (w : Warning) : (warn w : Report ε Unit).outcome = .ok () := rfl

@[simp] theorem outcome_tell (e : Event) : (tell e : Report ε Unit).outcome = .ok () := rfl

@[simp] theorem outcome_lift (x : Except ε α) : (liftM x : Report ε α).outcome = x := rfl

theorem lift_ok_bind (a : α) (f : α → Report ε β) :
    ((liftM (.ok a : Except ε α) : Report ε α) >>= f) = f a := rfl

@[simp] theorem outcome_bind (r : Report ε α) (f : α → Report ε β) :
    (r >>= f).outcome = r.outcome >>= fun a => (f a).outcome := by
  rcases r with ⟨warnings, events, outcome⟩
  cases outcome with
  | error e => rfl
  | ok a => rfl

@[simp] theorem outcome_map (f : α → β) (r : Report ε α) :
    (f <$> r).outcome = f <$> r.outcome := by
  rw [map_eq_pure_bind, outcome_bind, map_eq_pure_bind]
  rfl

@[simp] theorem warnings_map (f : α → β) (r : Report ε α) : (f <$> r).warnings = r.warnings := by
  rcases r with ⟨warnings, events, outcome⟩
  cases outcome <;> simp [Functor.map, andThen]

@[simp] theorem outcome_mapM (f : α → Report ε β) (xs : List α) :
    (xs.mapM f).outcome = xs.mapM fun x => (f x).outcome := by
  induction xs with
  | nil => rfl
  | cons x xs ih =>
    rw [List.mapM_cons, List.mapM_cons, outcome_bind]
    simp only [outcome_bind, ih, outcome_pure]
    rfl

end Report

end GraphQLModels

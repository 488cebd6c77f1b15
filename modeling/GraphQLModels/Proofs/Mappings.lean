import GraphQLModels.Options
import Mathlib.Data.List.Nodup

/-!
# Mappings

A mapping is a list of keys and values in which a key keeps its first place and takes its last
value. Where no key comes twice, setting keys one after the other only adds them at the end.
-/

namespace GraphQLModels

/-- Where two different items have one image exactly if one is related to the other, the images are
different exactly if no items are related. -/
theorem nodup_map_iff_unrelated {α β : Type} (f : α → β) (related : α → α → Prop)
    (different : ∀ a b, related a b → a ≠ b)
    (same_iff : ∀ a b, a ≠ b → (f a = f b ↔ related a b ∨ related b a)) (items : List α)
    (distinct : items.Nodup) :
    (items.map f).Nodup ↔ ∀ a ∈ items, ∀ b ∈ items, ¬related a b := by
  rw [List.nodup_map_iff_inj_on distinct]
  constructor
  · intro injective a isA b isB holds
    have other := different a b holds
    exact other (injective a isA b isB ((same_iff a b other).mpr (.inl holds)))
  · intro apart a isA b isB same
    by_contra other
    rcases (same_iff a b other).mp same with holds | holds
    · exact apart a isA b isB holds
    · exact apart b isB a isA holds

/-- Where items have different keys, each of them is found under its key. -/
theorem find?_of_distinct {ι κ : Type} [BEq κ] [LawfulBEq κ] (key : ι → κ) {items : List ι}
    (distinct : (items.map key).Nodup) {item : ι} (member : item ∈ items) :
    items.find? (fun other => key other == key item) = some item := by
  have isFound : (items.find? fun other => key other == key item).isSome :=
    List.find?_isSome.mpr ⟨item, member, beq_self_eq_true _⟩
  obtain ⟨first, found⟩ := Option.isSome_iff_exists.mp isFound
  have same : key first = key item := by simpa using List.find?_some found
  rw [found, List.inj_on_of_nodup_map distinct (List.mem_of_find?_eq_some found) member same]

variable {κ α : Type} [BEq κ]

theorem mem_setKey (key : κ) (value : α) (entries : List (κ × α)) [LawfulBEq κ] (entry : κ × α)
    (member : entry ∈ setKey key value entries) : entry = (key, value) ∨ entry ∈ entries := by
  induction entries with
  | nil => exact .inl (List.mem_singleton.mp member)
  | cons first rest ih =>
    rcases first with ⟨known, old⟩
    unfold setKey at member
    by_cases same : (known == key) = true
    · rw [if_pos same] at member
      rw [eq_of_beq same] at member ⊢
      rcases List.mem_cons.mp member with rfl | later
      · exact .inl rfl
      · exact .inr (List.mem_cons_of_mem _ later)
    · rw [if_neg same] at member
      rcases List.mem_cons.mp member with rfl | later
      · exact .inr List.mem_cons_self
      · exact (ih later).imp_right (List.mem_cons_of_mem _)

theorem mem_setKeys (base entries : List (κ × α)) [LawfulBEq κ] (entry : κ × α)
    (member : entry ∈ setKeys base entries) : entry ∈ base ∨ entry ∈ entries := by
  induction entries generalizing base with
  | nil => exact .inl member
  | cons first rest ih =>
    rcases ih (setKey first.1 first.2 base) member with earlier | later
    · rcases mem_setKey first.1 first.2 base entry earlier with rfl | old
      · exact .inr List.mem_cons_self
      · exact .inl old
    · exact .inr (List.mem_cons_of_mem _ later)

theorem findKey?_mem [LawfulBEq κ] (key : κ) (value : α) (entries : List (κ × α))
    (found : findKey? key entries = some value) : (key, value) ∈ entries := by
  obtain ⟨⟨known, _⟩, listed, rfl⟩ := Option.map_eq_some_iff.mp found
  have same : known = key := by simpa using List.find?_some listed
  exact same ▸ List.mem_of_find?_eq_some listed

/-- Setting a key changes what is found under that key only. -/
theorem findKey?_setKey (key other : κ) (value : α) (entries : List (κ × α)) [LawfulBEq κ] :
    findKey? other (setKey key value entries) =
      if key == other then some value else findKey? other entries := by
  induction entries with
  | nil => by_cases same : (key == other) = true <;> simp [setKey, findKey?, same]
  | cons first rest ih =>
    rcases first with ⟨known, old⟩
    unfold setKey
    by_cases replaced : (known == key) = true
    · rw [if_pos replaced, eq_of_beq replaced]
      by_cases same : (key == other) = true <;> simp [findKey?, same]
    · rw [if_neg replaced]
      by_cases found : (known == other) = true
      · have different : (key == other) = false := by
          cases eq_of_beq found
          simpa [BEq.comm] using replaced
        simp [findKey?, found, different]
      · simpa [findKey?, found] using ih

/-- A key that is set is there afterwards, at the end if it is new. -/
theorem keys_setKey [LawfulBEq κ] (key : κ) (value : α) (entries : List (κ × α)) :
    (setKey key value entries).map (·.1) =
      if entries.any (fun entry => entry.1 == key) then entries.map (·.1)
      else entries.map (·.1) ++ [key] := by
  induction entries with
  | nil => rfl
  | cons first rest ih =>
    rcases first with ⟨known, old⟩
    unfold setKey
    cases same : known == key with
    | true => simp [same]
    | false =>
      simp only [Bool.false_eq_true, if_false, List.map_cons, ih, List.any_cons, same,
        Bool.false_or]
      split <;> rfl

theorem any_key_iff [LawfulBEq κ] (key : κ) (entries : List (κ × α)) :
    entries.any (fun entry => entry.1 == key) = true ↔ key ∈ entries.map (·.1) := by
  simp [List.any_eq_true]

theorem mem_keys_setKey [LawfulBEq κ] (key other : κ) (value : α) (entries : List (κ × α)) :
    other ∈ (setKey key value entries).map (·.1) ↔ other = key ∨ other ∈ entries.map (·.1) := by
  rw [keys_setKey]
  split
  · rename_i known
    rw [any_key_iff] at known
    exact ⟨.inr, fun given => given.elim (fun same => same ▸ known) id⟩
  · rw [List.mem_append, List.mem_singleton, or_comm]

/-- The keys of a mapping with others set on top are those of both. -/
theorem mem_keys_setKeys [LawfulBEq κ] (base entries : List (κ × α)) (key : κ) :
    key ∈ (setKeys base entries).map (·.1) ↔ key ∈ base.map (·.1) ∨ key ∈ entries.map (·.1) := by
  induction entries generalizing base with
  | nil => simp [setKeys]
  | cons first rest ih =>
    have step : setKeys base (first :: rest) = setKeys (setKey first.1 first.2 base) rest := rfl
    rw [step, ih, mem_keys_setKey, List.map_cons, List.mem_cons]
    constructor
    · rintro ((same | old) | later)
      · exact .inr (.inl same)
      · exact .inl old
      · exact .inr (.inr later)
    · rintro (old | same | later)
      · exact .inl (.inr old)
      · exact .inl (.inl same)
      · exact .inr later

theorem setKey_nodup [LawfulBEq κ] (key : κ) (value : α) (entries : List (κ × α))
    (distinct : (entries.map (·.1)).Nodup) : ((setKey key value entries).map (·.1)).Nodup := by
  rw [keys_setKey]
  split
  · exact distinct
  · rename_i fresh
    rw [any_key_iff] at fresh
    simpa using List.Nodup.concat fresh distinct

theorem setKeys_nodup [LawfulBEq κ] (base entries : List (κ × α))
    (distinct : (base.map (·.1)).Nodup) : ((setKeys base entries).map (·.1)).Nodup := by
  induction entries generalizing base with
  | nil => exact distinct
  | cons first rest ih => exact ih _ (setKey_nodup first.1 first.2 base distinct)

theorem findKey?_eq_none_iff [LawfulBEq κ] (key : κ) (entries : List (κ × α)) :
    findKey? key entries = none ↔ key ∉ entries.map (·.1) := by
  rw [findKey?, Option.map_eq_none_iff, List.find?_eq_none, List.mem_map]
  constructor
  · rintro none ⟨entry, member, rfl⟩
    exact none entry member BEq.rfl
  · intro absent entry member same
    exact absent ⟨entry, member, eq_of_beq same⟩

/-- Under different keys, what is found is what is there. -/
theorem findKey?_eq_some_iff [LawfulBEq κ] (key : κ) (value : α) (entries : List (κ × α))
    (distinct : (entries.map (·.1)).Nodup) :
    findKey? key entries = some value ↔ (key, value) ∈ entries := by
  refine ⟨findKey?_mem key value entries, fun member => ?_⟩
  cases found : findKey? key entries with
  | none =>
    have absent := (findKey?_eq_none_iff key entries).mp found
    exact absurd (List.mem_map_of_mem member) absent
  | some other =>
    have there := findKey?_mem key other entries found
    exact congrArg (fun entry => some entry.2)
      ((List.nodup_map_iff_inj_on (List.Nodup.of_map _ distinct)).mp distinct _ there _ member rfl)

/-- Under different keys, the order of the entries does not matter to what is found. -/
theorem findKey?_reverse [LawfulBEq κ] (key : κ) (entries : List (κ × α))
    (distinct : (entries.map (·.1)).Nodup) :
    findKey? key entries.reverse = findKey? key entries := by
  have turned : (entries.reverse.map (·.1)).Nodup := by
    rw [List.map_reverse]
    exact List.nodup_reverse.mpr distinct
  ext value
  rw [findKey?_eq_some_iff key value _ turned, findKey?_eq_some_iff key value _ distinct,
    List.mem_reverse]

theorem findKey?_append (key : κ) (first second : List (κ × α)) :
    findKey? key (first ++ second) = (findKey? key first).orElse fun _ => findKey? key second := by
  unfold findKey?
  rw [List.find?_append]
  cases first.find? fun entry => entry.1 == key <;> rfl

/-- What is found after keys were set is what the last of them set, and what was there before where
none of them did. -/
theorem findKey?_setKeys [LawfulBEq κ] (base entries : List (κ × α)) (key : κ) :
    findKey? key (setKeys base entries) =
      (findKey? key entries.reverse).orElse fun _ => findKey? key base := by
  induction entries generalizing base with
  | nil => rfl
  | cons first rest ih =>
    rcases first with ⟨known, value⟩
    have step : setKeys base ((known, value) :: rest) = setKeys (setKey known value base) rest :=
      rfl
    rw [step, ih, findKey?_setKey, List.reverse_cons, findKey?_append]
    cases findKey? key rest.reverse with
    | some last => rfl
    | none => by_cases same : (known == key) = true <;> simp [findKey?, same]

section Related

variable {ν β : Type} [BEq ν] [LawfulBEq κ] [LawfulBEq ν] (related : κ × α → ν × β → Prop)
  (sameKeys : ∀ e f e' f', related e f → related e' f' → (e.1 = e'.1 ↔ f.1 = f'.1))

include sameKeys

/-- Mappings stay related entry by entry when related entries are set in both. -/
theorem forall₂_setKey (e : κ × α) (f : ν × β) (new : related e f) {base : List (κ × α)}
    {other : List (ν × β)} (old : List.Forall₂ related base other) :
    List.Forall₂ related (setKey e.1 e.2 base) (setKey f.1 f.2 other) := by
  induction old with
  | nil => exact .cons new .nil
  | @cons known known' rest rest' first later ih =>
    have keys := sameKeys known known' e f first new
    unfold setKey
    by_cases same : known.1 = e.1
    · have same' := keys.mp same
      rw [if_pos (beq_iff_eq.mpr same), if_pos (beq_iff_eq.mpr same'), same, same']
      exact .cons new later
    · have differ := mt keys.mpr same
      rw [if_neg (mt beq_iff_eq.mp same), if_neg (mt beq_iff_eq.mp differ)]
      exact .cons first ih

theorem forall₂_setKeys {entries : List (κ × α)} {others : List (ν × β)}
    (new : List.Forall₂ related entries others) {base : List (κ × α)} {base' : List (ν × β)}
    (old : List.Forall₂ related base base') :
    List.Forall₂ related (setKeys base entries) (setKeys base' others) := by
  induction new generalizing base base' with
  | nil => exact old
  | @cons e f rest rest' first _ ih => exact ih (forall₂_setKey related sameKeys e f first old)

end Related

/-- A new key comes last. -/
theorem setKey_fresh [LawfulBEq κ] (key : κ) (value : α) (entries : List (κ × α))
    (fresh : key ∉ entries.map (·.1)) : setKey key value entries = entries ++ [(key, value)] := by
  induction entries with
  | nil => rfl
  | cons first rest ih =>
    rcases first with ⟨known, old⟩
    rw [List.map_cons, List.mem_cons, not_or] at fresh
    have other : (known == key) = false := by simpa using Ne.symm fresh.1
    rw [setKey, other, if_neg Bool.false_ne_true, ih fresh.2, List.cons_append]

theorem setKeys_distinct [LawfulBEq κ] (base entries : List (κ × α))
    (distinct : ((base ++ entries).map (·.1)).Nodup) : setKeys base entries = base ++ entries := by
  induction entries generalizing base with
  | nil => exact (List.append_nil base).symm
  | cons first rest ih =>
    have fresh : first.1 ∉ base.map (·.1) := by
      rw [List.map_append, List.map_cons, List.nodup_append] at distinct
      exact fun old => distinct.2.2 _ old _ List.mem_cons_self rfl
    have step : setKeys base (first :: rest) = setKeys (base ++ [first]) rest := by
      rw [setKeys, List.foldl_cons, setKey_fresh first.1 first.2 base fresh]
      rfl
    rw [step, ih (base ++ [first]) (by simpa using distinct), List.append_assoc]
    rfl

theorem length_setKey_le [LawfulBEq κ] (key : κ) (value : α) (entries : List (κ × α)) :
    (setKey key value entries).length ≤ entries.length + 1 := by
  rw [← List.length_map (·.1), keys_setKey]
  split <;> simp

theorem length_setKeys_le [LawfulBEq κ] (base entries : List (κ × α)) :
    (setKeys base entries).length ≤ base.length + entries.length := by
  induction entries generalizing base with
  | nil => exact Nat.le_refl _
  | cons first rest ih =>
    have step := ih (setKey first.1 first.2 base)
    have first := length_setKey_le first.1 first.2 base
    rw [List.length_cons]
    exact Nat.le_trans step (by omega)

/-- Keys of which none is lost are all different. -/
theorem distinct_of_length_setKeys [LawfulBEq κ] (base entries : List (κ × α))
    (distinct : (base.map (·.1)).Nodup)
    (all : (setKeys base entries).length = base.length + entries.length) :
    ((base ++ entries).map (·.1)).Nodup := by
  induction entries generalizing base with
  | nil => simpa using distinct
  | cons first rest ih =>
    have step : setKeys base (first :: rest) = setKeys (setKey first.1 first.2 base) rest := rfl
    have bound := length_setKeys_le (setKey first.1 first.2 base) rest
    rw [step, List.length_cons] at all
    have fresh : first.1 ∉ base.map (·.1) := by
      intro old
      have same : (setKey first.1 first.2 base).length = base.length := by
        rw [← List.length_map (·.1), keys_setKey, if_pos ((any_key_iff _ _).mpr old),
          List.length_map]
      omega
    rw [setKey_fresh _ _ _ fresh] at all
    have later := ih (base ++ [first]) (by simpa using List.Nodup.concat fresh distinct) (by
      rw [all, List.length_append, List.length_singleton]
      omega)
    simpa using later

end GraphQLModels

import Mathlib.Data.Finset.Card
import Mathlib.Data.List.Induction
import OefCore.CppUtils.BucketsOf

/-
  The numbers that a sequence of `get` calls hands out, and
  the places that they stand for.

  Main declarations:
    * `BucketsOf.gets`, `BucketsOf.interning`
    * `BucketsOf.Interned`, `BucketsOf.slot`
    * `BucketsOf.Identities`, `BucketsOf.identities_interning`
-/

namespace OefCore

namespace BucketsOf

variable {CONTENTS NAME : Type} {bucketSize : Nat}

------------------------------------------------------------
-- Sequences of Calls
------------------------------------------------------------

section Gets

variable [Inhabited CONTENTS] [DecidableEq NAME]

/- Calls of `get` after one another, with what they return. -/
def gets
    (self : BucketsOf CONTENTS NAME bucketSize) :
    List NAME → List Nat × BucketsOf CONTENTS NAME bucketSize
  | [] => ([], self)
  | name :: rest =>
      let got := self.get name
      let others := got.2.gets rest
      (got.1 :: others.1, others.2)

theorem gets_append
    (self : BucketsOf CONTENTS NAME bucketSize)
    (names more : List NAME) :
    self.gets (names ++ more) =
      ((self.gets names).1 ++ ((self.gets names).2.gets more).1,
        ((self.gets names).2.gets more).2) := by
  induction names generalizing self with
  | nil => simp [gets]
  | cons name rest ih => simp [gets, ih]

theorem gets_snoc
    (self : BucketsOf CONTENTS NAME bucketSize)
    (names : List NAME)
    (name : NAME) :
    self.gets (names ++ [name]) =
      ((self.gets names).1 ++
          [((self.gets names).2.get name).1],
        ((self.gets names).2.get name).2) := by
  simp [gets_append, gets]

/- Buckets are added behind those that are there. -/
theorem buckets_get
    (self : BucketsOf CONTENTS NAME bucketSize)
    (name : NAME) :
    self.buckets <+: (self.get name).2.buckets := by
  unfold get
  cases self.names name with
  | some number => exact List.prefix_rfl
  | none =>
      simp only [locklessExtend]
      split
      · exact List.prefix_append _ _
      · exact List.prefix_rfl

theorem buckets_gets
    (self : BucketsOf CONTENTS NAME bucketSize)
    (names : List NAME) :
    self.buckets <+: (self.gets names).2.buckets := by
  induction names generalizing self with
  | nil => exact List.prefix_rfl
  | cons name rest ih =>
      exact (self.buckets_get name).trans (ih _)

/- Nothing that was written is lost. -/
theorem access_gets
    (self : BucketsOf CONTENTS NAME bucketSize)
    (names : List NAME)
    (index : Nat) :
    (self.gets names).2.access index = self.access index := by
  induction names generalizing self with
  | nil => rfl
  | cons name rest ih =>
      simp only [gets, ih, access_get]

end Gets

------------------------------------------------------------
-- Slots
------------------------------------------------------------

/- The bucket that `access` looks into, and where in it. -/
def slot (bucketSize index : Nat) : Nat × Nat :=
  (index / bucketSize, index % bucketSize)

theorem access_eq_slot
    [Inhabited CONTENTS]
    (self : BucketsOf CONTENTS NAME bucketSize)
    (index : Nat) :
    self.access index =
      (self.buckets.getD (slot bucketSize index).1 []).getD
        (slot bucketSize index).2 default :=
  rfl

theorem slot_injective (bucketSize : Nat) :
    Function.Injective (slot bucketSize) := by
  intro index other hSlot
  simp only [slot, Prod.mk.injEq] at hSlot
  rw [← Nat.div_add_mod index bucketSize, hSlot.1, hSlot.2,
    Nat.div_add_mod]

------------------------------------------------------------
-- Names and Numbers
------------------------------------------------------------

section Interning

variable [Inhabited CONTENTS] [DecidableEq NAME]

/- What is known when `names` were asked for and `ids` were
   handed out. -/
structure Interned
    (names : List NAME)
    (ids : List Nat)
    (store : BucketsOf CONTENTS NAME bucketSize) : Prop where
  regular : store.Regular
  known : ∀ name, store.names name ≠ none ↔ name ∈ names
  size_eq : store.size = names.toFinset.card
  used : ∀ id, id < store.size →
    ∃ name, store.names name = some id
  ids_eq : ids.map some = names.map store.names

theorem interned_construct :
    Interned [] []
      (construct : BucketsOf CONTENTS NAME bucketSize) where
  regular := regular_construct
  known := by simp [construct]
  size_eq := by simp [construct]
  used := by simp [construct]
  ids_eq := by simp

/- Who has a number keeps it, and a new name gets the one that
   is handed out. -/
theorem Interned.ids_get
    {names : List NAME}
    {ids : List Nat}
    {store : BucketsOf CONTENTS NAME bucketSize}
    (hInterned : Interned names ids store)
    (name : NAME) :
    (ids ++ [(store.get name).1]).map some =
      (names ++ [name]).map (store.get name).2.names := by
  have hOld : ∀ other ∈ names,
      (store.get name).2.names other = store.names other := by
    intro other hOther
    have hKnown := (hInterned.known other).mpr hOther
    rcases Option.ne_none_iff_exists'.mp hKnown with ⟨id, hId⟩
    rw [names_get_of_known name hId, hId]
  rw [List.map_append, List.map_append, hInterned.ids_eq,
    List.map_congr_left fun other hOther =>
      (hOld other hOther).symm]
  simp [names_get]

/- A name that is known is no new one. -/
theorem Interned.get_of_known
    {names : List NAME}
    {ids : List Nat}
    {store : BucketsOf CONTENTS NAME bucketSize}
    (hInterned : Interned names ids store)
    {name : NAME}
    {id : Nat}
    (hName : store.names name = some id) :
    Interned (names ++ [name]) (ids ++ [(store.get name).1])
      (store.get name).2 := by
  have hIds := hInterned.ids_get name
  have hMem : name ∈ names := by
    rw [← hInterned.known name, hName]
    exact Option.some_ne_none id
  rw [BucketsOf.get_of_known hName] at hIds ⊢
  constructor
  · exact hInterned.regular
  · intro other
    rw [hInterned.known other]
    simp only [List.mem_append, List.mem_singleton]
    constructor
    · exact Or.inl
    · rintro (hOther | rfl)
      · exact hOther
      · exact hMem
  · simpa [List.toFinset_append, hMem] using hInterned.size_eq
  · exact hInterned.used
  · exact hIds

/- A new name takes the next number. -/
theorem Interned.get_of_new
    (hPositive : 0 < bucketSize)
    {names : List NAME}
    {ids : List Nat}
    {store : BucketsOf CONTENTS NAME bucketSize}
    (hInterned : Interned names ids store)
    {name : NAME}
    (hName : store.names name = none) :
    Interned (names ++ [name]) (ids ++ [(store.get name).1])
      (store.get name).2 := by
  have hNew : name ∉ names := by
    rw [← hInterned.known name]
    simp [hName]
  rcases BucketsOf.get_of_new hName with ⟨-, hNames, hSize⟩
  constructor
  · exact hInterned.regular.get hPositive name
  · intro other
    rw [hNames]
    by_cases hOther : other = name
    · simp [hOther]
    · simp [hOther, ← hInterned.known other]
  · have hMore :
        (names ++ [name]).toFinset =
          insert name names.toFinset := by
      ext other
      simp
    rw [hSize, hMore, Finset.card_insert_of_notMem
      (by simpa using hNew), hInterned.size_eq]
  · intro id hId
    rw [hSize] at hId
    rw [hNames]
    rcases Nat.lt_succ_iff_lt_or_eq.mp hId with hBefore | hLast
    · rcases hInterned.used id hBefore with ⟨other, hUsed⟩
      have hOther : other ≠ name := by
        intro hSame
        rw [hSame, hName] at hUsed
        exact nomatch hUsed
      exact ⟨other, by simp [hOther, hUsed]⟩
    · exact ⟨name, by simp [hLast]⟩
  · exact hInterned.ids_get name

theorem Interned.get
    (hPositive : 0 < bucketSize)
    {names : List NAME}
    {ids : List Nat}
    {store : BucketsOf CONTENTS NAME bucketSize}
    (hInterned : Interned names ids store)
    (name : NAME) :
    Interned (names ++ [name]) (ids ++ [(store.get name).1])
      (store.get name).2 := by
  cases hName : store.names name with
  | some id => exact hInterned.get_of_known hName
  | none => exact hInterned.get_of_new hPositive hName

/- What is handed out for `names`, and what is left. -/
def interning
    (CONTENTS : Type)
    [Inhabited CONTENTS]
    (bucketSize : Nat)
    (names : List NAME) :
    List Nat × BucketsOf CONTENTS NAME bucketSize :=
  construct.gets names

theorem interned_interning
    (hPositive : 0 < bucketSize)
    (names : List NAME) :
    Interned names (interning CONTENTS bucketSize names).1
      (interning CONTENTS bucketSize names).2 := by
  induction names using List.reverseRecOn with
  | nil => exact interned_construct
  | append_singleton names name ih =>
      unfold interning at ih ⊢
      rw [gets_snoc]
      exact ih.get hPositive name

------------------------------------------------------------
-- Identities
------------------------------------------------------------

/-
  Numbers that are as good as the names they were handed out
  for, and the slots they denote: none is out of range, none
  moves, and none is another one's.
-/
structure Identities
    (names : List NAME)
    (ids : List Nat)
    (store : BucketsOf CONTENTS NAME bucketSize) : Prop where
  length_eq : ids.length = names.length
  consecutive : ∀ id, id ∈ ids ↔ id < names.toFinset.card
  same_iff : ∀ i j : Nat, i < names.length → j < names.length →
    (ids[i]? = ids[j]? ↔ names[i]? = names[j]?)
  inRange : ∀ id ∈ ids, store.HasSlot id
  unmoved : ∀ id ∈ ids, ∀ more,
    (store.gets more).2.buckets[(slot bucketSize id).1]? =
      store.buckets[(slot bucketSize id).1]?
  apart : ∀ id ∈ ids, ∀ other ∈ ids,
    slot bucketSize other = slot bucketSize id → other = id
  lasting : ∀ id ∈ ids, ∀ contents more,
    ((store.store id contents).gets more).2.access id = contents
  untouched : ∀ id ∈ ids, ∀ other ∈ ids, other ≠ id →
    ∀ contents more,
      ((store.store id contents).gets more).2.access other =
        store.access other

theorem Interned.getElem?_eq
    {names : List NAME}
    {ids : List Nat}
    {store : BucketsOf CONTENTS NAME bucketSize}
    (hInterned : Interned names ids store)
    (i : Nat) :
    ids[i]?.map some = names[i]?.map store.names := by
  rw [← List.getElem?_map, ← List.getElem?_map,
    hInterned.ids_eq]

theorem Interned.mem_iff
    {names : List NAME}
    {ids : List Nat}
    {store : BucketsOf CONTENTS NAME bucketSize}
    (hInterned : Interned names ids store)
    (id : Nat) :
    id ∈ ids ↔ id < store.size := by
  have hMem : id ∈ ids ↔ some id ∈ names.map store.names := by
    rw [← hInterned.ids_eq]
    simp
  rw [hMem, List.mem_map]
  constructor
  · rintro ⟨name, -, hName⟩
    exact hInterned.regular.numbered name id hName
  · intro hUsed
    rcases hInterned.used id hUsed with ⟨name, hName⟩
    refine ⟨name, ?_, hName⟩
    rw [← hInterned.known name, hName]
    exact Option.some_ne_none id

theorem Interned.same_iff
    {names : List NAME}
    {ids : List Nat}
    {store : BucketsOf CONTENTS NAME bucketSize}
    (hInterned : Interned names ids store)
    {i j : Nat}
    (hFirst : i < names.length)
    (hSecond : j < names.length) :
    ids[i]? = ids[j]? ↔ names[i]? = names[j]? := by
  have hInjective : Function.Injective
      (Option.map (some : Nat → Option Nat)) :=
    Option.map_injective (Option.some_injective _)
  rw [← hInjective.eq_iff, hInterned.getElem?_eq,
    hInterned.getElem?_eq, List.getElem?_eq_getElem hFirst,
    List.getElem?_eq_getElem hSecond]
  simp only [Option.map_some, Option.some.injEq]
  constructor
  · intro hSame
    have hKnown := (hInterned.known names[i]).mpr
      (List.getElem_mem hFirst)
    rcases Option.ne_none_iff_exists'.mp hKnown with ⟨id, hId⟩
    exact hInterned.regular.distinct _ _ id hId
      (hSame ▸ hId)
  · intro hSame
    rw [hSame]

/- The numbers are 0 to k - 1 for k names, each name has its
   own, and each stands for one slot for ever. -/
theorem identities_interning
    (hPositive : 0 < bucketSize)
    (names : List NAME) :
    Identities names (interning CONTENTS bucketSize names).1
      (interning CONTENTS bucketSize names).2 := by
  have hInterned : Interned names
      (interning CONTENTS bucketSize names).1
      (interning CONTENTS bucketSize names).2 :=
    interned_interning hPositive names
  have hSlot : ∀ id ∈ (interning CONTENTS bucketSize names).1,
      (interning CONTENTS bucketSize names).2.HasSlot id := by
    intro id hId
    exact hInterned.regular.hasSlot
      ((hInterned.mem_iff id).mp hId)
  constructor
  · simpa using congrArg List.length hInterned.ids_eq
  · intro id
    rw [hInterned.mem_iff, hInterned.size_eq]
  · exact fun i j => hInterned.same_iff
  · exact hSlot
  · intro id hId more
    rcases hSlot id hId with ⟨bucket, hBucket, -⟩
    have hLt := (List.getElem?_eq_some_iff.mp hBucket).1
    rcases buckets_gets (interning CONTENTS bucketSize names).2
      more with ⟨added, hAdded⟩
    rw [← hAdded]
    exact List.getElem?_append_left hLt
  · exact fun id _ other _ hSame => slot_injective _ hSame
  · intro id hId contents more
    rw [access_gets, access_store_self (hSlot id hId)]
  · intro id _ other _ hNe contents more
    rw [access_gets, access_store_of_ne _ hNe]

/- Three buckets of two for five names. -/
theorem identities_interning_five :
    Identities ["a", "b", "a", "c", "d", "b", "e"]
      [0, 1, 0, 2, 3, 1, 4]
      (interning Nat 2 ["a", "b", "a", "c", "d", "b", "e"]).2 :=
  identities_interning (by decide)
    ["a", "b", "a", "c", "d", "b", "e"]

end Interning

end BucketsOf

end OefCore

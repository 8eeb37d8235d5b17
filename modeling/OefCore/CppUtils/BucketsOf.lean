import Mathlib.Logic.Function.Basic
import Mathlib.Tactic.Common

/-
  Contents addressed by number, with numbers handed out to
  names: `BucketsOf` of cpp-utils.

  Main declarations:
    * `BucketsOf`
    * `BucketsOf.get`, `BucketsOf.access`, `BucketsOf.store`
    * `BucketsOf.Regular`
-/

namespace OefCore

------------------------------------------------------------
-- Buckets
------------------------------------------------------------

structure BucketsOf
    (CONTENTS NAME : Type)
    (bucketSize : Nat) where
  buckets : List (List CONTENTS)
  names : NAME → Option Nat
  size : Nat

namespace BucketsOf

variable {CONTENTS NAME : Type} {bucketSize : Nat}

def construct : BucketsOf CONTENTS NAME bucketSize where
  buckets := []
  names := fun _ => none
  size := 0

/- A new bucket is full of default-constructed contents. -/
def locklessExtend
    [Inhabited CONTENTS]
    (self : BucketsOf CONTENTS NAME bucketSize) :
    Nat × BucketsOf CONTENTS NAME bucketSize :=
  let buckets :=
    if bucketSize * self.buckets.length ≤ self.size then
      self.buckets ++ [List.replicate bucketSize default]
    else
      self.buckets
  (self.size,
    { self with buckets := buckets, size := self.size + 1 })

def get
    [Inhabited CONTENTS]
    [DecidableEq NAME]
    (self : BucketsOf CONTENTS NAME bucketSize)
    (name : NAME) :
    Nat × BucketsOf CONTENTS NAME bucketSize :=
  match self.names name with
  | some number => (number, self)
  | none =>
      let extended := self.locklessExtend
      (extended.1,
        { extended.2 with
          names :=
            Function.update extended.2.names name
              (some extended.1) })

/- Reading through the reference that `access` returns. -/
def access
    [Inhabited CONTENTS]
    (self : BucketsOf CONTENTS NAME bucketSize)
    (index : Nat) : CONTENTS :=
  (self.buckets.getD (index / bucketSize) []).getD
    (index % bucketSize) default

/- Writing through the reference that `access` returns. -/
def store
    (self : BucketsOf CONTENTS NAME bucketSize)
    (index : Nat)
    (contents : CONTENTS) :
    BucketsOf CONTENTS NAME bucketSize :=
  { self with
    buckets :=
      self.buckets.modify (index / bucketSize) fun bucket =>
        bucket.set (index % bucketSize) contents }

------------------------------------------------------------
-- Reading After Writing
------------------------------------------------------------

variable [Inhabited CONTENTS]

/- A number whose bucket is there, and reaches that far. -/
def HasSlot
    (self : BucketsOf CONTENTS NAME bucketSize)
    (index : Nat) : Prop :=
  ∃ bucket, self.buckets[index / bucketSize]? = some bucket ∧
    index % bucketSize < bucket.length

theorem access_store_self
    {self : BucketsOf CONTENTS NAME bucketSize}
    {index : Nat}
    (hSlot : self.HasSlot index)
    (contents : CONTENTS) :
    (self.store index contents).access index = contents := by
  rcases hSlot with ⟨bucket, hBucket, hLength⟩
  simp [access, store, List.getD_eq_getElem?_getD, hBucket,
    hLength]

/- Writing leaves all slots where they are. -/
omit [Inhabited CONTENTS] in
theorem HasSlot.store
    {self : BucketsOf CONTENTS NAME bucketSize}
    {index : Nat}
    (hSlot : self.HasSlot index)
    (other : Nat)
    (contents : CONTENTS) :
    (self.store other contents).HasSlot index := by
  rcases hSlot with ⟨bucket, hBucket, hLength⟩
  unfold BucketsOf.store HasSlot
  simp only [List.getElem?_modify, hBucket]
  refine ⟨_, rfl, ?_⟩
  split
  · simpa using hLength
  · exact hLength

theorem access_store_of_ne
    (self : BucketsOf CONTENTS NAME bucketSize)
    {index other : Nat}
    (hOther : other ≠ index)
    (contents : CONTENTS) :
    (self.store index contents).access other =
      self.access other := by
  unfold access store
  by_cases hBucket : index / bucketSize = other / bucketSize
  · have hPlace : index % bucketSize ≠ other % bucketSize := by
      intro hPlace
      apply hOther
      rw [← Nat.div_add_mod other bucketSize, ← hBucket,
        ← hPlace, Nat.div_add_mod]
    cases hFound : self.buckets[other / bucketSize]? with
    | none =>
        simp [List.getD_eq_getElem?_getD, hFound, hBucket]
    | some bucket =>
        simp [List.getD_eq_getElem?_getD, hFound, hBucket,
          List.getElem?_set_ne hPlace]
  · simp [List.getD_eq_getElem?_getD,
      List.getElem?_modify_ne _ _ hBucket]

/- A new bucket reads as what was read before it was there. -/
theorem access_get
    [DecidableEq NAME]
    (self : BucketsOf CONTENTS NAME bucketSize)
    (name : NAME)
    (index : Nat) :
    (self.get name).2.access index = self.access index := by
  unfold get
  cases self.names name with
  | some number => rfl
  | none =>
      unfold locklessExtend access
      dsimp only
      split
      · rcases Nat.lt_trichotomy (index / bucketSize)
          self.buckets.length with hOld | hNew | hBeyond
        · simp [List.getD_eq_getElem?_getD,
            List.getElem?_append_left hOld]
        · simp [List.getD_eq_getElem?_getD, hNew,
            List.getElem?_replicate]
          split <;> rfl
        · have hOld :
              self.buckets.length ≤ index / bucketSize :=
            Nat.le_of_lt hBeyond
          have hNew :
              (self.buckets ++
                [List.replicate bucketSize default]).length ≤
                index / bucketSize := by
            rw [List.length_append, List.length_singleton]
            exact hBeyond
          simp only [List.getD_eq_getElem?_getD,
            List.getElem?_eq_none hOld,
            List.getElem?_eq_none hNew, Option.getD_none]
      · rfl

------------------------------------------------------------
-- Properties of All Contents
------------------------------------------------------------

/- All contents, handed out or not, have a property. -/
def All
    (self : BucketsOf CONTENTS NAME bucketSize)
    (P : CONTENTS → Prop) : Prop :=
  ∀ bucket ∈ self.buckets, ∀ contents ∈ bucket, P contents

omit [Inhabited CONTENTS] in
theorem all_construct (P : CONTENTS → Prop) :
    (construct : BucketsOf CONTENTS NAME bucketSize).All P := by
  simp [All, construct]

omit [Inhabited CONTENTS] in
theorem All.store
    {self : BucketsOf CONTENTS NAME bucketSize}
    {P : CONTENTS → Prop}
    (hAll : self.All P)
    (index : Nat)
    {contents : CONTENTS}
    (hContents : P contents) :
    (self.store index contents).All P := by
  intro bucket hBucket other hOther
  rcases List.mem_iff_getElem?.mp hBucket with
    ⟨position, hPosition⟩
  simp only [BucketsOf.store, List.getElem?_modify]
    at hPosition
  rcases Option.map_eq_some_iff.mp hPosition with
    ⟨old, hOld, hSame⟩
  have hBefore := hAll old (List.mem_of_getElem? hOld)
  rw [← hSame] at hOther
  split at hOther
  · rcases List.mem_or_eq_of_mem_set hOther with hKept | hNew
    · exact hBefore other hKept
    · exact hNew ▸ hContents
  · exact hBefore other hOther

theorem All.get
    [DecidableEq NAME]
    {self : BucketsOf CONTENTS NAME bucketSize}
    {P : CONTENTS → Prop}
    (hAll : self.All P)
    (hDefault : P default)
    (name : NAME) :
    (self.get name).2.All P := by
  unfold BucketsOf.get
  cases self.names name with
  | some number => exact hAll
  | none =>
      intro bucket hBucket contents hContents
      unfold locklessExtend at hBucket
      dsimp only at hBucket
      split at hBucket
      · rcases List.mem_append.mp hBucket with hOld | hNew
        · exact hAll bucket hOld contents hContents
        · rw [List.mem_singleton.mp hNew] at hContents
          exact (List.eq_of_mem_replicate hContents) ▸ hDefault
      · exact hAll bucket hBucket contents hContents

theorem All.access
    {self : BucketsOf CONTENTS NAME bucketSize}
    {P : CONTENTS → Prop}
    (hAll : self.All P)
    (hDefault : P default)
    (index : Nat) :
    P (self.access index) := by
  unfold BucketsOf.access
  rw [List.getD_eq_getElem?_getD, List.getD_eq_getElem?_getD]
  cases hBucket : self.buckets[index / bucketSize]? with
  | none => simpa using hDefault
  | some bucket =>
      have hBucketAll :=
        hAll bucket (List.mem_of_getElem? hBucket)
      cases hContents : bucket[index % bucketSize]? with
      | none => simpa [hContents] using hDefault
      | some contents =>
          simpa [hContents] using
            hBucketAll contents
              (List.mem_of_getElem? hContents)

------------------------------------------------------------
-- Regular Buckets
------------------------------------------------------------

/- Full buckets, room for every number that was handed out, and
   numbers that each name has for itself. -/
structure Regular
    (store : BucketsOf CONTENTS NAME bucketSize) : Prop where
  full :
    ∀ bucket ∈ store.buckets, bucket.length = bucketSize
  room : store.size ≤ bucketSize * store.buckets.length
  numbered :
    ∀ name number, store.names name = some number →
      number < store.size
  distinct :
    ∀ name other number, store.names name = some number →
      store.names other = some number → name = other
  untouched :
    ∀ index, store.size ≤ index →
      store.access index = default

theorem regular_construct :
    (construct : BucketsOf CONTENTS NAME bucketSize).Regular
      where
  full := by simp [construct]
  room := by simp [construct]
  numbered := by simp [construct]
  distinct := by simp [construct]
  untouched := by simp [construct, access]

/- Every number that was handed out has its slot. -/
theorem Regular.hasSlot
    {self : BucketsOf CONTENTS NAME bucketSize}
    (hRegular : self.Regular)
    {index : Nat}
    (hIndex : index < self.size) :
    self.HasSlot index := by
  have hRoom := hRegular.room
  have hPositive : 0 < bucketSize := by
    apply Nat.pos_of_mul_pos_right
    exact Nat.lt_of_lt_of_le (Nat.zero_lt_of_lt hIndex) hRoom
  have hBucket :
      index / bucketSize < self.buckets.length := by
    apply Nat.div_lt_of_lt_mul
    omega
  refine ⟨self.buckets[index / bucketSize],
    List.getElem?_eq_getElem hBucket, ?_⟩
  rw [hRegular.full _ (List.getElem_mem hBucket)]
  exact Nat.mod_lt index hPositive

theorem Regular.store
    {self : BucketsOf CONTENTS NAME bucketSize}
    (hRegular : self.Regular)
    {index : Nat}
    (hIndex : index < self.size)
    (contents : CONTENTS) :
    (self.store index contents).Regular where
  full := by
    intro bucket hBucket
    rcases List.mem_iff_getElem?.mp hBucket with
      ⟨position, hPosition⟩
    simp only [BucketsOf.store, List.getElem?_modify]
      at hPosition
    rcases Option.map_eq_some_iff.mp hPosition with
      ⟨old, hOld, hSame⟩
    have hFull :=
      hRegular.full old (List.mem_of_getElem? hOld)
    rw [← hSame]
    split
    · simpa using hFull
    · exact hFull
  room := by
    simpa [BucketsOf.store] using hRegular.room
  numbered := hRegular.numbered
  distinct := hRegular.distinct
  untouched := by
    intro other hOther
    have hNe : other ≠ index := by
      intro hSame
      rw [hSame] at hOther
      exact Nat.not_le.mpr hIndex hOther
    rw [access_store_of_ne self hNe]
    exact hRegular.untouched other hOther

section Naming

variable [DecidableEq NAME]

/- A name that is known keeps its number, and nothing
   changes. -/
theorem get_of_known
    {self : BucketsOf CONTENTS NAME bucketSize}
    {name : NAME}
    {number : Nat}
    (hKnown : self.names name = some number) :
    self.get name = (number, self) := by
  unfold get
  rw [hKnown]

/- A name that is not known gets the next number. -/
theorem get_of_new
    {self : BucketsOf CONTENTS NAME bucketSize}
    {name : NAME}
    (hNew : self.names name = none) :
    (self.get name).1 = self.size ∧
      (self.get name).2.names =
        Function.update self.names name (some self.size) ∧
      (self.get name).2.size = self.size + 1 := by
  unfold get
  rw [hNew]
  exact ⟨rfl, rfl, rfl⟩

theorem names_get
    (self : BucketsOf CONTENTS NAME bucketSize)
    (name : NAME) :
    (self.get name).2.names name =
      some (self.get name).1 := by
  cases hName : self.names name with
  | some number =>
      rw [get_of_known hName]
      exact hName
  | none =>
      rcases get_of_new hName with ⟨hNumber, hNames, _⟩
      rw [hNames, hNumber]
      exact Function.update_self ..

/- A name keeps its number when others get theirs. -/
theorem names_get_of_known
    {self : BucketsOf CONTENTS NAME bucketSize}
    (name : NAME)
    {other : NAME}
    {number : Nat}
    (hKnown : self.names other = some number) :
    (self.get name).2.names other = some number := by
  cases hName : self.names name with
  | some old =>
      rw [get_of_known hName]
      exact hKnown
  | none =>
      rcases get_of_new hName with ⟨_, hNames, _⟩
      have hOther : other ≠ name := by
        intro hSame
        rw [hSame, hName] at hKnown
        exact nomatch hKnown
      rw [hNames, Function.update_of_ne hOther]
      exact hKnown

/- A name that was not known before has a number of its
   own. -/
theorem size_le_of_new
    {self : BucketsOf CONTENTS NAME bucketSize}
    {name other : NAME}
    (hNew : self.names other = none)
    {number : Nat}
    (hNumber :
      (self.get name).2.names other = some number) :
    self.size ≤ number := by
  cases hName : self.names name with
  | some old =>
      rw [get_of_known hName, hNew] at hNumber
      exact nomatch hNumber
  | none =>
      rw [(get_of_new hName).2.1] at hNumber
      by_cases hSame : other = name
      · rw [hSame, Function.update_self] at hNumber
        exact Nat.le_of_eq (Option.some.inj hNumber)
      · rw [Function.update_of_ne hSame, hNew] at hNumber
        exact nomatch hNumber

theorem size_le_get
    (self : BucketsOf CONTENTS NAME bucketSize)
    (name : NAME) :
    self.size ≤ (self.get name).2.size := by
  cases hName : self.names name with
  | some number =>
      apply Nat.le_of_eq
      rw [get_of_known hName]
  | none =>
      rw [(get_of_new hName).2.2]
      exact Nat.le_succ _

theorem Regular.get
    {self : BucketsOf CONTENTS NAME bucketSize}
    (hRegular : self.Regular)
    (hPositive : 0 < bucketSize)
    (name : NAME) :
    (self.get name).2.Regular := by
  cases hName : self.names name with
  | some number =>
      rw [get_of_known hName]
      exact hRegular
  | none =>
      rcases get_of_new hName with ⟨_, hNames, hSize⟩
      constructor
      · intro bucket hBucket
        unfold BucketsOf.get locklessExtend at hBucket
        rw [hName] at hBucket
        dsimp only at hBucket
        split at hBucket
        · rcases List.mem_append.mp hBucket with hOld | hNew
          · exact hRegular.full bucket hOld
          · rw [List.mem_singleton.mp hNew]
            exact List.length_replicate
        · exact hRegular.full bucket hBucket
      · have hRoom := hRegular.room
        rw [hSize]
        unfold BucketsOf.get locklessExtend
        rw [hName]
        dsimp only
        split
        · simp only [List.length_append, List.length_cons,
            List.length_nil, Nat.mul_add]
          omega
        · omega
      · intro other number hOther
        rw [hNames] at hOther
        rw [hSize]
        by_cases hSame : other = name
        · rw [hSame, Function.update_self] at hOther
          rw [← Option.some.inj hOther]
          exact Nat.lt_succ_self _
        · rw [Function.update_of_ne hSame] at hOther
          exact Nat.lt_succ_of_lt
            (hRegular.numbered other number hOther)
      · intro first second number hFirst hSecond
        rw [hNames] at hFirst hSecond
        by_cases hFirstNew : first = name
        · by_cases hSecondNew : second = name
          · rw [hFirstNew, hSecondNew]
          · rw [hFirstNew, Function.update_self] at hFirst
            rw [Function.update_of_ne hSecondNew,
              ← Option.some.inj hFirst] at hSecond
            exact absurd
              (hRegular.numbered second _ hSecond)
              (Nat.lt_irrefl _)
        · by_cases hSecondNew : second = name
          · rw [hSecondNew, Function.update_self] at hSecond
            rw [Function.update_of_ne hFirstNew,
              ← Option.some.inj hSecond] at hFirst
            exact absurd
              (hRegular.numbered first _ hFirst)
              (Nat.lt_irrefl _)
          · rw [Function.update_of_ne hFirstNew] at hFirst
            rw [Function.update_of_ne hSecondNew] at hSecond
            exact hRegular.distinct first second number hFirst
              hSecond
      · intro index hIndex
        rw [hSize] at hIndex
        rw [access_get]
        exact hRegular.untouched index (by omega)

end Naming

end BucketsOf

end OefCore

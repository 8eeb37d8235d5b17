import Mathlib.Data.List.Induction
import OefCore.Library.Ceiling
import OefCore.Schema.Instance

/-
  Versions of data models: `Schemas`, which keeps them in the
  order in which they were added, and `SchemaDirectory`.

  Main declarations:
    * `Oef.Schemas.add`, `Oef.Schemas.get`
    * `Oef.Schemas.Retrievable`, `Oef.Schemas.Rising`
    * `Oef.retrievable_iff_rising`
    * `Oef.SchemaDirectory.get_addAll`
-/

namespace OefCore

namespace Oef

structure Schema where
  version : UInt32
  schema : DataModel

/- `std::numeric_limits<uint32_t>::max()` -/
def latest : UInt32 :=
  4294967295

------------------------------------------------------------
-- Schemas
------------------------------------------------------------

abbrev Schemas :=
  List Schema

/- A call of `add`: the version that is asked for, which is
   automatic if it is the greatest number, and the schema. -/
abbrev AddCall :=
  UInt32 × DataModel

namespace Schemas

/- The version that `add` stores and returns. -/
def versionFor (schemas : Schemas) (version : UInt32) : UInt32 :=
  if version = latest then UInt32.ofNat (schemas.length + 1)
  else version

def add (schemas : Schemas) (c : AddCall) : UInt32 × Schemas :=
  let version := versionFor schemas c.1
  (version, schemas ++ [⟨version, c.2⟩])

def get (schemas : Schemas) (version : UInt32) : Option Schema :=
  if schemas.isEmpty then none
  else if version = latest then schemas.getLast?
  else
    match schemas.find? fun p => p.version ≥ version with
    | some p => some p
    | none => schemas.getLast?

def addAll (calls : List AddCall) : Schemas :=
  calls.foldl (fun schemas c => (add schemas c).2) []

/- What a call adds after others. -/
def added (before : List AddCall) (c : AddCall) : Schema :=
  ⟨(add (addAll before) c).1, c.2⟩

@[simp]
theorem addAll_nil : addAll [] = [] :=
  rfl

@[simp]
theorem addAll_append (before : List AddCall) (c : AddCall) :
    addAll (before ++ [c]) = addAll before ++ [added before c] := by
  simp [addAll, add, added]

theorem mem_addAll_iff
    {calls : List AddCall}
    {s : Schema} :
    s ∈ addAll calls ↔
      ∃ before c, before ++ [c] <+: calls ∧ s = added before c := by
  induction calls using List.reverseRecOn with
  | nil => simp
  | append_singleton calls c ih =>
    rw [addAll_append, List.mem_append, ih, List.mem_singleton]
    constructor
    · rintro (⟨before, d, hPrefix, rfl⟩ | rfl)
      · exact ⟨before, d,
          hPrefix.trans (List.prefix_append calls [c]), rfl⟩
      · exact ⟨calls, c, List.prefix_refl _, rfl⟩
    · rintro ⟨before, d, hPrefix, rfl⟩
      rcases List.prefix_concat_iff.mp hPrefix with hEq | hEarlier
      · obtain ⟨rfl, hSame⟩ := List.append_inj' hEq rfl
        cases hSame
        exact .inr rfl
      · exact .inl ⟨before, d, hEarlier, rfl⟩

------------------------------------------------------------
-- Retrieval
------------------------------------------------------------

/- A schema with the least version above another, or with the
   greatest version if none is above it. -/
def Nearest
    (schemas : Schemas)
    (version : UInt32)
    (s : Schema) : Prop :=
  s ∈ schemas ∧
    ((version < s.version ∧
        ∀ t ∈ schemas, version < t.version →
          s.version ≤ t.version) ∨
      ∀ t ∈ schemas, ¬ version < t.version ∧
        t.version ≤ s.version)

/- What the calls so far have stored can be retrieved. -/
structure Retrievable (calls : List AddCall) : Prop where
  returned : ∀ before c, before ++ [c] <+: calls →
    get (addAll calls) (add (addAll before) c).1 =
      some (added before c)
  fresh : ∀ before c, before ++ [c] <+: calls →
    c.1 = latest → ∀ s ∈ addAll before,
      s.version ≠ (add (addAll before) c).1
  nearest : ∀ version,
    (∀ s ∈ addAll calls, s.version ≠ version) →
    addAll calls ≠ [] →
    ∃ s, get (addAll calls) version = some s ∧
      Nearest (addAll calls) version s

/- Every version is above those stored before it, or is asked
   for again with the same schema. -/
def Rising (calls : List AddCall) : Prop :=
  ∀ before c, before ++ [c] <+: calls → ∀ s ∈ addAll before,
    s.version < (added before c).version ∨
      (s = added before c ∧ c.1 ≠ latest)

theorem Rising.of_prefix
    {calls earlier : List AddCall}
    (hRising : Rising calls)
    (hPrefix : earlier <+: calls) :
    Rising earlier :=
  fun before c hBefore => hRising before c (hBefore.trans hPrefix)

def number (s : Schema) : Nat :=
  s.version.toNat

theorem Rising.ascending
    {calls : List AddCall}
    (hRising : Rising calls) :
    Ceiling.Ascending number (addAll calls) := by
  induction calls using List.reverseRecOn with
  | nil => exact List.Pairwise.nil
  | append_singleton calls c ih =>
    have hEarlier := ih
      (hRising.of_prefix (List.prefix_append calls [c]))
    rw [addAll_append]
    refine List.pairwise_append.mpr
      ⟨hEarlier, List.pairwise_singleton _ _, fun s hMem t hLast => ?_⟩
    rw [List.mem_singleton] at hLast
    subst hLast
    rcases hRising calls c (List.prefix_refl _) s hMem with
      hLess | ⟨hSame, -⟩
    · exact .inl (UInt32.lt_iff_toNat_lt.mp hLess)
    · exact .inr hSame

theorem le_latest (version : UInt32) : version ≤ latest := by
  rw [UInt32.le_iff_toNat_le]
  have hLt := version.toNat_lt
  simp only [latest, UInt32.reduceToNat]
  omega

theorem find_eq (schemas : Schemas) (version : UInt32) :
    (schemas.find? fun p => p.version ≥ version) =
      Ceiling.find number version.toNat schemas := by
  unfold Ceiling.find number
  congr 1

/- In ascending order a version that is stored is found. -/
theorem get_eq_some
    {schemas : Schemas}
    (hAscending : Ceiling.Ascending number schemas)
    {s : Schema}
    (hMem : s ∈ schemas) :
    get schemas s.version = some s := by
  have hNonempty : schemas.isEmpty = false := by
    cases schemas with
    | nil => cases hMem
    | cons _ _ => rfl
  rw [get, hNonempty]
  by_cases hLatest : s.version = latest
  · rw [if_neg Bool.false_ne_true, if_pos hLatest]
    cases hLast : schemas.getLast? with
    | none =>
      rw [List.getLast?_eq_none_iff] at hLast
      exact absurd hMem (hLast ▸ List.not_mem_nil)
    | some t =>
      rcases Ceiling.le_getLast hAscending hLast hMem with
        hLess | hSame
      · have hMost := UInt32.le_iff_toNat_le.mp (le_latest t.version)
        rw [← hLatest] at hMost
        exact absurd hLess (not_lt.mpr hMost)
      · rw [hSame]
  · rw [if_neg Bool.false_ne_true, if_neg hLatest, find_eq]
    have hFound := Ceiling.find_key hAscending hMem
    rw [number] at hFound
    rw [hFound]

theorem nearest_get
    {schemas : Schemas}
    (hAscending : Ceiling.Ascending number schemas)
    {version : UInt32}
    (hOther : ∀ s ∈ schemas, s.version ≠ version)
    (hNonempty : schemas ≠ []) :
    ∃ s, get schemas version = some s ∧
      Nearest schemas version s := by
  have hFull : schemas.isEmpty = false := by
    cases schemas with
    | nil => exact absurd rfl hNonempty
    | cons _ _ => rfl
  obtain ⟨last, hLast⟩ : ∃ last, schemas.getLast? = some last :=
    ⟨_, List.getLast?_eq_some_getLast hNonempty⟩
  -- without a version above it the last schema is the answer
  have hBack : (∀ s ∈ schemas, ¬ version < s.version) →
      Nearest schemas version last := by
    intro hNone
    refine ⟨List.mem_of_getLast? hLast, .inr fun t hMem => ?_⟩
    refine ⟨hNone t hMem, UInt32.le_iff_toNat_le.mpr ?_⟩
    rcases Ceiling.le_getLast hAscending hLast hMem with
      hLess | hSame
    · exact le_of_lt hLess
    · exact hSame ▸ le_rfl
  rw [get, hFull, if_neg Bool.false_ne_true]
  by_cases hLatest : version = latest
  · rw [if_pos hLatest]
    refine ⟨last, hLast, hBack fun s _ => ?_⟩
    rw [hLatest, UInt32.lt_iff_toNat_lt, not_lt]
    exact UInt32.le_iff_toNat_le.mp (le_latest s.version)
  · rw [if_neg hLatest, find_eq]
    cases hFound : Ceiling.find number version.toNat schemas with
    | some s =>
      obtain ⟨hMem, hNot⟩ := Ceiling.find_eq_some hFound
      have hAbove : ∀ t ∈ schemas, version.toNat ≤ number t →
          version < t.version := by
        intro t hIn hLe
        refine UInt32.lt_iff_toNat_lt.mpr (lt_of_le_of_ne hLe ?_)
        exact fun hEq =>
          hOther t hIn (UInt32.toNat_inj.mp hEq.symm)
      refine ⟨s, rfl, hMem, .inl ⟨hAbove s hMem hNot, ?_⟩⟩
      intro t hIn hLess
      have hLe := le_of_lt (UInt32.lt_iff_toNat_lt.mp hLess)
      rcases Ceiling.find_least hAscending hFound hIn hLe with
        hLater | hSame
      · exact UInt32.le_iff_toNat_le.mpr (le_of_lt hLater)
      · exact hSame ▸ UInt32.le_refl _
    | none =>
      have hAll := Ceiling.find_eq_none_iff.mp hFound
      refine ⟨last, hLast, hBack fun s hMem hLess => ?_⟩
      have hLt := UInt32.lt_iff_toNat_lt.mp hLess
      exact lt_asymm (hAll s hMem) hLt

theorem Rising.retrievable
    {calls : List AddCall}
    (hRising : Rising calls) :
    Retrievable calls where
  returned before c hPrefix :=
    get_eq_some hRising.ascending
      (mem_addAll_iff.mpr ⟨before, c, hPrefix, rfl⟩)
  fresh before c hPrefix hAuto s hMem hSame := by
    rcases hRising before c hPrefix s hMem with hLess | ⟨-, hNot⟩
    · rw [hSame] at hLess
      exact UInt32.lt_irrefl _ hLess
    · exact hNot hAuto
  nearest _ hOther hNonempty :=
    nearest_get hRising.ascending hOther hNonempty

/- The schema that was added last has the greatest version. -/
theorem Retrievable.le_added
    {before : List AddCall}
    {c : AddCall}
    (hAll : Retrievable (before ++ [c]))
    {s : Schema}
    (hMem : s ∈ addAll before) :
    s.version ≤ (added before c).version := by
  have hGet : get (addAll (before ++ [c])) latest =
      some (added before c) := by
    simp [get]
  by_cases hStored :
      ∃ t ∈ addAll (before ++ [c]), t.version = latest
  · obtain ⟨t, hIn, hLatest⟩ := hStored
    obtain ⟨first, d, hPrefix, rfl⟩ := mem_addAll_iff.mp hIn
    have hFirst := hAll.returned first d hPrefix
    have hVersion : (add (addAll first) d).1 = latest := hLatest
    rw [hVersion, hGet, Option.some.injEq] at hFirst
    rw [hFirst, hLatest]
    exact le_latest s.version
  · -- the greatest number is looked up as a missing version
    obtain ⟨t, hFound, -, hNear⟩ := hAll.nearest latest
      (fun t hIn hLatest => hStored ⟨t, hIn, hLatest⟩) (by simp)
    obtain rfl := Option.some.inj (hGet.symm.trans hFound)
    rcases hNear with ⟨hAbove, -⟩ | hBelow
    · exact absurd hAbove
        (UInt32.not_lt.mpr (le_latest (added before c).version))
    · exact (hBelow s (by simp [hMem])).2

end Schemas

/-
  After every call of a sequence all schemas can be retrieved
  exactly if each call adds a version above those stored
  before it, or asks again for a version with the schema that
  it has.
-/
theorem retrievable_iff_rising (calls : List AddCall) :
    (∀ earlier, earlier <+: calls →
      Schemas.Retrievable earlier) ↔
    Schemas.Rising calls := by
  constructor
  · intro hAll before c hPrefix s hMem
    have hNow := hAll (before ++ [c]) hPrefix
    have hLast := hNow.returned before c (List.prefix_refl _)
    obtain ⟨first, d, hEarlier, rfl⟩ :=
      Schemas.mem_addAll_iff.mp hMem
    have hFirst := hNow.returned first d
      (hEarlier.trans (List.prefix_append before [c]))
    have hLe := hNow.le_added hMem
    by_cases hSame : (Schemas.added first d).version =
        (Schemas.added before c).version
    · right
      have hVersions : (Schemas.add (Schemas.addAll first) d).1 =
          (Schemas.add (Schemas.addAll before) c).1 := hSame
      rw [hVersions, hLast, Option.some.injEq] at hFirst
      refine ⟨hFirst.symm, fun hAuto => ?_⟩
      exact hNow.fresh before c (List.prefix_refl _) hAuto _
        hMem hSame
    · exact .inl (UInt32.lt_of_le_of_ne hLe hSame)
  · intro hRising earlier hPrefix
    exact (hRising.of_prefix hPrefix).retrievable

def emptyShop : DataModel where
  handle := ⟨"shop", [], ""⟩
  nodup := List.nodup_nil

/- Version three is asked for and version five comes back. -/
theorem not_retrievable_five_three :
    ¬ Schemas.Retrievable [(5, emptyShop), (3, emptyShop)] := by
  intro hAll
  have hThree := congrArg (Option.map Schema.version)
    (hAll.returned [(5, emptyShop)] (3, emptyShop)
      (List.prefix_refl _))
  have hFive : some (5 : UInt32) = some 3 := hThree
  revert hFive
  decide

------------------------------------------------------------
-- Directories
------------------------------------------------------------

abbrev SchemaDirectory :=
  AList fun _ : String => Schemas

namespace SchemaDirectory

def get
    (directory : SchemaDirectory)
    (key : String)
    (version : UInt32) : Option Schema :=
  match directory.lookup key with
  | some schemas => schemas.get version
  | none => none

def add
    (directory : SchemaDirectory)
    (key : String)
    (c : AddCall) : UInt32 × SchemaDirectory :=
  let schemas := (directory.lookup key).getD []
  let (version, schemas) := schemas.add c
  (version, directory.insert key schemas)

def addAll (calls : List (String × AddCall)) : SchemaDirectory :=
  calls.foldl (fun directory c => (add directory c.1 c.2).2) ∅

/- The calls for one name. -/
def callsFor
    (key : String)
    (calls : List (String × AddCall)) : List AddCall :=
  (calls.filter fun c => c.1 = key).map Prod.snd

/- Under every name there are the schemas that were added under
   this name. -/
theorem getD_lookup_addAll
    (calls : List (String × AddCall))
    (key : String) :
    ((addAll calls).lookup key).getD [] =
      Schemas.addAll (callsFor key calls) := by
  induction calls using List.reverseRecOn with
  | nil => rfl
  | append_singleton calls c ih =>
    have hStep : addAll (calls ++ [c]) =
        (add (addAll calls) c.1 c.2).2 := by
      simp [addAll]
    rw [hStep, add, callsFor, List.filter_append, List.map_append]
    by_cases hKey : c.1 = key
    · subst hKey
      rw [AList.lookup_insert, ih]
      simp [Schemas.addAll, callsFor]
    · rw [AList.lookup_insert_ne (fun hEq => hKey hEq.symm), ih]
      simp [hKey, callsFor]

theorem get_addAll
    (calls : List (String × AddCall))
    (key : String)
    (version : UInt32) :
    (addAll calls).get key version =
      (Schemas.addAll (callsFor key calls)).get version := by
  rw [← getD_lookup_addAll, get]
  cases (addAll calls).lookup key <;> rfl

end SchemaDirectory

end Oef

end OefCore

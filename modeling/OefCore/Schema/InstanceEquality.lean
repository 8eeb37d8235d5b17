import OefCore.Schema.Instance

/-
  `operator==` and the hash of instances.

  Main declarations:
    * `Oef.Instance.equals`, `Oef.Instance.hash`
    * `Oef.Instance.Lawful`
    * `Oef.lawful_iff`
-/

namespace OefCore

namespace Oef

variable {D : Type} [Double D]

------------------------------------------------------------
-- Equality and Hash
------------------------------------------------------------

/- `std::hash`; what compares equal has equal hashes. -/
structure Hashes (D : Type) [Double D] where
  string : String → BitVec 64
  int : Int32 → BitVec 64
  double : D → BitVec 64
  bool : Bool → BitVec 64
  double_congr : ∀ {x y : D}, (x == y) = true →
    double x = double y

def Hashes.value (H : Hashes D) : VariantType D → BitVec 64
  | .int i => H.int i
  | .double d => H.double d
  | .string s => H.string s
  | .location l => H.double l.lon ^^^ (H.double l.lat <<< 1)
  | .bool b => H.bool b

namespace Instance

/- The loop over the values of one instance. -/
def equalsLoop (other : ValueMap D) :
    List ((_ : String) × VariantType D) → Bool
  | [] => true
  | p :: rest =>
      match other.lookup p.1 with
      | none => false
      | some v => if v != p.2 then false else equalsLoop other rest

def equals (a b : Instance D) : Bool :=
  if !(a.model.name == b.model.name) then false
  else equalsLoop b.values a.values.entries

/- One round of the loop of the hash. -/
def hashStep
    (H : Hashes D)
    (h : BitVec 64)
    (p : (_ : String) × VariantType D) : BitVec 64 :=
  let hs := H.string p.1
  let h := hs ^^^ (h <<< 1)
  let hs := H.value p.2
  hs ^^^ (h <<< 2)

def hash (H : Hashes D) (i : Instance D) : BitVec 64 :=
  i.values.entries.foldl (hashStep H) (H.string i.model.name)

------------------------------------------------------------
-- Laws
------------------------------------------------------------

/- The same instance, with its values in another order. -/
def Reordered (i j : Instance D) : Prop :=
  j.handle = i.handle ∧ j.values.entries.Perm i.values.entries

structure Lawful (a b : Instance D) : Prop where
  symm : equals a b = true → equals b a = true
  trans : ∀ c, equals a b = true → equals b c = true →
    equals a c = true
  hash_eq : equals a b = true →
    ∀ (H : Hashes D) (a' b' : Instance D),
      Reordered a a' → Reordered b b' → hash H a' = hash H b'

/- Every value of the one is a value of the other, and the
   names of their models are the same. -/
def Within (a b : Instance D) : Prop :=
  a.model.name = b.model.name ∧
    ∀ name v, a.values.lookup name = some v →
      ∃ w, b.values.lookup name = some w ∧ (w == v) = true

theorem equalsLoop_iff
    (other : ValueMap D)
    (entries : List ((_ : String) × VariantType D)) :
    equalsLoop other entries = true ↔
      ∀ p ∈ entries, ∃ w, other.lookup p.1 = some w ∧
        (w == p.2) = true := by
  induction entries with
  | nil => simp [equalsLoop]
  | cons p rest ih =>
    rw [equalsLoop, List.forall_mem_cons, ← ih]
    cases other.lookup p.1 with
    | none => simp
    | some w => cases hSame : w == p.2 <;> simp [bne, hSame]

theorem equals_iff (a b : Instance D) :
    equals a b = true ↔ Within a b := by
  have hLoop : equalsLoop b.values a.values.entries = true ↔
      ∀ name v, a.values.lookup name = some v →
        ∃ w, b.values.lookup name = some w ∧ (w == v) = true := by
    rw [equalsLoop_iff]
    constructor
    · intro hAll name v hValue
      exact hAll ⟨name, v⟩ (AList.mem_lookup_iff.mp hValue)
    · rintro hAll ⟨name, v⟩ hMem
      exact hAll name v (AList.mem_lookup_iff.mpr hMem)
  unfold equals Within
  by_cases hName : a.model.name = b.model.name <;>
    simp [hName, hLoop]

/- Being within one another is transitive. -/
theorem Within.trans
    {a b c : Instance D}
    (hFirst : Within a b)
    (hSecond : Within b c) :
    Within a c := by
  refine ⟨hFirst.1.trans hSecond.1, fun name v hValue => ?_⟩
  obtain ⟨w, hMiddle, hLeft⟩ := hFirst.2 name v hValue
  obtain ⟨u, hLast, hRight⟩ := hSecond.2 name w hMiddle
  exact ⟨u, hLast, VariantType.beq_trans hRight hLeft⟩

theorem Within.keys_subset
    {a b : Instance D}
    (hWithin : Within a b) :
    a.values.keys ⊆ b.values.keys := by
  intro name hMem
  obtain ⟨v, hValue⟩ :=
    Option.isSome_iff_exists.mp (AList.lookup_isSome.mpr hMem)
  obtain ⟨w, hOther, -⟩ := hWithin.2 name v hValue
  exact AList.lookup_isSome.mp (Option.isSome_iff_exists.mpr ⟨w, hOther⟩)

theorem Within.length_le
    {a b : Instance D}
    (hWithin : Within a b) :
    a.values.entries.length ≤ b.values.entries.length := by
  have hLength := (List.subperm_of_subset a.values.keys_nodup
    hWithin.keys_subset).length_le
  simpa [AList.keys, List.keys] using hLength

end Instance

theorem Hashes.value_congr
    (H : Hashes D)
    {x y : VariantType D}
    (hSame : (x == y) = true) :
    H.value x = H.value y := by
  change VariantType.beq x y = true at hSame
  cases x <;> cases y <;> try contradiction
  case int.int => exact congrArg H.int (eq_of_beq hSame)
  case double.double => exact H.double_congr hSame
  case string.string => exact congrArg H.string (eq_of_beq hSame)
  case bool.bool => exact congrArg H.bool (eq_of_beq hSame)
  case location.location =>
    obtain ⟨hLon, hLat⟩ := (Bool.and_eq_true _ _).mp hSame
    rw [value, value, H.double_congr hLon, H.double_congr hLat]

------------------------------------------------------------
-- At Most One Value
------------------------------------------------------------

namespace Instance

theorem Within.of_length_le_one
    {a b : Instance D}
    (hWithin : Within a b)
    (hOne : b.values.entries.length ≤ 1)
    (hLength :
      b.values.entries.length = a.values.entries.length) :
    (a.values.entries = [] ∧ b.values.entries = []) ∨
      ∃ name v w, a.values.entries = [⟨name, v⟩] ∧
        b.values.entries = [⟨name, w⟩] ∧ (w == v) = true := by
  cases hA : a.values.entries with
  | nil =>
    rw [hA, List.length_nil, List.length_eq_zero_iff] at hLength
    exact .inl ⟨rfl, hLength⟩
  | cons p rest =>
    rw [hA, List.length_cons] at hLength
    have hRest : rest = [] :=
      List.length_eq_zero_iff.mp (by omega)
    subst hRest
    obtain ⟨q, hB⟩ := List.length_eq_one_iff.mp hLength
    have hMem : p ∈ a.values.entries := hA ▸ List.mem_cons_self
    obtain ⟨w, hOther, hSame⟩ :=
      hWithin.2 p.1 p.2 (AList.mem_lookup_iff.mpr hMem)
    have hIn := AList.mem_lookup_iff.mp hOther
    rw [hB, List.mem_singleton] at hIn
    exact .inr ⟨p.1, p.2, w, rfl, hIn ▸ hB, hSame⟩

omit [Double D] in
theorem Reordered.entries_eq
    {i j : Instance D}
    (hOrder : Reordered i j)
    (hOne : i.values.entries.length ≤ 1) :
    j.values.entries = i.values.entries := by
  cases hI : i.values.entries with
  | nil => exact List.perm_nil.mp (hI ▸ hOrder.2)
  | cons p rest =>
    rw [hI, List.length_cons] at hOne
    have hRest : rest = [] :=
      List.length_eq_zero_iff.mp (by omega)
    subst hRest
    exact List.perm_singleton.mp (hI ▸ hOrder.2)

theorem Within.lawful
    {a b : Instance D}
    (hWithin : Within a b)
    (hOne : b.values.entries.length ≤ 1)
    (hLength :
      b.values.entries.length = a.values.entries.length) :
    Lawful a b := by
  have hTrans : ∀ c, equals a b = true → equals b c = true →
      equals a c = true := by
    intro c hLeft hRight
    rw [equals_iff] at hLeft hRight ⊢
    exact hLeft.trans hRight
  rcases hWithin.of_length_le_one hOne hLength with
    ⟨hA, hB⟩ | ⟨name, v, w, hA, hB, hSame⟩
  · refine ⟨fun _ => ?_, hTrans, fun _ H a' b' hA' hB' => ?_⟩
    · rw [equals_iff]
      refine ⟨hWithin.1.symm, fun name v hValue => ?_⟩
      have hIn := AList.mem_lookup_iff.mp hValue
      rw [hB] at hIn
      cases hIn
    · have hNameA := congrArg (·.model.name) hA'.1
      have hNameB := congrArg (·.model.name) hB'.1
      rw [hash, hash, hA'.entries_eq (hLength ▸ hOne),
        hB'.entries_eq hOne, hA, hB]
      exact congrArg H.string
        (hNameA.trans (hWithin.1.trans hNameB.symm))
  · refine ⟨fun _ => ?_, hTrans, fun _ H a' b' hA' hB' => ?_⟩
    · rw [equals_iff]
      refine ⟨hWithin.1.symm, fun key u hValue => ?_⟩
      have hIn := AList.mem_lookup_iff.mp hValue
      rw [hB, List.mem_singleton] at hIn
      cases hIn
      refine ⟨v, ?_, VariantType.beq_symm hSame⟩
      exact AList.mem_lookup_iff.mpr (hA ▸ List.mem_cons_self)
    · have hNameA := congrArg (·.model.name) hA'.1
      have hNameB := congrArg (·.model.name) hB'.1
      have hName : a'.model.name = b'.model.name :=
        hNameA.trans (hWithin.1.trans hNameB.symm)
      rw [hash, hash, hA'.entries_eq (hLength ▸ hOne),
        hB'.entries_eq hOne, hA, hB, hName]
      simp only [List.foldl_cons, List.foldl_nil, hashStep,
        H.value_congr hSame]

------------------------------------------------------------
-- The Value That Is Hashed Last
------------------------------------------------------------

/- The lowest bit of the hash of the last name stays, as bit
   number two, beside the last value. -/
theorem getLsbD_hashStep
    (H : Hashes D)
    (h : BitVec 64)
    (p : (_ : String) × VariantType D) :
    (hashStep H h p).getLsbD 2 =
      ((H.value p.2).getLsbD 2 ^^ (H.string p.1).getLsbD 0) := by
  simp [hashStep]

/- Tells one text from all others, by its lowest bit. -/
def marking (key : String) : Hashes D where
  string s := if s = key then 1 else 0
  int _ := 0
  double _ := 0
  bool _ := 0
  double_congr _ := rfl

theorem getLsbD_marking_value
    (key : String)
    (v : VariantType D) :
    ((marking key : Hashes D).value v).getLsbD 2 = false := by
  cases v with
  | string s =>
    simp only [Hashes.value, marking]
    split <;> simp
  | int i => simp [Hashes.value, marking]
  | double d => simp [Hashes.value, marking]
  | bool b => simp [Hashes.value, marking]
  | location l => simp [Hashes.value, marking]

omit [Double D] in
/- The same instance, with a value of it as the last one. -/
theorem exists_reordered_last
    {i : Instance D}
    {p : (_ : String) × VariantType D}
    (hMem : p ∈ i.values.entries) :
    ∃ j entries, Reordered i j ∧
      j.values.entries = entries ++ [p] := by
  obtain ⟨before, after, hSplit⟩ := List.append_of_mem hMem
  have hPerm : (before ++ after ++ [p]).Perm i.values.entries := by
    rw [hSplit, List.append_assoc]
    exact (List.perm_append_singleton p after).append_left before
  refine ⟨⟨i.handle, ⟨before ++ after ++ [p], ?_⟩⟩,
    before ++ after, ⟨rfl, hPerm⟩, rfl⟩
  exact (List.perm_nodupKeys hPerm).mpr i.values.nodupKeys

theorem getLsbD_hash_marking
    {i : Instance D}
    {entries : List ((_ : String) × VariantType D)}
    {p : (_ : String) × VariantType D}
    (hLast : i.values.entries = entries ++ [p])
    (key : String) :
    (hash (marking key) i).getLsbD 2 = decide (p.1 = key) := by
  rw [hash, hLast, List.foldl_append, List.foldl_cons,
    List.foldl_nil, getLsbD_hashStep, getLsbD_marking_value]
  by_cases hKey : p.1 = key <;> simp [marking, hKey]

/- Two values give two orders with two hashes. -/
theorem Lawful.length_le_one
    {a b : Instance D}
    (hLawful : Lawful a b)
    (hWithin : Within a b) :
    b.values.entries.length ≤ 1 ∧
      b.values.entries.length = a.values.entries.length := by
  have hEquals := (equals_iff a b).mpr hWithin
  have hBack := (equals_iff b a).mp (hLawful.symm hEquals)
  have hLength :
      b.values.entries.length = a.values.entries.length :=
    le_antisymm hBack.length_le hWithin.length_le
  refine ⟨?_, hLength⟩
  by_contra hMany
  obtain ⟨p, q, rest, hB⟩ : ∃ p q rest,
      b.values.entries = p :: q :: rest := by
    match hEntries : b.values.entries with
    | [] => simp [hEntries] at hMany
    | [_] => simp [hEntries] at hMany
    | p :: q :: rest => exact ⟨p, q, rest, rfl⟩
  have hP : p ∈ b.values.entries := by simp [hB]
  have hQ : q ∈ b.values.entries := by simp [hB]
  have hDiffer : p.1 ≠ q.1 := by
    have hNodup := b.values.keys_nodup
    simp only [AList.keys, List.keys, hB, List.map_cons,
      List.nodup_cons, List.mem_cons, not_or] at hNodup
    exact hNodup.1.1
  -- the other instance has a value of the same name
  obtain ⟨v, hValue, -⟩ :=
    hBack.2 p.1 p.2 (AList.mem_lookup_iff.mpr hP)
  obtain ⟨a', beforeA, hA', hLastA⟩ :=
    exists_reordered_last (AList.mem_lookup_iff.mp hValue)
  obtain ⟨b', beforeB, hB', hLastB⟩ := exists_reordered_last hQ
  have hBits := congrArg (·.getLsbD 2)
    (hLawful.hash_eq hEquals (marking p.1) a' b' hA' hB')
  simp only [getLsbD_hash_marking hLastA,
    getLsbD_hash_marking hLastB] at hBits
  simp [Ne.symm hDiffer] at hBits

end Instance

/-
  Equality is lawful for two instances, with any hashes and
  any orders of their values, exactly if they do not compare
  equal or have the same number of values, which is one at
  most.
-/
theorem lawful_iff (a b : Instance D) :
    Instance.Lawful a b ↔
      (Instance.Within a b →
        b.values.entries.length ≤ 1 ∧
          b.values.entries.length = a.values.entries.length) := by
  constructor
  · exact fun hLawful hWithin => hLawful.length_le_one hWithin
  · intro hFew
    by_cases hWithin : Instance.Within a b
    · exact hWithin.lawful (hFew hWithin).1 (hFew hWithin).2
    · have hNot : ¬ Instance.equals a b = true :=
        fun hEquals => hWithin ((Instance.equals_iff a b).mp hEquals)
      exact ⟨fun hEquals => absurd hEquals hNot,
        fun _ hEquals => absurd hEquals hNot,
        fun hEquals => absurd hEquals hNot⟩

/- An instance without values equals one with a price, which
   does not equal it. -/
theorem not_lawful_price :
    ¬ Instance.Lawful
      (⟨⟨⟨"shop", [], ""⟩, []⟩, ∅⟩ : Instance Int)
      ⟨⟨⟨"shop", [], ""⟩, [⟨"price", .kI 3⟩]⟩,
        AList.singleton "price" (.int 3)⟩ := by
  intro hLawful
  have hBack := hLawful.symm rfl
  cases hBack

end Oef

end OefCore

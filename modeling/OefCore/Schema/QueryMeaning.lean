import OefCore.Schema.ConstraintExpr

/-
  What queries mean on the messages themselves, and when
  their evaluation comes to the same.

  Main declarations:
    * `Pb.Constraint.Holds`, `Pb.Model.Holds`
    * `Pb.Constraint.Kept`
    * `Oef.check_iff_holds_iff`
-/

namespace OefCore

variable {D : Type} [Double D]

------------------------------------------------------------
-- Meaning
------------------------------------------------------------

namespace Pb

instance : BEq (Location D) where
  beq left right := left.lon == right.lon && left.lat == right.lat

instance : LT (Location D) where
  lt left right := left.lat < right.lat

instance : LE (Location D) where
  le left right := left.lat ≤ right.lat

/- How a value is to stand to the one of the relation. -/
def RelationOperator.Relates
    {T : Type} [BEq T] [LT T] [LE T]
    (op : RelationOperator)
    (v s : T) : Prop :=
  match op with
  | .eq => (v == s) = true
  | .noteq => ¬ (v == s) = true
  | .lt => v < s
  | .lteq => v ≤ s
  | .gt => s < v
  | .gteq => s ≤ v

def Relation.Holds (rel : Relation D) (w : Value D) : Prop :=
  match rel.val, w with
  | .kS s, .kS v => rel.op.Relates v s
  | .kD s, .kD v => rel.op.Relates v s
  | .kB s, .kB v => rel.op.Relates v s
  | .kI s, .kI v => rel.op.Relates v s
  | .kL s, .kL v => rel.op.Relates v s
  | _, _ => False

def SetValues.Contain
    (vals : SetValues D)
    (w : Value D) : Prop :=
  match vals, w with
  | .kS vals, .kS v => v ∈ vals
  | .kD vals, .kD v => ∃ val ∈ vals, (val == v) = true
  | .kB vals, .kB v => v ∈ vals
  | .kI vals, .kI v => v ∈ vals
  | .kL vals, .kL v => ∃ val ∈ vals, (val == v) = true
  | _, _ => False

def Set.Holds (set : Set D) (w : Value D) : Prop :=
  match set.op with
  | .isIn => set.vals.Contain w
  | .notIn => ¬ set.vals.Contain w

/- Between two ends, whichever comes first. -/
def Between (a b x : D) : Prop :=
  if a < b then a ≤ x ∧ x ≤ b else b ≤ x ∧ x ≤ a

def Range.Holds (range : Range D) (w : Value D) : Prop :=
  match range, w with
  | .kS p, .kS v => p.first ≤ v ∧ v ≤ p.second
  | .kI p, .kI v => p.first ≤ v ∧ v ≤ p.second
  | .kD p, .kD v => p.first ≤ v ∧ v ≤ p.second
  | .kL p, .kL v =>
      Between p.first.lat p.second.lat v.lat ∧
        Between p.first.lon p.second.lon v.lon
  | _, _ => False

def Distance.Holds (dist : Distance D) (w : Value D) : Prop :=
  match w with
  | .kL v =>
      Double.distance dist.center.lon dist.center.lat v.lon v.lat ≤
        dist.distance
  | _ => False

def ConstraintCase.Holds
    (c : ConstraintCase D)
    (w : Value D) : Prop :=
  match c with
  | .set s => s.Holds w
  | .range r => r.Holds w
  | .relation rel => rel.Holds w
  | .distance dist => dist.Holds w
  | .notSet => False

def Instance.value? (p : Instance D) (name : String) :
    Option (Value D) :=
  (p.values.find? fun v => v.key = name).map KeyValue.value

/- A constraint on an attribute without a value does not
   hold. -/
def Constraint.Holds
    (c : Constraint D)
    (p : Instance D) : Prop :=
  ∃ w, p.value? c.attributeName = some w ∧ c.constraint.Holds w

def Model.Holds (m : Model D) (p : Instance D) : Prop :=
  (∀ dm, m.model = some dm → dm.name = p.model.name) ∧
    ∀ e ∈ m.constraints, e.formula.Holds fun c => c.Holds p

------------------------------------------------------------
-- Narrowed Integers
------------------------------------------------------------

/- The comparison of a constraint with an integer stays the
   same if the integer, and that of a relation, are cut to 32
   bits. -/
def ConstraintCase.Keeps (c : ConstraintCase D) (v : Int64) :
    Prop :=
  match c with
  | .relation rel =>
      rel.op.Relates v.toInt32 rel.val.i.toInt32 ↔
        rel.op.Relates v rel.val.i
  | .set s => v.toInt32.toInt64 ∈ s.vals.i ↔ v ∈ s.vals.i
  | .range r =>
      (r.i.first ≤ v.toInt32.toInt64 ∧
        v.toInt32.toInt64 ≤ r.i.second) ↔
      (r.i.first ≤ v ∧ v ≤ r.i.second)
  | _ => True

def Constraint.Kept (c : Constraint D) (p : Instance D) : Prop :=
  ∀ v, p.value? c.attributeName = some (.kI v) →
    c.constraint.Keeps v

/- What fits into 32 bits is kept. -/
theorem RelationOperator.relates_toInt32
    {v s : Int64}
    (op : RelationOperator)
    (hV : v.toInt32.toInt64 = v)
    (hS : s.toInt32.toInt64 = s) :
    op.Relates v.toInt32 s.toInt32 ↔ op.Relates v s := by
  have hLt : ∀ x y : Int32,
      x.toInt64 < y.toInt64 ↔ x < y := by
    intro x y
    simp [Int64.lt_iff_toInt_lt, Int32.lt_iff_toInt_lt]
  have hLe : ∀ x y : Int32,
      x.toInt64 ≤ y.toInt64 ↔ x ≤ y := by
    intro x y
    simp [Int64.le_iff_toInt_le, Int32.le_iff_toInt_le]
  have hEq : v.toInt32 = s.toInt32 ↔ v = s := by
    constructor
    · intro hSame
      rw [← hV, ← hS, hSame]
    · exact congrArg Int64.toInt32
  cases op with
  | eq => simpa [Relates] using hEq
  | noteq => simpa [Relates] using not_congr hEq
  | lt =>
    have := hLt v.toInt32 s.toInt32
    rw [hV, hS] at this
    exact this.symm
  | lteq =>
    have := hLe v.toInt32 s.toInt32
    rw [hV, hS] at this
    exact this.symm
  | gt =>
    have := hLt s.toInt32 v.toInt32
    rw [hV, hS] at this
    exact this.symm
  | gteq =>
    have := hLe s.toInt32 v.toInt32
    rw [hV, hS] at this
    exact this.symm

omit [Double D] in
theorem ConstraintCase.keeps_of_fits
    {c : ConstraintCase D}
    {v : Int64}
    (hValue : v.toInt32.toInt64 = v)
    (hRelation : ∀ relation, c = .relation relation →
      relation.val.i.toInt32.toInt64 = relation.val.i) :
    c.Keeps v := by
  cases c with
  | relation relation =>
    exact relation.op.relates_toInt32 hValue
      (hRelation relation rfl)
  | set set => simp [Keeps, hValue]
  | range range => simp [Keeps, hValue]
  | distance distance => trivial
  | notSet => trivial

end Pb

namespace Oef

------------------------------------------------------------
-- Checks of One Value
------------------------------------------------------------

theorem checkValue_iff
    {T : Type}
    [BEq T] [LT T] [LE T]
    [DecidableLT T] [DecidableLE T]
    (hSymm : ∀ x y : T, (x == y) = (y == x))
    (op : Pb.RelationOperator)
    (s v : T) :
    Relation.checkValue op s v = true ↔ op.Relates v s := by
  cases op <;>
    simp [Relation.checkValue, Pb.RelationOperator.Relates,
      hSymm s v, bne]

theorem Location.beq_comm (x y : Location D) :
    (x == y) = (y == x) :=
  Bool.eq_iff_iff.mpr ⟨Location.beq_symm, Location.beq_symm⟩

/- Locations compare as those that messages carry. -/
theorem relates_ofPb_iff
    (op : Pb.RelationOperator)
    (v s : Pb.Location D) :
    op.Relates (⟨v.lon, v.lat⟩ : Location D) ⟨s.lon, s.lat⟩ ↔
      op.Relates v s := by
  cases op <;> exact Iff.rfl

theorem Relation.check_iff
    (rel : Pb.Relation D)
    {w : Pb.Value D}
    {v : VariantType D}
    (hKind : rel.val.kind = w.kind)
    (hValue : Instance.ofValue w = some v)
    (hInt : ∀ i, w ≠ .kI i) :
    check rel v = true ↔ rel.Holds w := by
  cases w with
  | kI i => exact absurd rfl (hInt i)
  | notSet => cases hValue
  | kS s =>
    obtain rfl := Option.some.inj hValue
    cases hVal : rel.val <;> rw [hVal] at hKind <;> cases hKind
    simp only [check, Relation.getString, hVal, Pb.Value.s,
      Pb.Relation.Holds]
    exact checkValue_iff (fun _ _ => BEq.comm) _ _ _
  | kD d =>
    obtain rfl := Option.some.inj hValue
    cases hVal : rel.val <;> rw [hVal] at hKind <;> cases hKind
    simp only [check, Relation.getDouble, hVal, Pb.Value.d,
      Pb.Relation.Holds]
    exact checkValue_iff Double.beq_comm _ _ _
  | kB b =>
    obtain rfl := Option.some.inj hValue
    cases hVal : rel.val <;> rw [hVal] at hKind <;> cases hKind
    simp only [check, Relation.getBool, hVal, Pb.Value.b,
      Pb.Relation.Holds]
    exact checkValue_iff (fun _ _ => BEq.comm) _ _ _
  | kL l =>
    obtain rfl := Option.some.inj hValue
    cases hVal : rel.val <;> rw [hVal] at hKind <;> cases hKind
    simp only [check, Relation.getLocation, hVal, Pb.Value.l,
      Pb.Relation.Holds]
    rw [checkValue_iff Location.beq_comm]
    exact relates_ofPb_iff _ _ _

theorem Set.found_iff
    (vals : Pb.SetValues D)
    {w : Pb.Value D}
    {v : VariantType D}
    (hKind : vals.kind = w.kind)
    (hValue : Instance.ofValue w = some v)
    (hInt : ∀ i, w ≠ .kI i) :
    found vals v = true ↔ vals.Contain w := by
  cases w with
  | kI i => exact absurd rfl (hInt i)
  | notSet => cases hValue
  | kS s =>
    obtain rfl := Option.some.inj hValue
    cases vals <;> cases hKind
    simp [found, Pb.SetValues.s, Pb.SetValues.Contain]
  | kD d =>
    obtain rfl := Option.some.inj hValue
    cases vals <;> cases hKind
    simp [found, Pb.SetValues.d, Pb.SetValues.Contain]
  | kB b =>
    obtain rfl := Option.some.inj hValue
    cases vals <;> cases hKind
    simp [found, Pb.SetValues.b, Pb.SetValues.Contain]
  | kL l =>
    obtain rfl := Option.some.inj hValue
    cases vals <;> cases hKind
    simp only [found, Pb.SetValues.l, Pb.SetValues.Contain,
      List.any_eq_true]
    refine exists_congr fun val => and_congr_right fun _ => ?_
    simp only [Location.beqPb, Bool.and_eq_true]
    rw [Double.beq_comm l.lat, Double.beq_comm l.lon]
    exact and_comm.trans (Bool.and_eq_true _ _).to_iff.symm

theorem Set.check_iff
    (set : Pb.Set D)
    {w : Pb.Value D}
    {v : VariantType D}
    (hFound : found set.vals v = true ↔ set.vals.Contain w) :
    check set v = true ↔ set.Holds w := by
  unfold check Pb.Set.Holds
  cases set.op with
  | isIn => simpa using hFound
  | notIn => simp [← hFound]

theorem Range.between_iff (a b x : D) :
    ((minMax a b).1 ≤ x ∧ x ≤ (minMax a b).2) ↔
      Pb.Between a b x := by
  unfold minMax Pb.Between
  split <;> rfl

theorem Range.check_iff
    (range : Pb.Range D)
    {w : Pb.Value D}
    {v : VariantType D}
    (hKind : range.kind = w.kind)
    (hValue : Instance.ofValue w = some v)
    (hInt : ∀ i, w ≠ .kI i) :
    check range v = true ↔ range.Holds w := by
  cases w with
  | kI i => exact absurd rfl (hInt i)
  | notSet => cases hValue
  | kS s =>
    obtain rfl := Option.some.inj hValue
    cases range <;> cases hKind
    simp only [check, Bool.and_eq_true, decide_eq_true_eq]
    rfl
  | kD d =>
    obtain rfl := Option.some.inj hValue
    cases range <;> cases hKind
    simp only [check, Bool.and_eq_true, decide_eq_true_eq]
    rfl
  | kB b => cases range <;> cases hKind
  | kL l =>
    obtain rfl := Option.some.inj hValue
    cases range <;> cases hKind
    simp only [check, Bool.and_eq_true, decide_eq_true_eq,
      and_assoc, Pb.Range.Holds, ← between_iff]
    rfl

theorem Distance.check_iff
    (distance : Pb.Distance D)
    {w : Pb.Value D}
    {v : VariantType D}
    (hKind : some Pb.AttributeType.location = w.kind)
    (hValue : Instance.ofValue w = some v) :
    check distance v = true ↔ distance.Holds w := by
  cases w <;> cases hKind
  obtain rfl := Option.some.inj hValue
  simp only [check, decide_eq_true_eq]
  rfl

/- On a value that is no integer, a check is what the message
   means. -/
theorem Constraint.checkCase_iff
    (c : Pb.ConstraintCase D)
    {w : Pb.Value D}
    {v : VariantType D}
    (hKind : c.kind = w.kind)
    (hValue : Instance.ofValue w = some v)
    (hInt : ∀ i, w ≠ .kI i) :
    checkCase c v = true ↔ c.Holds w := by
  cases c with
  | set set =>
    exact Set.check_iff set
      (Set.found_iff set.vals hKind hValue hInt)
  | range range => exact Range.check_iff range hKind hValue hInt
  | relation relation =>
    exact Relation.check_iff relation hKind hValue hInt
  | distance distance =>
    exact Distance.check_iff distance hKind hValue
  | notSet => cases w <;> cases hKind; cases hValue

/- On an integer it is if the comparison keeps its outcome. -/
theorem Constraint.checkCase_int_iff
    (c : Pb.ConstraintCase D)
    {i : Int64}
    (hKind : c.kind = some .int) :
    (checkCase c (.int i.toInt32) = true ↔ c.Holds (.kI i)) ↔
      c.Keeps i := by
  cases c with
  | set set =>
    have hFound : Set.found set.vals (.int i.toInt32) = true ↔
        i.toInt32.toInt64 ∈ set.vals.i := by
      simp [Set.found]
    have hContain :
        set.vals.Contain (.kI i) ↔ i ∈ set.vals.i := by
      have hSetKind : set.vals.kind = some .int := hKind
      cases hVals : set.vals <;> rw [hVals] at hSetKind <;>
        cases hSetKind
      rfl
    simp only [checkCase, Set.check, Pb.ConstraintCase.Holds,
      Pb.Set.Holds, Pb.ConstraintCase.Keeps]
    cases set.op with
    | isIn => simp [hFound, hContain]
    | notIn =>
      simp only [if_true, Bool.not_eq_true', ← Bool.not_eq_true,
        hFound, hContain]
      exact not_iff_not
  | range range =>
    have hRangeKind : range.kind = some .int := hKind
    cases range <;> cases hRangeKind
    simp only [checkCase, Range.check, Bool.and_eq_true,
      decide_eq_true_eq]
    rfl
  | relation relation =>
    have hRelationKind : relation.val.kind = some .int := hKind
    cases hVal : relation.val <;> rw [hVal] at hRelationKind <;>
      cases hRelationKind
    simp only [checkCase, Relation.check, Relation.getInt,
      Pb.ConstraintCase.Holds, Pb.Relation.Holds, hVal,
      Pb.ConstraintCase.Keeps, Pb.Value.i,
      checkValue_iff (fun _ _ => BEq.comm)]
  | distance distance => cases hKind
  | notSet => cases hKind

------------------------------------------------------------
-- The Values of an Instance
------------------------------------------------------------

/- Later values go by what is there. -/
theorem Instance.lookup_foldl_assign
    (kvs : List (Pb.KeyValue D))
    (hKeys : (kvs.map Pb.KeyValue.key).Nodup)
    (hSet : ∀ kv ∈ kvs, kv.value ≠ .notSet)
    (values : ValueMap D)
    (name : String) :
    (kvs.foldl assign values).lookup name =
      match kvs.find? fun kv => kv.key = name with
      | some kv => ofValue kv.value
      | none => values.lookup name := by
  induction kvs generalizing values with
  | nil => simp
  | cons kv rest ih =>
    obtain ⟨hHead, hNodup⟩ := List.nodup_cons.mp hKeys
    have hRest := ih hNodup fun other hMem =>
      hSet other (List.mem_cons_of_mem kv hMem)
    have hValue : kv.value ≠ .notSet :=
      hSet kv List.mem_cons_self
    obtain ⟨v, hOf⟩ : ∃ v, ofValue kv.value = some v := by
      cases hCase : kv.value <;> simp [ofValue]
      exact hValue hCase
    rw [List.foldl_cons, hRest, List.find?_cons]
    by_cases hName : kv.key = name
    · have hNone : rest.find? (fun kv => kv.key = name) = none := by
        rw [List.find?_eq_none]
        intro other hMem hOther
        refine hHead (List.mem_map.mpr ⟨other, hMem, ?_⟩)
        rw [hName]
        exact of_decide_eq_true hOther
      subst hName
      simp only [hNone, decide_true, assign, hOf]
      exact AList.lookup_insert values
    · simp only [hName, decide_false]
      have hMiss :
          (assign values kv).lookup name = values.lookup name := by
        simp only [assign, hOf]
        exact AList.lookup_insert_ne (fun hEq => hName hEq.symm)
      rw [hMiss]

end Oef

/- Keys are distinct, and every value is set. -/
structure Pb.Instance.Legal (p : Pb.Instance D) : Prop where
  nodup : (p.values.map Pb.KeyValue.key).Nodup
  set : ∀ kv ∈ p.values, kv.value ≠ .notSet

/- A constraint is of the kind of the value that it names. -/
def Pb.Constraint.Matches
    (c : Pb.Constraint D)
    (p : Pb.Instance D) : Prop :=
  ∀ w, p.value? c.attributeName = some w →
    c.constraint.kind = w.kind

namespace Oef

theorem Instance.value_ofPb
    {p : Pb.Instance D}
    (hLegal : p.Legal)
    (name : String) :
    (Instance.ofPb p).value name =
      (p.value? name).bind ofValue := by
  unfold Instance.value Instance.ofPb Pb.Instance.value?
  rw [lookup_foldl_assign p.values hLegal.nodup hLegal.set]
  cases p.values.find? fun kv => kv.key = name <;> rfl

------------------------------------------------------------
-- Evaluation
------------------------------------------------------------

/- A constraint is checked for what it means if the comparison
   keeps its outcome, and only then. -/
theorem Constraint.checkInstance_iff
    {p : Pb.Instance D}
    (hLegal : p.Legal)
    (c : Pb.Constraint D)
    (hKind : c.Matches p) :
    (checkInstance c (Instance.ofPb p) = true ↔ c.Holds p) ↔
      c.Kept p := by
  unfold checkInstance Pb.Constraint.Holds Pb.Constraint.Kept
  rw [Instance.value_ofPb hLegal]
  cases hFound : p.value? c.attributeName with
  | none => simp
  | some w =>
    have hSame := hKind w hFound
    cases w with
    | notSet =>
      obtain ⟨kv, hKv, hNotSet⟩ := Option.map_eq_some_iff.mp hFound
      exact absurd hNotSet
        (hLegal.set kv (List.mem_of_find?_eq_some hKv))
    | kI i =>
      have hInt := checkCase_int_iff c.constraint (i := i) hSame
      simpa [Instance.ofValue, check] using hInt
    | kS s =>
      have hCheck := checkCase_iff c.constraint hSame rfl
        (fun i hEq => by cases hEq)
      simpa [Instance.ofValue, check] using hCheck
    | kD d =>
      have hCheck := checkCase_iff c.constraint hSame rfl
        (fun i hEq => by cases hEq)
      simpa [Instance.ofValue, check] using hCheck
    | kB b =>
      have hCheck := checkCase_iff c.constraint hSame rfl
        (fun i hEq => by cases hEq)
      simpa [Instance.ofValue, check] using hCheck
    | kL l =>
      have hCheck := checkCase_iff c.constraint hSame rfl
        (fun i hEq => by cases hEq)
      simpa [Instance.ofValue, check] using hCheck

theorem QueryModel.check_iff
    (m : Pb.Model D)
    (i : Instance D) :
    check m i = true ↔
      (∀ dm, m.model = some dm → dm.name = i.model.name) ∧
        ∀ e ∈ m.constraints, e.formula.Holds fun c =>
          Constraint.checkInstance c i = true := by
  unfold check sameModel
  rw [ConstraintExpr.andCheck_eq_all]
  cases hModel : m.model with
  | none => simp [ConstraintExpr.checkWith_iff]
  | some dm =>
    by_cases hName : dm.name = i.model.name <;>
      simp [hName, ConstraintExpr.checkWith_iff]

/-
  For an instance and any constraints that match its values:
  all queries that are made of these constraints evaluate to
  what they mean exactly if each of the constraints keeps the
  outcome of its comparison.
-/
theorem check_iff_holds_iff
    (p : Pb.Instance D)
    (hLegal : p.Legal)
    (among : Pb.Constraint D → Prop)
    (hKinds : ∀ c, among c → c.Matches p) :
    (∀ m : Pb.Model D,
      (∀ e ∈ m.constraints, ∀ c ∈ e.formula.atoms, among c) →
      (QueryModel.check m (Instance.ofPb p) = true ↔
        m.Holds p)) ↔
    ∀ c, among c → c.Kept p := by
  constructor
  · intro hAll c hAmong
    have hOne := hAll
      { constraints := [.constraint c], model := none }
      (by simpa using hAmong)
    rw [← Constraint.checkInstance_iff hLegal c (hKinds c hAmong)]
    simpa [QueryModel.check_iff, Pb.Model.Holds] using hOne
  · intro hKept m hMade
    rw [QueryModel.check_iff, Pb.Model.Holds]
    refine and_congr Iff.rfl (forall₂_congr fun e hMem => ?_)
    refine Formula.holds_congr fun c hAtom => ?_
    have hAmong := hMade e hMem c hAtom
    exact (Constraint.checkInstance_iff hLegal c
      (hKinds c hAmong)).mpr (hKept c hAmong)

namespace PriceQuery

def query : Pb.Model Int where
  constraints := [.constraint below]
  model := none

/- A price that does not fit into 32 bits. -/
def wide : Pb.Instance Int where
  model := model.handle
  values := [⟨"price", .kI 4294967299⟩]

theorem legal_wide : wide.Legal where
  nodup := by simp [wide]
  set := by simp [wide]

theorem value?_wide
    {w : Pb.Value Int}
    (hFound : wide.value? "price" = some w) :
    w = .kI 4294967299 :=
  (Option.some.inj hFound).symm

theorem matches_wide : below.Matches wide := by
  intro w hFound
  rw [value?_wide hFound]
  rfl

theorem not_lt_five : ¬ (4294967299 : Int64) < 5 := by
  decide

end PriceQuery

theorem check_iff_holds_iff_price :
    (∀ m : Pb.Model Int,
      (∀ e ∈ m.constraints, ∀ c ∈ e.formula.atoms,
        c = PriceQuery.below) →
      (QueryModel.check m (Instance.ofPb PriceQuery.wide) = true ↔
        m.Holds PriceQuery.wide)) ↔
    ∀ c, c = PriceQuery.below → c.Kept PriceQuery.wide :=
  check_iff_holds_iff PriceQuery.wide PriceQuery.legal_wide
    (fun c => c = PriceQuery.below)
    (fun _ hEq => hEq ▸ PriceQuery.matches_wide)

/- The price is cut to three, which is below five. -/
theorem check_wide_price :
    PriceQuery.wide.Legal ∧
    PriceQuery.below.Matches PriceQuery.wide ∧
    QueryModel.check PriceQuery.query
      (Instance.ofPb PriceQuery.wide) = true ∧
    ¬ PriceQuery.query.Holds PriceQuery.wide := by
  refine ⟨PriceQuery.legal_wide, PriceQuery.matches_wide,
    rfl, ?_⟩
  rintro ⟨-, hAll⟩
  have hBelow := hAll _ List.mem_cons_self
  rw [Pb.ConstraintExpr.formula_constraint,
    Formula.holds_atom] at hBelow
  obtain ⟨w, hFound, hHolds⟩ := hBelow
  rw [PriceQuery.value?_wide hFound] at hHolds
  exact PriceQuery.not_lt_five hHolds

end Oef

end OefCore

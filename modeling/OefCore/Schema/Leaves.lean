import OefCore.Schema.VariantType

/-
  The constraints on one value: `Relation`, `Set`, `Distance`
  and `Range`, and `Constraint`, which is one of them.

  Main declarations:
    * `Oef.Relation.check`, `Oef.Set.check`,
      `Oef.Distance.check`, `Oef.Range.check`
    * `Oef.Constraint.checkCase`, `Oef.Constraint.validCase`
    * `Oef.Constraint.validCase_iff`
-/

namespace OefCore

namespace Oef

variable {D : Type} [Double D]

------------------------------------------------------------
-- Relations
------------------------------------------------------------

namespace Relation

/- `get<int>`: the 64 bits of the message are stored in an
   `int`. -/
def getInt (rel : Pb.Relation D) : Int32 :=
  rel.val.i.toInt32

def getDouble (rel : Pb.Relation D) : D :=
  rel.val.d

def getString (rel : Pb.Relation D) : String :=
  rel.val.s

def getBool (rel : Pb.Relation D) : Bool :=
  rel.val.b

def getLocation (rel : Pb.Relation D) : Location D where
  lon := rel.val.l.lon
  lat := rel.val.l.lat

/- `s` is what `get` gave. -/
def checkValue
    {T : Type}
    [BEq T] [LT T] [LE T]
    [DecidableLT T] [DecidableLE T]
    (op : Pb.RelationOperator)
    (s v : T) : Bool :=
  match op with
  | .eq => s == v
  | .noteq => s != v
  | .lt => v < s
  | .lteq => v ≤ s
  | .gt => v > s
  | .gteq => v ≥ s

def equal (op : Pb.RelationOperator) : Bool :=
  op == .eq || op == .noteq

def valid
    (rel : Pb.Relation D)
    (t : Pb.AttributeType) : Bool :=
  match rel.val with
  | .kS _ => t == .string
  | .kI _ => t == .int
  | .kD _ => t == .double
  | .kL _ => t == .location && equal rel.op
  | .kB _ => t == .bool && equal rel.op
  | .notSet => false

def check
    (rel : Pb.Relation D)
    (v : VariantType D) : Bool :=
  match v with
  | .int i => checkValue rel.op (getInt rel) i
  | .double d => checkValue rel.op (getDouble rel) d
  | .string s => checkValue rel.op (getString rel) s
  | .bool b => checkValue rel.op (getBool rel) b
  | .location l => checkValue rel.op (getLocation rel) l

end Relation

------------------------------------------------------------
-- Sets
------------------------------------------------------------

namespace Set

def valid
    (set : Pb.Set D)
    (t : Pb.AttributeType) : Bool :=
  match set.vals with
  | .kS _ => t == .string
  | .kI _ => t == .int
  | .kD _ => t == .double
  | .kL _ => t == .location
  | .kB _ => t == .bool
  | .notSet => false

/- Whether the value is one of the set's.  An `int` is widened
   to the 64 bits of the message. -/
def found
    (vals : Pb.SetValues D)
    (v : VariantType D) : Bool :=
  match v with
  | .int i => vals.i.any fun val => val == i.toInt64
  | .double d => vals.d.any fun val => val == d
  | .string st => vals.s.any fun val => val == st
  | .bool b => vals.b.any fun val => val == b
  | .location l => vals.l.any fun val => l.beqPb val

def check
    (set : Pb.Set D)
    (v : VariantType D) : Bool :=
  let res := found set.vals v
  if set.op = .notIn then !res else res

end Set

------------------------------------------------------------
-- Distances
------------------------------------------------------------

namespace Distance

def valid
    (_dist : Pb.Distance D)
    (t : Pb.AttributeType) : Bool :=
  t == .location

def check
    (distance : Pb.Distance D)
    (v : VariantType D) : Bool :=
  match v with
  | .location l =>
      let loc : Location D :=
        ⟨distance.center.lon, distance.center.lat⟩
      loc.distance l ≤ distance.distance
  | _ => false

end Distance

------------------------------------------------------------
-- Ranges
------------------------------------------------------------

namespace Range

def minMax (a b : D) : D × D :=
  if a < b then (a, b) else (b, a)

def valid
    (range : Pb.Range D)
    (t : Pb.AttributeType) : Bool :=
  match range with
  | .kS _ => t == .string
  | .kI _ => t == .int
  | .kD _ => t == .double
  | .kL _ => t == .location
  | .notSet => false

def check
    (range : Pb.Range D)
    (v : VariantType D) : Bool :=
  match v with
  | .int i =>
      let p := range.i
      i.toInt64 ≥ p.first && i.toInt64 ≤ p.second
  | .double d =>
      let p := range.d
      d ≥ p.first && d ≤ p.second
  | .string s =>
      let p := range.s
      s ≥ p.first && s ≤ p.second
  | .location s =>
      let p := range.l
      let (minLat, maxLat) := minMax p.first.lat p.second.lat
      let (minLon, maxLon) := minMax p.first.lon p.second.lon
      s.lat ≥ minLat && s.lat ≤ maxLat &&
        s.lon ≥ minLon && s.lon ≤ maxLon
  | .bool _ => false

end Range

------------------------------------------------------------
-- Constraints
------------------------------------------------------------

namespace Constraint

/- `check` of a constraint on a value. -/
def checkCase
    (c : Pb.ConstraintCase D)
    (v : VariantType D) : Bool :=
  match c with
  | .set set => Set.check set v
  | .range range => Range.check range v
  | .relation relation => Relation.check relation v
  | .distance distance => Distance.check distance v
  | .notSet => false

/- The last switch of `valid`. -/
def validCase
    (c : Pb.ConstraintCase D)
    (t : Pb.AttributeType) : Bool :=
  match c with
  | .set set => Set.valid set t
  | .range range => Range.valid range t
  | .relation relation => Relation.valid relation t
  | .distance distance => Distance.valid distance t
  | .notSet => false

end Constraint

end Oef

------------------------------------------------------------
-- Kinds
------------------------------------------------------------

namespace Pb

variable {D : Type}

def SetValues.kind : SetValues D → Option AttributeType
  | .kS _ => some .string
  | .kD _ => some .double
  | .kB _ => some .bool
  | .kI _ => some .int
  | .kL _ => some .location
  | .notSet => none

def Range.kind : Range D → Option AttributeType
  | .kS _ => some .string
  | .kI _ => some .int
  | .kD _ => some .double
  | .kL _ => some .location
  | .notSet => none

/- The type of value that a constraint is about. -/
def ConstraintCase.kind :
    ConstraintCase D → Option AttributeType
  | .set s => s.vals.kind
  | .range r => r.kind
  | .relation r => r.val.kind
  | .distance _ => some .location
  | .notSet => none

end Pb

namespace Oef

variable {D : Type}

/- An order is asked of values that have one. -/
def Ordered (c : Pb.ConstraintCase D) : Prop :=
  ∀ relation, c = .relation relation →
    Relation.equal relation.op = false →
    c.kind ≠ some .bool ∧ c.kind ≠ some .location

theorem Constraint.validCase_iff
    (c : Pb.ConstraintCase D)
    (t : Pb.AttributeType) :
    validCase c t = true ↔ c.kind = some t ∧ Ordered c := by
  unfold Ordered
  cases c with
  | set set =>
    cases hVals : set.vals <;> cases t <;>
      simp [validCase, Set.valid, Pb.ConstraintCase.kind,
        Pb.SetValues.kind, hVals]
  | range range =>
    cases range <;> cases t <;>
      simp [validCase, Range.valid, Pb.ConstraintCase.kind,
        Pb.Range.kind]
  | relation relation =>
    cases hVal : relation.val <;> cases t <;>
      simp [validCase, Relation.valid, Pb.ConstraintCase.kind,
        Pb.Value.kind, hVal]
  | distance distance =>
    cases t <;>
      simp [validCase, Distance.valid, Pb.ConstraintCase.kind]
  | notSet => simp [validCase, Pb.ConstraintCase.kind]

end Oef

end OefCore

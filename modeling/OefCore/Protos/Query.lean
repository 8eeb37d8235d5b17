import Mathlib.Tactic.Common

/-
  The messages of `query.proto`, with what their generated
  classes return for what is not set.

  Main declarations:
    * `Double`
    * `Pb.Value`, `Pb.Instance`
    * `Pb.Relation`, `Pb.Set`, `Pb.Range`, `Pb.Distance`
    * `Pb.Constraint`, `Pb.ConstraintExpr`, `Pb.Model`
-/

namespace OefCore

------------------------------------------------------------
-- Doubles
------------------------------------------------------------

/-
  What is used of doubles: how they compare, and the distance
  between two places, each given by its longitude and
  latitude.  What is no number equals nothing.
-/
class Double (D : Type) extends BEq D, LT D, LE D where
  zero : D
  distance : D → D → D → D → D
  decidableLT : DecidableLT D
  decidableLE : DecidableLE D
  beq_symm : ∀ {x y : D}, (x == y) = true → (y == x) = true
  beq_trans : ∀ {x y z : D}, (x == y) = true →
    (y == z) = true → (x == z) = true

attribute [reducible, instance] Double.decidableLT
attribute [reducible, instance] Double.decidableLE

theorem Double.beq_comm
    {D : Type}
    [Double D]
    (x y : D) :
    (x == y) = (y == x) :=
  Bool.eq_iff_iff.mpr ⟨Double.beq_symm, Double.beq_symm⟩

/- Whole numbers, where no distance is measured. -/
instance : Double Int where
  zero := 0
  distance _ _ _ _ := 0
  decidableLT := inferInstance
  decidableLE := inferInstance
  beq_symm := BEq.symm
  beq_trans := BEq.trans

namespace Pb

------------------------------------------------------------
-- Data Models
------------------------------------------------------------

inductive AttributeType where
  | double
  | int
  | bool
  | string
  | location
  deriving DecidableEq, Repr

structure Attribute where
  name : String
  type : AttributeType
  required : Bool
  description : String
  deriving DecidableEq, Repr

structure DataModel where
  name : String
  attributes : List Attribute
  description : String
  deriving DecidableEq, Repr

/- A model that is not set. -/
def DataModel.unset : DataModel where
  name := ""
  attributes := []
  description := ""

------------------------------------------------------------
-- Values
------------------------------------------------------------

structure Location (D : Type) where
  lon : D
  lat : D
  deriving DecidableEq, Repr

inductive Value (D : Type) where
  | kS (s : String)
  | kD (d : D)
  | kB (b : Bool)
  | kI (i : Int64)
  | kL (l : Location D)
  | notSet
  deriving DecidableEq

structure KeyValue (D : Type) where
  key : String
  value : Value D
  deriving DecidableEq

structure Instance (D : Type) where
  model : DataModel
  values : List (KeyValue D)
  deriving DecidableEq

def Location.unset {D : Type} [Double D] : Location D where
  lon := Double.zero
  lat := Double.zero

namespace Value

variable {D : Type}

def s : Value D → String
  | .kS s => s
  | _ => ""

def d [Double D] : Value D → D
  | .kD d => d
  | _ => Double.zero

def b : Value D → Bool
  | .kB b => b
  | _ => false

def i : Value D → Int64
  | .kI i => i
  | _ => 0

def l [Double D] : Value D → Location D
  | .kL l => l
  | _ => .unset

/- The type of attribute that a value is for. -/
def kind : Value D → Option AttributeType
  | .kS _ => some .string
  | .kD _ => some .double
  | .kB _ => some .bool
  | .kI _ => some .int
  | .kL _ => some .location
  | .notSet => none

end Value

------------------------------------------------------------
-- Constraints on One Value
------------------------------------------------------------

inductive RelationOperator where
  | eq
  | lt
  | lteq
  | gt
  | gteq
  | noteq
  deriving DecidableEq, Repr

structure Relation (D : Type) where
  op : RelationOperator
  val : Value D
  deriving DecidableEq

inductive SetOperator where
  | isIn
  | notIn
  deriving DecidableEq, Repr

inductive SetValues (D : Type) where
  | kS (vals : List String)
  | kD (vals : List D)
  | kB (vals : List Bool)
  | kI (vals : List Int64)
  | kL (vals : List (Location D))
  | notSet
  deriving DecidableEq

namespace SetValues

variable {D : Type}

def s : SetValues D → List String
  | .kS vals => vals
  | _ => []

def d : SetValues D → List D
  | .kD vals => vals
  | _ => []

def b : SetValues D → List Bool
  | .kB vals => vals
  | _ => []

def i : SetValues D → List Int64
  | .kI vals => vals
  | _ => []

def l : SetValues D → List (Location D)
  | .kL vals => vals
  | _ => []

end SetValues

structure Set (D : Type) where
  op : SetOperator
  vals : SetValues D
  deriving DecidableEq

/- `StringPair`, `IntPair`, `DoublePair` and `LocationPair`. -/
structure Pair (T : Type) where
  first : T
  second : T
  deriving DecidableEq

inductive Range (D : Type) where
  | kS (pair : Pair String)
  | kI (pair : Pair Int64)
  | kD (pair : Pair D)
  | kL (pair : Pair (Location D))
  | notSet
  deriving DecidableEq

namespace Range

variable {D : Type}

def s : Range D → Pair String
  | .kS pair => pair
  | _ => ⟨"", ""⟩

def i : Range D → Pair Int64
  | .kI pair => pair
  | _ => ⟨0, 0⟩

def d [Double D] : Range D → Pair D
  | .kD pair => pair
  | _ => ⟨Double.zero, Double.zero⟩

def l [Double D] : Range D → Pair (Location D)
  | .kL pair => pair
  | _ => ⟨.unset, .unset⟩

end Range

structure Distance (D : Type) where
  center : Location D
  distance : D
  deriving DecidableEq

------------------------------------------------------------
-- Constraint Expressions
------------------------------------------------------------

inductive ConstraintCase (D : Type) where
  | set (set : Set D)
  | range (range : Range D)
  | relation (relation : Relation D)
  | distance (distance : Distance D)
  | notSet
  deriving DecidableEq

structure Constraint (D : Type) where
  attributeName : String
  constraint : ConstraintCase D
  deriving DecidableEq

inductive ConstraintExpr (D : Type) where
  | or (expr : List (ConstraintExpr D))
  | and (expr : List (ConstraintExpr D))
  | not (expr : ConstraintExpr D)
  | constraint (constraint : Constraint D)
  | notSet

/- Whether there is a data model is asked for. -/
structure Model (D : Type) where
  constraints : List (ConstraintExpr D)
  model : Option DataModel

/- What holds of a constraint, and of an expression if it holds
   of all that it is made of, holds of all expressions. -/
@[induction_eliminator]
theorem ConstraintExpr.induct
    {D : Type}
    {motive : ConstraintExpr D → Prop}
    (or : ∀ expr, (∀ e ∈ expr, motive e) → motive (.or expr))
    (and : ∀ expr, (∀ e ∈ expr, motive e) → motive (.and expr))
    (not : ∀ expr, motive expr → motive (.not expr))
    (constraint : ∀ c, motive (.constraint c))
    (notSet : motive .notSet)
    (expr : ConstraintExpr D) :
    motive expr := by
  refine ConstraintExpr.rec (motive_1 := motive)
    (motive_2 := fun expr => ∀ e ∈ expr, motive e)
    or and not constraint notSet ?_ ?_ expr
  · exact fun e hMem => absurd hMem List.not_mem_nil
  · intro head tail hHead hTail e hMem
    rcases List.mem_cons.mp hMem with rfl | hLater
    · exact hHead
    · exact hTail e hLater

end Pb

end OefCore

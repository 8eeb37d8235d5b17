import OefCore.Protos.Query

/-
  The values that instances keep: `Location` and
  `VariantType`, with how they compare.

  Main declarations:
    * `Oef.Location`
    * `Oef.VariantType`, `Oef.VariantType.kind`
-/

------------------------------------------------------------
-- Locations
------------------------------------------------------------

namespace OefCore

namespace Oef

variable {D : Type}

structure Location (D : Type) where
  lon : D
  lat : D

namespace Location

variable [Double D]

def beq (left right : Location D) : Bool :=
  left.lon == right.lon && left.lat == right.lat

instance : BEq (Location D) where
  beq := beq

/- Places are ordered by their latitude. -/
instance : LT (Location D) where
  lt left right := left.lat < right.lat

instance : LE (Location D) where
  le left right := left.lat ≤ right.lat

instance : DecidableLT (Location D) :=
  fun left right => inferInstanceAs (Decidable (left.lat < right.lat))

instance : DecidableLE (Location D) :=
  fun left right => inferInstanceAs (Decidable (left.lat ≤ right.lat))

/- `operator==` with a location of a message. -/
def beqPb (l : Location D) (other : Pb.Location D) : Bool :=
  l.lat == other.lat && l.lon == other.lon

def distance (l rhs : Location D) : D :=
  Double.distance l.lon l.lat rhs.lon rhs.lat

theorem beq_symm {left right : Location D}
    (hEqual : (left == right) = true) :
    (right == left) = true := by
  obtain ⟨hLon, hLat⟩ := (Bool.and_eq_true _ _).mp hEqual
  exact (Bool.and_eq_true _ _).mpr
    ⟨Double.beq_symm hLon, Double.beq_symm hLat⟩

theorem beq_trans {x y z : Location D}
    (hLeft : (x == y) = true)
    (hRight : (y == z) = true) :
    (x == z) = true := by
  obtain ⟨hLon, hLat⟩ := (Bool.and_eq_true _ _).mp hLeft
  obtain ⟨hLon', hLat'⟩ := (Bool.and_eq_true _ _).mp hRight
  exact (Bool.and_eq_true _ _).mpr
    ⟨Double.beq_trans hLon hLon', Double.beq_trans hLat hLat'⟩

end Location

------------------------------------------------------------
-- Variants
------------------------------------------------------------

inductive VariantType (D : Type) where
  | int (i : Int32)
  | double (d : D)
  | string (s : String)
  | bool (b : Bool)
  | location (l : Location D)

namespace VariantType

/- The type of attribute that a value is for. -/
def kind : VariantType D → Pb.AttributeType
  | .int _ => .int
  | .double _ => .double
  | .string _ => .string
  | .bool _ => .bool
  | .location _ => .location

variable [Double D]

def beq : VariantType D → VariantType D → Bool
  | .int left, .int right => left == right
  | .double left, .double right => left == right
  | .string left, .string right => left == right
  | .bool left, .bool right => left == right
  | .location left, .location right => left == right
  | _, _ => false

instance : BEq (VariantType D) where
  beq := beq

theorem beq_symm {x y : VariantType D}
    (hEqual : (x == y) = true) :
    (y == x) = true := by
  change beq x y = true at hEqual
  change beq y x = true
  cases x <;> cases y <;> try contradiction
  case int.int => exact BEq.symm hEqual
  case double.double => exact Double.beq_symm hEqual
  case string.string => exact BEq.symm hEqual
  case bool.bool => exact BEq.symm hEqual
  case location.location => exact Location.beq_symm hEqual

theorem beq_trans {x y z : VariantType D}
    (hLeft : (x == y) = true)
    (hRight : (y == z) = true) :
    (x == z) = true := by
  change beq x y = true at hLeft
  change beq y z = true at hRight
  change beq x z = true
  cases x <;> cases y <;> (try contradiction) <;>
    cases z <;> try contradiction
  case int.int.int => exact BEq.trans hLeft hRight
  case double.double.double => exact Double.beq_trans hLeft hRight
  case string.string.string => exact BEq.trans hLeft hRight
  case bool.bool.bool => exact BEq.trans hLeft hRight
  case location.location.location =>
    exact Location.beq_trans hLeft hRight

end VariantType

end Oef

end OefCore

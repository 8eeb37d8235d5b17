import OefCore.Library.Formula
import OefCore.Schema.Instance
import OefCore.Schema.Leaves

/-
  Constraint expressions, on values and on instances, and
  queries, which are conjunctions of them.

  Main declarations:
    * `Oef.ConstraintExpr.checkWith`,
      `Oef.ConstraintExpr.visited`, `Oef.ConstraintExpr.valid`
    * `Pb.ConstraintExpr.formula`
    * `Oef.QueryModel.check`, `Oef.QueryModel.construct`
    * `Oef.valid_queries_typeSafe`
-/

namespace OefCore

variable {D : Type}

------------------------------------------------------------
-- Expressions as Formulas
------------------------------------------------------------

namespace Pb.ConstraintExpr

mutual

/- What is not set holds of nothing. -/
def formula : ConstraintExpr D → Formula (Constraint D)
  | .or expr => .any (formulas expr)
  | .and expr => .all (formulas expr)
  | .not expr => .not (formula expr)
  | .constraint c => .atom c
  | .notSet => .any []

def formulas :
    List (ConstraintExpr D) → List (Formula (Constraint D))
  | [] => []
  | e :: rest => formula e :: formulas rest

end

theorem formulas_eq (expr : List (ConstraintExpr D)) :
    formulas expr = expr.map formula := by
  induction expr with
  | nil => rfl
  | cons e rest ih =>
    rw [List.map_cons, ← ih]
    rfl

@[simp]
theorem formula_or (expr : List (ConstraintExpr D)) :
    formula (.or expr) = .any (expr.map formula) := by
  rw [← formulas_eq]
  rfl

@[simp]
theorem formula_and (expr : List (ConstraintExpr D)) :
    formula (.and expr) = .all (expr.map formula) := by
  rw [← formulas_eq]
  rfl

@[simp]
theorem formula_not (expr : ConstraintExpr D) :
    formula (.not expr) = .not (formula expr) :=
  rfl

@[simp]
theorem formula_constraint (c : Constraint D) :
    formula (.constraint c) = .atom c :=
  rfl

@[simp]
theorem formula_notSet :
    formula (.notSet : ConstraintExpr D) = .any [] :=
  rfl

end Pb.ConstraintExpr

namespace Oef

------------------------------------------------------------
-- Constraints
------------------------------------------------------------

namespace Constraint

def check [Double D]
    (c : Pb.Constraint D)
    (v : VariantType D) : Bool :=
  checkCase c.constraint v

def checkInstance [Double D]
    (c : Pb.Constraint D)
    (i : Instance D) : Bool :=
  match i.value c.attributeName with
  | none => false
  | some v => check c v

def valid
    (c : Pb.Constraint D)
    (dm : Pb.DataModel) : Bool :=
  match attribute? dm c.attributeName with
  | none => false
  | some a => validCase c.constraint a.type

end Constraint

------------------------------------------------------------
-- Expressions
------------------------------------------------------------

namespace ConstraintExpr

mutual

/- `check` on a value and `check` on an instance differ in how
   a constraint is checked. -/
def checkWith (leaf : Pb.Constraint D → Bool) :
    Pb.ConstraintExpr D → Bool
  | .or expr => orCheck leaf expr
  | .and expr => andCheck leaf expr
  | .not expr => !checkWith leaf expr
  | .constraint c => leaf c
  | .notSet => false

def orCheck (leaf : Pb.Constraint D → Bool) :
    List (Pb.ConstraintExpr D) → Bool
  | [] => false
  | c :: rest =>
      if checkWith leaf c then true else orCheck leaf rest

def andCheck (leaf : Pb.Constraint D → Bool) :
    List (Pb.ConstraintExpr D) → Bool
  | [] => true
  | c :: rest =>
      if !checkWith leaf c then false else andCheck leaf rest

end

def check [Double D]
    (e : Pb.ConstraintExpr D)
    (v : VariantType D) : Bool :=
  checkWith (fun c => Constraint.check c v) e

def checkInstance [Double D]
    (e : Pb.ConstraintExpr D)
    (i : Instance D) : Bool :=
  checkWith (fun c => Constraint.checkInstance c i) e

mutual

/- The constraints that are checked, in this order.  A loop
   over parts ends with the first that decides it. -/
def visited (leaf : Pb.Constraint D → Bool) :
    Pb.ConstraintExpr D → List (Pb.Constraint D)
  | .or expr => visitedUntil leaf true expr
  | .and expr => visitedUntil leaf false expr
  | .not expr => visited leaf expr
  | .constraint c => [c]
  | .notSet => []

def visitedUntil
    (leaf : Pb.Constraint D → Bool)
    (decisive : Bool) :
    List (Pb.ConstraintExpr D) → List (Pb.Constraint D)
  | [] => []
  | c :: rest => visited leaf c ++
      if checkWith leaf c = decisive then []
      else visitedUntil leaf decisive rest

end

mutual

def valid (dm : Pb.DataModel) : Pb.ConstraintExpr D → Bool
  | .or expr => allValid dm expr && decide (expr.length > 1)
  | .and expr => allValid dm expr && decide (expr.length > 1)
  | .not expr => valid dm expr
  | .constraint c => Constraint.valid c dm
  | .notSet => false

def allValid (dm : Pb.DataModel) :
    List (Pb.ConstraintExpr D) → Bool
  | [] => true
  | c :: rest =>
      if !valid dm c then false else allValid dm rest

end

theorem orCheck_eq_any
    (leaf : Pb.Constraint D → Bool)
    (expr : List (Pb.ConstraintExpr D)) :
    orCheck leaf expr = expr.any (checkWith leaf) := by
  induction expr with
  | nil => rw [orCheck, List.any_nil]
  | cons c rest ih =>
    rw [orCheck, ih, List.any_cons]
    cases checkWith leaf c <;> simp

theorem andCheck_eq_all
    (leaf : Pb.Constraint D → Bool)
    (expr : List (Pb.ConstraintExpr D)) :
    andCheck leaf expr = expr.all (checkWith leaf) := by
  induction expr with
  | nil => rw [andCheck, List.all_nil]
  | cons c rest ih =>
    rw [andCheck, ih, List.all_cons]
    cases checkWith leaf c <;> simp

/- The loops compute the connectives. -/
theorem checkWith_iff
    (leaf : Pb.Constraint D → Bool)
    (e : Pb.ConstraintExpr D) :
    checkWith leaf e = true ↔
      e.formula.Holds fun c => leaf c = true := by
  induction e with
  | or expr ih =>
    rw [checkWith, orCheck_eq_any]
    simp only [List.any_eq_true, Pb.ConstraintExpr.formula_or,
      Formula.holds_any, List.mem_map,
      exists_exists_and_eq_and]
    exact exists_congr fun c => and_congr_right (ih c)
  | and expr ih =>
    rw [checkWith, andCheck_eq_all]
    simp only [List.all_eq_true, Pb.ConstraintExpr.formula_and,
      Formula.holds_all, List.forall_mem_map]
    exact forall₂_congr ih
  | not expr ih =>
    rw [checkWith]
    simp [← ih]
  | constraint c =>
    rw [checkWith]
    simp
  | notSet =>
    rw [checkWith]
    simp

theorem exists_of_mem_visitedUntil
    {leaf : Pb.Constraint D → Bool}
    {decisive : Bool}
    {expr : List (Pb.ConstraintExpr D)}
    {c : Pb.Constraint D}
    (hVisited : c ∈ visitedUntil leaf decisive expr) :
    ∃ e ∈ expr, c ∈ visited leaf e := by
  induction expr with
  | nil => simp [visitedUntil] at hVisited
  | cons e rest ih =>
    rw [visitedUntil, List.mem_append] at hVisited
    rcases hVisited with hHead | hTail
    · exact ⟨e, List.mem_cons_self, hHead⟩
    · split at hTail
      · cases hTail
      · obtain ⟨other, hOther, hIn⟩ := ih hTail
        exact ⟨other, List.mem_cons_of_mem e hOther, hIn⟩

theorem mem_atoms_of_visited
    {leaf : Pb.Constraint D → Bool}
    {e : Pb.ConstraintExpr D}
    {c : Pb.Constraint D}
    (hVisited : c ∈ visited leaf e) :
    c ∈ e.formula.atoms := by
  induction e with
  | or expr ih =>
    rw [visited] at hVisited
    obtain ⟨part, hPart, hIn⟩ :=
      exists_of_mem_visitedUntil hVisited
    simpa using ⟨part, hPart, ih part hPart hIn⟩
  | and expr ih =>
    rw [visited] at hVisited
    obtain ⟨part, hPart, hIn⟩ :=
      exists_of_mem_visitedUntil hVisited
    simpa using ⟨part, hPart, ih part hPart hIn⟩
  | not expr ih =>
    rw [visited] at hVisited
    simpa using ih hVisited
  | constraint other =>
    rw [visited] at hVisited
    simpa using hVisited
  | notSet =>
    rw [visited] at hVisited
    cases hVisited

theorem allValid_iff
    (dm : Pb.DataModel)
    (expr : List (Pb.ConstraintExpr D)) :
    allValid dm expr = true ↔ ∀ e ∈ expr, valid dm e = true := by
  induction expr with
  | nil => simp [allValid]
  | cons e rest ih =>
    rw [allValid]
    cases hHead : valid dm e <;> simp [hHead, ih]

/- All constraints of a valid expression are valid. -/
theorem valid_of_mem_atoms
    {dm : Pb.DataModel}
    {e : Pb.ConstraintExpr D}
    (hValid : valid dm e = true)
    {c : Pb.Constraint D}
    (hMem : c ∈ e.formula.atoms) :
    Constraint.valid c dm = true := by
  induction e with
  | or expr ih =>
    rw [valid, Bool.and_eq_true, allValid_iff] at hValid
    simp only [Pb.ConstraintExpr.formula_or,
      Formula.mem_atoms_any, List.mem_map,
      exists_exists_and_eq_and] at hMem
    obtain ⟨part, hPart, hIn⟩ := hMem
    exact ih part hPart (hValid.1 part hPart) hIn
  | and expr ih =>
    rw [valid, Bool.and_eq_true, allValid_iff] at hValid
    simp only [Pb.ConstraintExpr.formula_and,
      Formula.mem_atoms_all, List.mem_map,
      exists_exists_and_eq_and] at hMem
    obtain ⟨part, hPart, hIn⟩ := hMem
    exact ih part hPart (hValid.1 part hPart) hIn
  | not expr ih =>
    rw [valid] at hValid
    exact ih hValid (by simpa using hMem)
  | constraint other =>
    rw [valid] at hValid
    have hSame : c = other := by simpa using hMem
    exact hSame ▸ hValid
  | notSet => simp at hMem

end ConstraintExpr

------------------------------------------------------------
-- Queries
------------------------------------------------------------

namespace QueryModel

/- Without a data model. -/
def construct
    (constraints : List (Pb.ConstraintExpr D)) :
    Except String (Pb.Model D) :=
  if constraints.length < 1 then
    .error "Not enough parameters."
  else .ok { constraints := constraints, model := none }

def constructFor
    (constraints : List (Pb.ConstraintExpr D))
    (model : DataModel) : Except String (Pb.Model D) := do
  let query ← construct constraints
  if !ConstraintExpr.allValid model.handle query.constraints then
    throw "Mismatch between constraints in data model."
  return { query with model := some model.handle }

/- Whether the query is for the data model of the instance. -/
def sameModel (m : Pb.Model D) (i : Instance D) : Bool :=
  match m.model with
  | none => true
  | some model => model.name == i.model.name

variable [Double D]

def check (m : Pb.Model D) (i : Instance D) : Bool :=
  if !sameModel m i then false
  else ConstraintExpr.andCheck
    (fun c => Constraint.checkInstance c i) m.constraints

/- The checks of a constraint on a value that are made while
   an instance is checked. -/
def evaluated (m : Pb.Model D) (i : Instance D) :
    List (Pb.Constraint D × VariantType D) :=
  if !sameModel m i then []
  else
    (ConstraintExpr.visitedUntil
      (fun c => Constraint.checkInstance c i) false
      m.constraints).filterMap fun c =>
        (i.value c.attributeName).map fun v => (c, v)

end QueryModel

theorem QueryModel.constructFor_eq_ok_iff
    (constraints : List (Pb.ConstraintExpr D))
    (model : DataModel)
    (q : Pb.Model D) :
    constructFor constraints model = .ok q ↔
      constraints ≠ [] ∧
      (∀ e ∈ constraints,
        ConstraintExpr.valid model.handle e = true) ∧
      q = { constraints := constraints
            model := some model.handle } := by
  rw [← ConstraintExpr.allValid_iff]
  cases constraints with
  | nil => simp [constructFor, construct, bind, Except.bind]
  | cons e rest =>
    cases hValid :
        ConstraintExpr.allValid model.handle (e :: rest) <;>
      simp [constructFor, construct, hValid, bind, Except.bind,
        throw, throwThe, MonadExceptOf.throw, pure, Except.pure,
        eq_comm]

/-
  While a query that is valid for a data model is checked on
  an instance of that model, every constraint that is checked
  on a value is of the kind of this value, and no order is
  asked of a bool or of a location.
-/
theorem valid_queries_typeSafe
    [Double D]
    (dm : DataModel)
    (constraints : List (Pb.ConstraintExpr D))
    (q : Pb.Model D)
    (values : ValueMap D)
    (i : Instance D)
    (hQuery : QueryModel.constructFor constraints dm = .ok q)
    (hInstance : Instance.construct dm values = .ok i)
    (c : Pb.Constraint D)
    (v : VariantType D)
    (hEvaluated : (c, v) ∈ QueryModel.evaluated q i) :
    c.constraint.kind = some v.kind ∧
      ∀ relation, c.constraint = .relation relation →
        Relation.equal relation.op = false →
        v.kind ≠ .bool ∧ v.kind ≠ .location := by
  obtain ⟨-, hValid, rfl⟩ :=
    (QueryModel.constructFor_eq_ok_iff _ _ _).mp hQuery
  obtain ⟨hConforms, rfl⟩ :=
    (Instance.construct_eq_ok_iff _ _ _).mp hInstance
  unfold QueryModel.evaluated at hEvaluated
  split at hEvaluated
  · cases hEvaluated
  · obtain ⟨other, hVisited, hPair⟩ :=
      List.mem_filterMap.mp hEvaluated
    obtain ⟨w, hValue, hSame⟩ := Option.map_eq_some_iff.mp hPair
    obtain ⟨rfl, rfl⟩ := Prod.mk.inj hSame
    obtain ⟨e, hMem, hIn⟩ :=
      ConstraintExpr.exists_of_mem_visitedUntil hVisited
    have hLeaf := ConstraintExpr.valid_of_mem_atoms
      (hValid e hMem) (ConstraintExpr.mem_atoms_of_visited hIn)
    -- the constructor and `valid` find the same attribute
    obtain ⟨a, hAttr, hName, hType⟩ :=
      hConforms.typed other.attributeName w hValue
    have hFound : attribute? dm.handle other.attributeName =
        some a :=
      (attribute?_eq_some_iff dm).mpr ⟨hAttr, hName⟩
    simp only [Constraint.valid, hFound,
      Constraint.validCase_iff, hType] at hLeaf
    obtain ⟨hKind, hOrdered⟩ := hLeaf
    refine ⟨hKind, fun relation hRelation hOrder => ?_⟩
    have hNot := hOrdered relation hRelation hOrder
    simpa [hKind] using hNot

namespace PriceQuery

/- One attribute, with a price below five asked for. -/
def model : DataModel where
  handle := ⟨"shop", [⟨"price", .int, true, ""⟩], ""⟩
  nodup := by decide

def below : Pb.Constraint Int where
  attributeName := "price"
  constraint := .relation ⟨.lt, .kI 5⟩

def values : ValueMap Int :=
  AList.singleton "price" (.int 3)

end PriceQuery

theorem valid_queries_typeSafe_price :
    PriceQuery.below.constraint.kind = some .int ∧
      ∀ relation,
        PriceQuery.below.constraint = .relation relation →
        Relation.equal relation.op = false →
        (VariantType.int 3 : VariantType Int).kind ≠ .bool ∧
          (VariantType.int 3 : VariantType Int).kind ≠
            .location :=
  valid_queries_typeSafe PriceQuery.model
    [.constraint PriceQuery.below]
    { constraints := [.constraint PriceQuery.below]
      model := some PriceQuery.model.handle }
    PriceQuery.values
    { handle := ⟨PriceQuery.model.handle, [⟨"price", .kI 3⟩]⟩
      values := PriceQuery.values }
    rfl rfl PriceQuery.below (.int 3)
    (List.mem_of_mem_head? rfl)

end Oef

end OefCore

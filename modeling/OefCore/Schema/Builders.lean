import OefCore.Schema.ConstraintExpr

/-
  Constraint expressions that are put together with the
  classes of the schema, and what their evaluation is to give.

  Main declarations:
    * `Oef.Leaf`, `Oef.Tree`
    * `Oef.Tree.build`, `Oef.Tree.formula`
    * `Oef.build_check_iff`
-/

namespace OefCore

namespace Oef

variable {D : Type}

------------------------------------------------------------
-- Constructors
------------------------------------------------------------

/- An object of one of the classes `Range`, `Relation`, `Set`
   and `Distance`, which is the message that it keeps. -/
inductive Leaf (D : Type) where
  | range (range : Pb.Range D)
  | relation (rel : Pb.Relation D)
  | set (set : Pb.Set D)
  | distance (distance : Pb.Distance D)

def Leaf.check [Double D]
    (leaf : Leaf D)
    (v : VariantType D) : Bool :=
  match leaf with
  | .range r => Range.check r v
  | .relation r => Relation.check r v
  | .set s => Set.check s v
  | .distance d => Distance.check d v

/-
  `CopyFrom` of a message of another type: a set is to become
  a copy of a distance.
-/
abbrev CopyFrom (D : Type) :=
  Pb.Distance D → Except String (Pb.Set D)

/- Messages are copied from messages of the same type only. -/
def CopyFrom.Refuses (copyFrom : CopyFrom D) : Prop :=
  ∀ d, ∃ e, copyFrom d = .error e

/- The four constructors; that of a distance fills the field of
   a set. -/
def Constraint.construct
    (copyFrom : CopyFrom D)
    (attributeName : String) :
    Leaf D → Except String (Pb.Constraint D)
  | .range r => .ok ⟨attributeName, .range r⟩
  | .relation r => .ok ⟨attributeName, .relation r⟩
  | .set s => .ok ⟨attributeName, .set s⟩
  | .distance d => do
      let s ← copyFrom d
      return ⟨attributeName, .set s⟩

def Or.construct
    (expr : List (Pb.ConstraintExpr D)) :
    Except String (List (Pb.ConstraintExpr D)) :=
  if expr.length < 2 then .error "Not enough parameters."
  else .ok expr

def And.construct
    (expr : List (Pb.ConstraintExpr D)) :
    Except String (List (Pb.ConstraintExpr D)) :=
  if expr.length < 2 then .error "Not enough parameters."
  else .ok expr

theorem Or.construct_cons_cons
    (a b : Pb.ConstraintExpr D)
    (more : List (Pb.ConstraintExpr D)) :
    Or.construct (a :: b :: more) = .ok (a :: b :: more) := by
  have hEnough : ¬ (a :: b :: more).length < 2 := by simp
  rw [Or.construct, if_neg hEnough]

theorem And.construct_cons_cons
    (a b : Pb.ConstraintExpr D)
    (more : List (Pb.ConstraintExpr D)) :
    And.construct (a :: b :: more) = .ok (a :: b :: more) := by
  have hEnough : ¬ (a :: b :: more).length < 2 := by simp
  rw [And.construct, if_neg hEnough]

namespace ConstraintExpr

def ofOr (expr : List (Pb.ConstraintExpr D)) :
    Pb.ConstraintExpr D :=
  .or expr

def ofAnd (expr : List (Pb.ConstraintExpr D)) :
    Pb.ConstraintExpr D :=
  .and expr

def ofNot (expr : Pb.ConstraintExpr D) : Pb.ConstraintExpr D :=
  .not expr

def ofConstraint (c : Pb.Constraint D) : Pb.ConstraintExpr D :=
  .constraint c

end ConstraintExpr

def operatorNot (expr : Pb.ConstraintExpr D) :
    Pb.ConstraintExpr D :=
  ConstraintExpr.ofNot expr

def operatorAnd (lhs rhs : Pb.ConstraintExpr D) :
    Except String (Pb.ConstraintExpr D) := do
  let expr ← And.construct [lhs, rhs]
  return ConstraintExpr.ofAnd expr

def operatorOr (lhs rhs : Pb.ConstraintExpr D) :
    Except String (Pb.ConstraintExpr D) := do
  let expr ← Or.construct [lhs, rhs]
  return ConstraintExpr.ofOr expr

------------------------------------------------------------
-- Trees
------------------------------------------------------------

/- How an expression is put together; `Or` and `And` have two
   operands at least. -/
inductive Tree (D : Type) where
  | constraint (attributeName : String) (leaf : Leaf D)
  | or (first second : Tree D) (rest : List (Tree D))
  | and (first second : Tree D) (rest : List (Tree D))
  | not (expr : Tree D)
  | opNot (expr : Tree D)
  | opAnd (lhs rhs : Tree D)
  | opOr (lhs rhs : Tree D)

namespace Tree

/- What holds of a constraint, and of a tree if it holds of its
   operands, holds of all trees. -/
@[induction_eliminator]
theorem induct
    {motive : Tree D → Prop}
    (constraint : ∀ name leaf, motive (.constraint name leaf))
    (or : ∀ first second rest,
      (∀ t ∈ first :: second :: rest, motive t) →
        motive (.or first second rest))
    (and : ∀ first second rest,
      (∀ t ∈ first :: second :: rest, motive t) →
        motive (.and first second rest))
    (not : ∀ expr, motive expr → motive (.not expr))
    (opNot : ∀ expr, motive (.not expr) → motive (.opNot expr))
    (opAnd : ∀ lhs rhs, motive (.and lhs rhs []) →
      motive (.opAnd lhs rhs))
    (opOr : ∀ lhs rhs, motive (.or lhs rhs []) →
      motive (.opOr lhs rhs))
    (t : Tree D) :
    motive t := by
  refine Tree.rec (motive_1 := motive)
    (motive_2 := fun rest => ∀ t ∈ rest, motive t)
    constraint ?_ ?_ not ?_ ?_ ?_ ?_ ?_ t
  · intro first second rest hFirst hSecond hRest
    exact or first second rest
      (List.forall_mem_cons.mpr
        ⟨hFirst, List.forall_mem_cons.mpr ⟨hSecond, hRest⟩⟩)
  · intro first second rest hFirst hSecond hRest
    exact and first second rest
      (List.forall_mem_cons.mpr
        ⟨hFirst, List.forall_mem_cons.mpr ⟨hSecond, hRest⟩⟩)
  · exact fun expr hExpr => opNot expr (not expr hExpr)
  · intro lhs rhs hLhs hRhs
    exact opAnd lhs rhs (and lhs rhs [] (by simp [hLhs, hRhs]))
  · intro lhs rhs hLhs hRhs
    exact opOr lhs rhs (or lhs rhs [] (by simp [hLhs, hRhs]))
  · exact fun t hMem => absurd hMem List.not_mem_nil
  · exact fun t rest hHead hRest =>
      List.forall_mem_cons.mpr ⟨hHead, hRest⟩

mutual

def build (copyFrom : CopyFrom D) :
    Tree D → Except String (Pb.ConstraintExpr D)
  | .constraint attributeName leaf => do
      let c ← Constraint.construct copyFrom attributeName leaf
      return ConstraintExpr.ofConstraint c
  | .or first second rest => do
      let a ← build copyFrom first
      let b ← build copyFrom second
      let more ← buildAll copyFrom rest
      let expr ← Or.construct (a :: b :: more)
      return ConstraintExpr.ofOr expr
  | .and first second rest => do
      let a ← build copyFrom first
      let b ← build copyFrom second
      let more ← buildAll copyFrom rest
      let expr ← And.construct (a :: b :: more)
      return ConstraintExpr.ofAnd expr
  | .not expr => do
      let e ← build copyFrom expr
      return ConstraintExpr.ofNot e
  | .opNot expr => do
      let e ← build copyFrom expr
      return operatorNot e
  | .opAnd lhs rhs => do
      let l ← build copyFrom lhs
      let r ← build copyFrom rhs
      operatorAnd l r
  | .opOr lhs rhs => do
      let l ← build copyFrom lhs
      let r ← build copyFrom rhs
      operatorOr l r

def buildAll (copyFrom : CopyFrom D) :
    List (Tree D) → Except String (List (Pb.ConstraintExpr D))
  | [] => .ok []
  | t :: rest => do
      let e ← build copyFrom t
      let more ← buildAll copyFrom rest
      return e :: more

end

mutual

/- The direct meaning of a tree, over its leaves. -/
def formula : Tree D → Formula (Leaf D)
  | .constraint _ leaf => .atom leaf
  | .or first second rest =>
      .any (formula first :: formula second :: formulas rest)
  | .and first second rest =>
      .all (formula first :: formula second :: formulas rest)
  | .not expr => .not (formula expr)
  | .opNot expr => .not (formula expr)
  | .opAnd lhs rhs => .all [formula lhs, formula rhs]
  | .opOr lhs rhs => .any [formula lhs, formula rhs]

def formulas : List (Tree D) → List (Formula (Leaf D))
  | [] => []
  | t :: rest => formula t :: formulas rest

end

theorem formulas_eq (trees : List (Tree D)) :
    formulas trees = trees.map formula := by
  induction trees with
  | nil => rfl
  | cons t rest ih => exact congrArg (formula t :: ·) ih

theorem formula_constraint (name : String) (leaf : Leaf D) :
    formula (.constraint name leaf) = .atom leaf :=
  rfl

theorem formula_or (first second : Tree D) (rest : List (Tree D)) :
    formula (.or first second rest) =
      .any ((first :: second :: rest).map formula) := by
  rw [List.map_cons, List.map_cons, ← formulas_eq]
  rfl

theorem formula_and (first second : Tree D) (rest : List (Tree D)) :
    formula (.and first second rest) =
      .all ((first :: second :: rest).map formula) := by
  rw [List.map_cons, List.map_cons, ← formulas_eq]
  rfl

theorem formula_not (expr : Tree D) :
    formula (.not expr) = .not (formula expr) :=
  rfl

theorem formula_opAnd (lhs rhs : Tree D) :
    formula (.opAnd lhs rhs) = formula (.and lhs rhs []) :=
  rfl

theorem formula_opOr (lhs rhs : Tree D) :
    formula (.opOr lhs rhs) = formula (.or lhs rhs []) :=
  rfl

theorem formula_opNot (expr : Tree D) :
    formula (.opNot expr) = formula (.not expr) :=
  rfl

------------------------------------------------------------
-- What Is Built
------------------------------------------------------------

section Built

variable (copyFrom : CopyFrom D)

theorem build_constraint (name : String) (leaf : Leaf D) :
    build copyFrom (.constraint name leaf) = do
      let c ← Constraint.construct copyFrom name leaf
      return ConstraintExpr.ofConstraint c :=
  rfl

theorem build_not (expr : Tree D) :
    build copyFrom (.not expr) = do
      let e ← build copyFrom expr
      return ConstraintExpr.ofNot e :=
  rfl

theorem buildAll_nil :
    buildAll copyFrom [] = .ok [] :=
  rfl

theorem buildAll_cons (t : Tree D) (rest : List (Tree D)) :
    buildAll copyFrom (t :: rest) = do
      let e ← build copyFrom t
      let more ← buildAll copyFrom rest
      return e :: more :=
  rfl

theorem buildAll_eq_ok_iff
    (trees : List (Tree D))
    (exprs : List (Pb.ConstraintExpr D)) :
    buildAll copyFrom trees = .ok exprs ↔
      List.Forall₂ (fun t e => build copyFrom t = .ok e)
        trees exprs := by
  induction trees generalizing exprs with
  | nil =>
    rw [buildAll_nil]
    simp [eq_comm]
  | cons t rest ih =>
    rw [buildAll_cons, List.forall₂_cons_left_iff]
    cases hHead : build copyFrom t with
    | error e => simp [bind, Except.bind]
    | ok e =>
      simp only [bind, Except.bind, ← ih]
      cases buildAll copyFrom rest with
      | error e => simp
      | ok more => simp [pure, Except.pure, eq_comm]

/- Two operands and more are built one after another, and a
   constructor takes them together. -/
theorem operands_eq_ok_iff
    (first second : Tree D)
    (rest : List (Tree D))
    {construct : List (Pb.ConstraintExpr D) →
      Except String (List (Pb.ConstraintExpr D))}
    (hConstruct : ∀ a b more,
      construct (a :: b :: more) = .ok (a :: b :: more))
    (wrap : List (Pb.ConstraintExpr D) → Pb.ConstraintExpr D)
    (e : Pb.ConstraintExpr D) :
    (do
        let a ← build copyFrom first
        let b ← build copyFrom second
        let more ← buildAll copyFrom rest
        let expr ← construct (a :: b :: more)
        return wrap expr) = .ok e ↔
      ∃ exprs, List.Forall₂
        (fun t e => build copyFrom t = .ok e)
        (first :: second :: rest) exprs ∧ e = wrap exprs := by
  simp only [← buildAll_eq_ok_iff, buildAll_cons]
  cases build copyFrom first with
  | error => simp [bind, Except.bind]
  | ok a =>
    cases build copyFrom second with
    | error => simp [bind, Except.bind]
    | ok b =>
      cases buildAll copyFrom rest with
      | error => simp [bind, Except.bind]
      | ok more =>
        simp [bind, Except.bind, pure, Except.pure, hConstruct,
          eq_comm]

theorem build_or_eq_ok_iff
    (first second : Tree D)
    (rest : List (Tree D))
    (e : Pb.ConstraintExpr D) :
    build copyFrom (.or first second rest) = .ok e ↔
      ∃ exprs, List.Forall₂
        (fun t e => build copyFrom t = .ok e)
        (first :: second :: rest) exprs ∧ e = .or exprs := by
  exact operands_eq_ok_iff copyFrom first second rest
    Or.construct_cons_cons ConstraintExpr.ofOr e

theorem build_and_eq_ok_iff
    (first second : Tree D)
    (rest : List (Tree D))
    (e : Pb.ConstraintExpr D) :
    build copyFrom (.and first second rest) = .ok e ↔
      ∃ exprs, List.Forall₂
        (fun t e => build copyFrom t = .ok e)
        (first :: second :: rest) exprs ∧ e = .and exprs := by
  exact operands_eq_ok_iff copyFrom first second rest
    And.construct_cons_cons ConstraintExpr.ofAnd e

theorem build_not_eq_ok_iff
    (expr : Tree D)
    (e : Pb.ConstraintExpr D) :
    build copyFrom (.not expr) = .ok e ↔
      ∃ part, build copyFrom expr = .ok part ∧
        e = .not part := by
  rw [build_not]
  cases build copyFrom expr <;>
    simp [bind, Except.bind, pure, Except.pure,
      ConstraintExpr.ofNot, eq_comm]

/- The operators build what the classes do. -/
theorem build_opNot (expr : Tree D) :
    build copyFrom (.opNot expr) = build copyFrom (.not expr) :=
  rfl

theorem build_opAnd (lhs rhs : Tree D) :
    build copyFrom (.opAnd lhs rhs) =
      build copyFrom (.and lhs rhs []) :=
  rfl

theorem build_opOr (lhs rhs : Tree D) :
    build copyFrom (.opOr lhs rhs) =
      build copyFrom (.or lhs rhs []) :=
  rfl

end Built

------------------------------------------------------------
-- What Is Evaluated
------------------------------------------------------------

end Tree

def Leaf.IsDistance (leaf : Leaf D) : Prop :=
  ∃ d, leaf = .distance d

namespace Tree

/- A tree without distances can be built, and no other. -/
theorem exists_build_iff
    {copyFrom : CopyFrom D}
    (hRefuses : copyFrom.Refuses)
    (t : Tree D) :
    (∃ e, build copyFrom t = .ok e) ↔
      ∀ leaf ∈ t.formula.atoms, ¬ leaf.IsDistance := by
  induction t with
  | constraint name leaf =>
    rw [build_constraint, formula_constraint]
    cases leaf with
    | range r =>
      simp [Constraint.construct, Leaf.IsDistance, bind,
        Except.bind, pure, Except.pure]
    | relation r =>
      simp [Constraint.construct, Leaf.IsDistance, bind,
        Except.bind, pure, Except.pure]
    | set s =>
      simp [Constraint.construct, Leaf.IsDistance, bind,
        Except.bind, pure, Except.pure]
    | distance d =>
      obtain ⟨message, hError⟩ := hRefuses d
      simp [Constraint.construct, Leaf.IsDistance, hError, bind,
        Except.bind]
  | or first second rest ih =>
    have hEach : (∃ e, build copyFrom (.or first second rest) =
        .ok e) ↔ ∀ t ∈ first :: second :: rest,
          ∃ e, build copyFrom t = .ok e := by
      rw [← Formula.exists_forall₂_iff]
      simp [build_or_eq_ok_iff]
    rw [hEach, formula_or, Formula.forall_mem_atoms_any,
      List.forall_mem_map]
    exact forall₂_congr ih
  | and first second rest ih =>
    have hEach : (∃ e, build copyFrom (.and first second rest) =
        .ok e) ↔ ∀ t ∈ first :: second :: rest,
          ∃ e, build copyFrom t = .ok e := by
      rw [← Formula.exists_forall₂_iff]
      simp [build_and_eq_ok_iff]
    rw [hEach, formula_and, Formula.forall_mem_atoms_all,
      List.forall_mem_map]
    exact forall₂_congr ih
  | not expr ih =>
    simp only [build_not_eq_ok_iff, exists_comm, exists_and_left,
      exists_eq, and_true, ih, formula_not, Formula.mem_atoms_not]
  | opNot expr ih => rw [build_opNot, formula_opNot, ih]
  | opAnd lhs rhs ih => rw [build_opAnd, formula_opAnd, ih]
  | opOr lhs rhs ih => rw [build_opOr, formula_opOr, ih]

/- What a tree means for a value. -/
def Means [Double D] (t : Tree D) (v : VariantType D) : Prop :=
  t.formula.Holds fun leaf => leaf.check v = true

/- What is built evaluates to what the tree means. -/
theorem check_iff_of_build
    [Double D]
    {copyFrom : CopyFrom D}
    (hRefuses : copyFrom.Refuses)
    {t : Tree D}
    {e : Pb.ConstraintExpr D}
    (hBuild : build copyFrom t = .ok e)
    (v : VariantType D) :
    ConstraintExpr.check e v = true ↔ t.Means v := by
  unfold ConstraintExpr.check Means
  rw [ConstraintExpr.checkWith_iff]
  induction t generalizing e with
  | constraint name leaf =>
    rw [build_constraint] at hBuild
    cases leaf with
    | range r =>
      obtain rfl := Except.ok.inj hBuild
      simp [ConstraintExpr.ofConstraint, formula_constraint,
        Leaf.check, Constraint.check, Constraint.checkCase]
    | relation r =>
      obtain rfl := Except.ok.inj hBuild
      simp [ConstraintExpr.ofConstraint, formula_constraint,
        Leaf.check, Constraint.check, Constraint.checkCase]
    | set s =>
      obtain rfl := Except.ok.inj hBuild
      simp [ConstraintExpr.ofConstraint, formula_constraint,
        Leaf.check, Constraint.check, Constraint.checkCase]
    | distance d =>
      obtain ⟨message, hError⟩ := hRefuses d
      simp [Constraint.construct, hError, bind, Except.bind]
        at hBuild
  | or first second rest ih =>
    obtain ⟨exprs, hEach, rfl⟩ :=
      (build_or_eq_ok_iff _ _ _ _ _).mp hBuild
    rw [formula_or, Pb.ConstraintExpr.formula_or]
    simp only [Formula.holds_any, List.mem_map,
      exists_exists_and_eq_and]
    exact (Formula.exists_mem_congr
      (Formula.parts_congr ih hEach)).symm
  | and first second rest ih =>
    obtain ⟨exprs, hEach, rfl⟩ :=
      (build_and_eq_ok_iff _ _ _ _ _).mp hBuild
    rw [formula_and, Pb.ConstraintExpr.formula_and]
    simp only [Formula.holds_all, List.forall_mem_map]
    exact (Formula.forall_mem_congr
      (Formula.parts_congr ih hEach)).symm
  | not expr ih =>
    obtain ⟨part, hPart, rfl⟩ :=
      (build_not_eq_ok_iff _ _ _).mp hBuild
    rw [formula_not, Pb.ConstraintExpr.formula_not]
    simp only [Formula.holds_not]
    exact not_congr (ih hPart)
  | opNot expr ih =>
    rw [build_opNot] at hBuild
    rw [formula_opNot]
    exact ih hBuild
  | opAnd lhs rhs ih =>
    rw [build_opAnd] at hBuild
    rw [formula_opAnd]
    exact ih hBuild
  | opOr lhs rhs ih =>
    rw [build_opOr] at hBuild
    rw [formula_opOr]
    exact ih hBuild

end Tree

/-
  Of a tree an expression is built that evaluates, on every
  value, to what the tree means, exactly if no constraint of
  the tree is a distance.
-/
theorem build_check_iff
    [Double D]
    (copyFrom : CopyFrom D)
    (hRefuses : copyFrom.Refuses)
    (t : Tree D) :
    (∃ e, t.build copyFrom = .ok e ∧
      ∀ v, ConstraintExpr.check e v = true ↔ t.Means v) ↔
    ∀ leaf ∈ t.formula.atoms, ¬ leaf.IsDistance := by
  rw [← Tree.exists_build_iff hRefuses]
  constructor
  · rintro ⟨e, hBuild, -⟩
    exact ⟨e, hBuild⟩
  · rintro ⟨e, hBuild⟩
    exact ⟨e, hBuild, Tree.check_iff_of_build hRefuses hBuild⟩

namespace NearHere

/- Places within ten of a centre. -/
def near : Tree Int :=
  .constraint "place" (.distance ⟨⟨0, 0⟩, 10⟩)

def refused : CopyFrom Int :=
  fun _ => .error "messages of different types"

theorem refuses : refused.Refuses :=
  fun _ => ⟨_, rfl⟩

end NearHere

theorem build_check_iff_near :
    (∃ e, NearHere.near.opNot.build NearHere.refused = .ok e ∧
      ∀ v, ConstraintExpr.check e v = true ↔
        NearHere.near.opNot.Means v) ↔
    ∀ leaf ∈ NearHere.near.opNot.formula.atoms,
      ¬ leaf.IsDistance :=
  build_check_iff NearHere.refused NearHere.refuses
    NearHere.near.opNot

theorem not_build_near :
    ¬ ∃ e, NearHere.near.build NearHere.refused = .ok e ∧
      ∀ v, ConstraintExpr.check e v = true ↔
        NearHere.near.Means v := by
  rintro ⟨e, hBuild, -⟩
  cases hBuild

end Oef

end OefCore

import Mathlib.Data.List.Forall2
import Mathlib.Tactic.Common

/-
  Formulas over atoms: disjunctions and conjunctions of any
  number of parts, and negation.

  Main declarations:
    * `Formula`, `Formula.Holds`
    * `Formula.atoms`
    * `Formula.holds_congr`
    * `Formula.exists_forall₂_iff`, `Formula.parts_congr`
-/

------------------------------------------------------------
-- Formulas
------------------------------------------------------------

/- The disjunction of no parts never holds. -/
inductive Formula (α : Type) where
  | atom (a : α)
  | any (parts : List (Formula α))
  | all (parts : List (Formula α))
  | not (part : Formula α)

namespace Formula

variable {α : Type}

/- What holds of the atoms, and of a formula if it holds of its
   parts, holds of all formulas. -/
@[induction_eliminator]
theorem induct
    {motive : Formula α → Prop}
    (atom : ∀ a, motive (.atom a))
    (any : ∀ parts, (∀ f ∈ parts, motive f) →
      motive (.any parts))
    (all : ∀ parts, (∀ f ∈ parts, motive f) →
      motive (.all parts))
    (not : ∀ part, motive part → motive (.not part))
    (f : Formula α) :
    motive f := by
  refine Formula.rec (motive_1 := motive)
    (motive_2 := fun parts => ∀ f ∈ parts, motive f)
    atom any all not ?_ ?_ f
  · exact fun f hMem => absurd hMem List.not_mem_nil
  · intro head tail hHead hTail f hMem
    rcases List.mem_cons.mp hMem with rfl | hLater
    · exact hHead
    · exact hTail f hLater

------------------------------------------------------------
-- Meaning
------------------------------------------------------------

mutual

def Holds (I : α → Prop) : Formula α → Prop
  | .atom a => I a
  | .any parts => SomeHolds I parts
  | .all parts => AllHold I parts
  | .not part => ¬ part.Holds I

def SomeHolds (I : α → Prop) : List (Formula α) → Prop
  | [] => False
  | f :: parts => f.Holds I ∨ SomeHolds I parts

def AllHold (I : α → Prop) : List (Formula α) → Prop
  | [] => True
  | f :: parts => f.Holds I ∧ AllHold I parts

end

theorem someHolds_iff
    (I : α → Prop)
    (parts : List (Formula α)) :
    SomeHolds I parts ↔ ∃ f ∈ parts, f.Holds I := by
  induction parts with
  | nil => exact iff_of_false id (by simp)
  | cons f parts ih =>
    rw [List.exists_mem_cons_iff, ← ih]
    exact Iff.rfl

theorem allHold_iff
    (I : α → Prop)
    (parts : List (Formula α)) :
    AllHold I parts ↔ ∀ f ∈ parts, f.Holds I := by
  induction parts with
  | nil => exact iff_of_true trivial (List.forall_mem_nil _)
  | cons f parts ih =>
    rw [List.forall_mem_cons, ← ih]
    exact Iff.rfl

@[simp]
theorem holds_atom (I : α → Prop) (a : α) :
    (Formula.atom a).Holds I ↔ I a :=
  Iff.rfl

@[simp]
theorem holds_any
    (I : α → Prop)
    (parts : List (Formula α)) :
    (Formula.any parts).Holds I ↔ ∃ f ∈ parts, f.Holds I :=
  someHolds_iff I parts

@[simp]
theorem holds_all
    (I : α → Prop)
    (parts : List (Formula α)) :
    (Formula.all parts).Holds I ↔ ∀ f ∈ parts, f.Holds I :=
  allHold_iff I parts

@[simp]
theorem holds_not (I : α → Prop) (part : Formula α) :
    (Formula.not part).Holds I ↔ ¬ part.Holds I :=
  Iff.rfl

------------------------------------------------------------
-- Atoms
------------------------------------------------------------

mutual

def atoms : Formula α → List α
  | .atom a => [a]
  | .any parts => atomsOf parts
  | .all parts => atomsOf parts
  | .not part => part.atoms

def atomsOf : List (Formula α) → List α
  | [] => []
  | f :: parts => f.atoms ++ atomsOf parts

end

theorem mem_atomsOf
    {a : α}
    {parts : List (Formula α)} :
    a ∈ atomsOf parts ↔ ∃ f ∈ parts, a ∈ f.atoms := by
  induction parts with
  | nil => exact iff_of_false List.not_mem_nil (by simp)
  | cons f parts ih =>
    rw [List.exists_mem_cons_iff, ← ih]
    exact List.mem_append

@[simp]
theorem mem_atoms_atom {a b : α} :
    a ∈ (Formula.atom b).atoms ↔ a = b :=
  List.mem_singleton

@[simp]
theorem mem_atoms_any
    {a : α}
    {parts : List (Formula α)} :
    a ∈ (Formula.any parts).atoms ↔ ∃ f ∈ parts, a ∈ f.atoms :=
  mem_atomsOf

@[simp]
theorem mem_atoms_all
    {a : α}
    {parts : List (Formula α)} :
    a ∈ (Formula.all parts).atoms ↔ ∃ f ∈ parts, a ∈ f.atoms :=
  mem_atomsOf

@[simp]
theorem mem_atoms_not
    {a : α}
    {part : Formula α} :
    a ∈ (Formula.not part).atoms ↔ a ∈ part.atoms :=
  Iff.rfl

theorem forall_mem_atoms_any
    {P : α → Prop}
    {parts : List (Formula α)} :
    (∀ a ∈ (Formula.any parts).atoms, P a) ↔
      ∀ f ∈ parts, ∀ a ∈ f.atoms, P a := by
  simp only [mem_atoms_any]
  exact ⟨fun hAll f hPart a hMem => hAll a ⟨f, hPart, hMem⟩,
    fun hAll a ⟨f, hPart, hMem⟩ => hAll f hPart a hMem⟩

theorem forall_mem_atoms_all
    {P : α → Prop}
    {parts : List (Formula α)} :
    (∀ a ∈ (Formula.all parts).atoms, P a) ↔
      ∀ f ∈ parts, ∀ a ∈ f.atoms, P a := by
  simp only [mem_atoms_all]
  exact ⟨fun hAll f hPart a hMem => hAll a ⟨f, hPart, hMem⟩,
    fun hAll a ⟨f, hPart, hMem⟩ => hAll f hPart a hMem⟩

/- The meaning of a formula depends on its atoms only. -/
theorem holds_congr
    {I J : α → Prop}
    {f : Formula α}
    (hAtoms : ∀ a ∈ f.atoms, I a ↔ J a) :
    f.Holds I ↔ f.Holds J := by
  induction f with
  | atom a => simpa using hAtoms a
  | any parts ih =>
    simp only [holds_any]
    refine exists_congr fun f => and_congr_right fun hPart => ?_
    exact ih f hPart fun a hMem =>
      hAtoms a (mem_atoms_any.mpr ⟨f, hPart, hMem⟩)
  | all parts ih =>
    simp only [holds_all]
    refine forall₂_congr fun f hPart => ?_
    exact ih f hPart fun a hMem =>
      hAtoms a (mem_atoms_all.mpr ⟨f, hPart, hMem⟩)
  | not part ih =>
    simp only [holds_not]
    exact not_congr
      (ih fun a hMem => hAtoms a (mem_atoms_not.mpr hMem))

------------------------------------------------------------
-- Parts that Correspond
------------------------------------------------------------

/- Parts can be put in relation, all in their order, if each
   of them can. -/
theorem exists_forall₂_iff
    {β : Type}
    {R : α → β → Prop}
    {xs : List α} :
    (∃ ys, List.Forall₂ R xs ys) ↔ ∀ x ∈ xs, ∃ y, R x y := by
  induction xs with
  | nil => simp
  | cons x rest ih =>
    rw [List.forall_mem_cons, ← ih]
    constructor
    · rintro ⟨ys, hAll⟩
      obtain ⟨y, more, hHead, hTail, rfl⟩ :=
        List.forall₂_cons_left_iff.mp hAll
      exact ⟨⟨y, hHead⟩, more, hTail⟩
    · rintro ⟨⟨y, hHead⟩, more, hTail⟩
      exact ⟨y :: more, .cons hHead hTail⟩

theorem exists_mem_congr
    {β : Type}
    {P : α → Prop}
    {Q : β → Prop}
    {xs : List α}
    {ys : List β}
    (hSame : List.Forall₂ (fun x y => P x ↔ Q y) xs ys) :
    (∃ x ∈ xs, P x) ↔ ∃ y ∈ ys, Q y := by
  induction hSame with
  | nil => simp
  | cons hHead _ ih => simp [hHead, ih]

theorem forall_mem_congr
    {β : Type}
    {P : α → Prop}
    {Q : β → Prop}
    {xs : List α}
    {ys : List β}
    (hSame : List.Forall₂ (fun x y => P x ↔ Q y) xs ys) :
    (∀ x ∈ xs, P x) ↔ ∀ y ∈ ys, Q y := by
  induction hSame with
  | nil => simp
  | cons hHead _ ih => simp [hHead, ih]

theorem parts_congr
    {β : Type}
    {R : α → β → Prop}
    {P : α → Prop}
    {Q : β → Prop}
    {xs : List α}
    {ys : List β}
    (hSame : ∀ x ∈ xs, ∀ {y}, R x y → (Q y ↔ P x))
    (hEach : List.Forall₂ R xs ys) :
    List.Forall₂ (fun x y => P x ↔ Q y) xs ys := by
  induction hEach with
  | nil => exact .nil
  | cons hHead _ ih =>
    have hTail := ih fun x hMem =>
      hSame x (List.mem_cons_of_mem _ hMem)
    exact .cons (hSame _ List.mem_cons_self hHead).symm hTail

end Formula

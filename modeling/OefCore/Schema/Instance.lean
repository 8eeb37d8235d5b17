import Mathlib.Data.List.AList
import OefCore.Schema.VariantType

/-
  Data models, and instances of them: which values the
  constructor of an instance accepts, and what `instantiate`
  gives afterwards.

  Main declarations:
    * `Oef.DataModel`, `Oef.DataModel.construct`
    * `Oef.Instance`, `Oef.Instance.construct`,
      `Oef.Instance.ofPb`
    * `Oef.Conforms`
    * `Oef.construct_iff_conforms`
-/

namespace OefCore

namespace Oef

------------------------------------------------------------
-- Data Models
------------------------------------------------------------

structure DataModel where
  handle : Pb.DataModel
  nodup : (handle.attributes.map Pb.Attribute.name).Nodup

namespace DataModel

/- The loop over the attributes that are given, with the names
   that were there before. -/
def insertNames
    (attSet : List String) :
    List Pb.Attribute → Except String (List String)
  | [] => .ok attSet
  | a :: rest =>
      if a.name ∈ attSet then
        .error "Duplicate attribute name"
      else
        insertNames (a.name :: attSet) rest

theorem insertNames_eq_ok_iff
    (attSet : List String)
    (attributes : List Pb.Attribute) :
    (∃ names, insertNames attSet attributes = .ok names) ↔
      (attributes.map Pb.Attribute.name).Nodup ∧
        ∀ a ∈ attributes, a.name ∉ attSet := by
  induction attributes generalizing attSet with
  | nil => simp [insertNames]
  | cons a rest ih =>
    by_cases hSeen : a.name ∈ attSet
    · simp [insertNames, hSeen]
    · simp only [insertNames, hSeen, if_false, ih,
        List.map_cons, List.nodup_cons, List.mem_map,
        List.mem_cons, not_exists, not_and, not_or,
        forall_eq_or_imp, not_false_eq_true, true_and]
      constructor
      · rintro ⟨hNodup, hRest⟩
        exact ⟨⟨fun b hMem => (hRest b hMem).1, hNodup⟩,
          fun b hMem => (hRest b hMem).2⟩
      · rintro ⟨⟨hHead, hNodup⟩, hRest⟩
        exact ⟨hNodup, fun b hMem =>
          ⟨hHead b hMem, hRest b hMem⟩⟩

def construct
    (name : String)
    (attributes : List Pb.Attribute)
    (description : String) : Except String DataModel :=
  match hNames : insertNames [] attributes with
  | .error e => .error e
  | .ok names => .ok {
      handle := ⟨name, attributes, description⟩
      nodup :=
        ((insertNames_eq_ok_iff [] attributes).mp
          ⟨names, hNames⟩).1 }

/- The constructor gives every data model there is. -/
theorem construct_handle (model : DataModel) :
    construct model.handle.name model.handle.attributes
      model.handle.description = .ok model := by
  obtain ⟨names, hNames⟩ :=
    (insertNames_eq_ok_iff [] model.handle.attributes).mpr
      ⟨model.nodup, by simp⟩
  unfold construct
  split
  · rename_i e hError
    rw [hNames] at hError
    cases hError
  · rfl

end DataModel

/- The attribute that a name is looked up as. -/
def attribute?
    (model : Pb.DataModel)
    (name : String) : Option Pb.Attribute :=
  model.attributes.find? fun a => name == a.name

theorem attribute?_eq_some_iff
    (model : DataModel)
    {name : String}
    {a : Pb.Attribute} :
    attribute? model.handle name = some a ↔
      a ∈ model.handle.attributes ∧ a.name = name := by
  constructor
  · intro hFound
    refine ⟨List.mem_of_find?_eq_some hFound, ?_⟩
    have hName := List.find?_some hFound
    exact (beq_iff_eq.mp hName).symm
  · rintro ⟨hMem, hName⟩
    have hSome : (attribute? model.handle name).isSome := by
      rw [attribute?, List.find?_isSome]
      exact ⟨a, hMem, by simp [hName]⟩
    obtain ⟨b, hFound⟩ := Option.isSome_iff_exists.mp hSome
    have hNameB := List.find?_some hFound
    rw [hFound, Option.some.injEq]
    exact List.inj_on_of_nodup_map model.nodup
      (List.mem_of_find?_eq_some hFound) hMem
      ((beq_iff_eq.mp hNameB).symm.trans hName.symm)

------------------------------------------------------------
-- Value Maps
------------------------------------------------------------

/- The values of an instance; the order of the entries is the
   one in which the map is walked. -/
abbrev ValueMap (D : Type) :=
  AList fun _ : String => VariantType D

structure Instance (D : Type) where
  handle : Pb.Instance D
  values : ValueMap D

variable {D : Type}

namespace VariantType

/- A value as a message carries it. -/
def toPb : VariantType D → Pb.Value D
  | .int i => .kI i.toInt64
  | .double d => .kD d
  | .string s => .kS s
  | .bool b => .kB b
  | .location l => .kL ⟨l.lon, l.lat⟩

end VariantType

namespace Instance

def model (i : Instance D) : Pb.DataModel :=
  i.handle.model

def value (i : Instance D) (name : String) :
    Option (VariantType D) :=
  i.values.lookup name

/- The switch over the value that the message carries. -/
def ofValue [Double D] (v : Pb.Value D) :
    Option (VariantType D) :=
  match v with
  | .kS s => some (.string s)
  | .kD d => some (.double d)
  | .kB b => some (.bool b)
  | .kI i => some (.int i.toInt32)
  | .kL l => some (.location ⟨l.lon, l.lat⟩)
  | .notSet => none

/- `values_[v.key()] = ...` -/
def assign [Double D]
    (values : ValueMap D)
    (v : Pb.KeyValue D) : ValueMap D :=
  match ofValue v.value with
  | some value => values.insert v.key value
  | none => values

def ofPb [Double D]
    (instance_ : Pb.Instance D) : Instance D where
  handle := instance_
  values := instance_.values.foldl assign ∅

/- The match over the value that is given for an attribute of
   a type. -/
def valueFor
    (attType : Pb.AttributeType)
    (v : VariantType D) : Except String (Pb.Value D) :=
  match v with
  | .int i =>
      if attType ≠ .int then
        .error "Attribute is not an int in data model."
      else .ok (.kI i.toInt64)
  | .double d =>
      if attType ≠ .double then
        .error "Attribute is not a double in data model."
      else .ok (.kD d)
  | .string s =>
      if attType ≠ .string then
        .error "Attribute is not a string in data model."
      else .ok (.kS s)
  | .location l =>
      if attType ≠ .location then
        .error "Attribute is not a location in data model."
      else .ok (.kL ⟨l.lon, l.lat⟩)
  | .bool b =>
      if attType ≠ .bool then
        .error "Attribute is not a bool in data model."
      else .ok (.kB b)

/- One round of the loop over the values, with the number of
   required attributes that are still to come and with what
   was added to the message. -/
def addValue
    (model : Pb.DataModel)
    (sofar : Nat × List (Pb.KeyValue D))
    (v : (_ : String) × VariantType D) :
    Except String (Nat × List (Pb.KeyValue D)) :=
  match attribute? model v.1 with
  | none => .error "Attribute does not exist in data model."
  | some att => do
      let nbRequired :=
        if att.required then sofar.1 - 1 else sofar.1
      let value ← valueFor att.type v.2
      return (nbRequired, sofar.2 ++ [⟨v.1, value⟩])

def construct
    (model : DataModel)
    (values : ValueMap D) : Except String (Instance D) := do
  if values.entries.length > model.handle.attributes.length then
    throw "Too many attributes"
  let nbRequired :=
    model.handle.attributes.countP fun att => att.required
  if values.entries.length < nbRequired then
    throw "Not enough attributes"
  let (nbRequired, vals) ←
    values.entries.foldlM (addValue model.handle) (nbRequired, [])
  if nbRequired > 0 then
    throw "Not enough attributes."
  return { handle := ⟨model.handle, vals⟩, values := values }

end Instance

------------------------------------------------------------
-- Instantiation
------------------------------------------------------------

namespace Attribute

def validate
    (a : Pb.Attribute)
    (value : VariantType D) : Bool :=
  match value with
  | .int _ => a.type == .int
  | .double _ => a.type == .double
  | .string _ => a.type == .string
  | .bool _ => a.type == .bool
  | .location _ => a.type == .location

/- `to_string` of a value is not part of the source. -/
def instantiate
    (toString : VariantType D → String)
    (values : ValueMap D)
    (a : Pb.Attribute) :
    Except String (String × String) :=
  match values.lookup a.name with
  | none =>
      if a.required then
        .error ("Missing value: " ++ a.name)
      else .ok (a.name, "")
  | some value =>
      if validate a value then
        .ok (a.name, toString value)
      else
        .error (a.name ++
          " has a wrong type of value " ++ toString value)

end Attribute

def DataModel.instantiate
    (toString : VariantType D → String)
    (model : Pb.DataModel)
    (values : ValueMap D) :
    Except String (List (String × String)) :=
  model.attributes.mapM (Attribute.instantiate toString values)

def Instance.instantiate
    (toString : VariantType D → String)
    (i : Instance D) : Except String (List (String × String)) :=
  DataModel.instantiate toString i.model i.values

------------------------------------------------------------
-- Accepted Values
------------------------------------------------------------

/- Every value is of the type of the attribute it is named
   after, and every required attribute has a value. -/
structure Conforms
    (model : DataModel)
    (values : ValueMap D) : Prop where
  typed : ∀ name v, values.lookup name = some v →
    ∃ a ∈ model.handle.attributes,
      a.name = name ∧ a.type = v.kind
  complete : ∀ a ∈ model.handle.attributes,
    a.required = true → ∃ v, values.lookup a.name = some v

theorem Instance.valueFor_eq_ok_iff
    (attType : Pb.AttributeType)
    (v : VariantType D)
    (w : Pb.Value D) :
    valueFor attType v = .ok w ↔
      attType = v.kind ∧ w = v.toPb := by
  cases v <;> cases attType <;>
    simp [valueFor, VariantType.kind, VariantType.toPb, eq_comm]

/- Whether a name is that of a required attribute. -/
def isRequired (model : Pb.DataModel) (name : String) : Bool :=
  (attribute? model name).any fun a => a.required

namespace Instance

theorem addValue_eq_ok_iff
    (model : Pb.DataModel)
    (n : Nat)
    (vals : List (Pb.KeyValue D))
    (v : (_ : String) × VariantType D)
    (r : Nat × List (Pb.KeyValue D)) :
    addValue model (n, vals) v = .ok r ↔
      (∃ a, attribute? model v.1 = some a ∧
        a.type = v.2.kind) ∧
      r = (n - (if isRequired model v.1 then 1 else 0),
        vals ++ [⟨v.1, v.2.toPb⟩]) := by
  unfold addValue isRequired
  cases hFound : attribute? model v.1 with
  | none => simp
  | some a =>
    cases hValue : valueFor a.type v.2 with
    | error e =>
      have hType : a.type ≠ v.2.kind := by
        intro hEq
        rw [(valueFor_eq_ok_iff _ _ _).mpr ⟨hEq, rfl⟩] at hValue
        cases hValue
      simp [hType, hValue, bind, Except.bind]
    | ok w =>
      obtain ⟨hType, rfl⟩ := (valueFor_eq_ok_iff _ _ _).mp hValue
      rw [hType] at hValue
      cases hRequired : a.required <;>
        simp only [hType, hRequired, hValue, bind, Except.bind, pure,
          Except.pure, Except.ok.injEq, Option.any_some, true_and,
          Option.some.injEq, exists_eq_left', if_true, if_false,
          Bool.false_eq_true, Nat.sub_zero] <;>
        exact eq_comm

/- What the loop over the values comes to. -/
theorem foldlM_addValue_eq_ok_iff
    (model : Pb.DataModel)
    (entries : List ((_ : String) × VariantType D))
    (n : Nat)
    (vals : List (Pb.KeyValue D))
    (r : Nat × List (Pb.KeyValue D)) :
    entries.foldlM (addValue model) (n, vals) = .ok r ↔
      (∀ v ∈ entries, ∃ a, attribute? model v.1 = some a ∧
        a.type = v.2.kind) ∧
      r = (n - entries.countP (fun v => isRequired model v.1),
        vals ++ entries.map fun v => ⟨v.1, v.2.toPb⟩) := by
  induction entries generalizing n vals with
  | nil => simp [pure, Except.pure, eq_comm]
  | cons v rest ih =>
    rw [List.foldlM_cons]
    cases hRound : addValue model (n, vals) v with
    | error e =>
      have hBad : ¬ ∃ a, attribute? model v.1 = some a ∧
          a.type = v.2.kind := by
        intro hGood
        rw [(addValue_eq_ok_iff _ _ _ _ _).mpr ⟨hGood, rfl⟩]
          at hRound
        cases hRound
      simp [bind, Except.bind, hBad]
    | ok sofar =>
      obtain ⟨hGood, rfl⟩ := (addValue_eq_ok_iff _ _ _ _ _).mp hRound
      simp only [bind, Except.bind, ih, List.forall_mem_cons,
        hGood, true_and, List.countP_cons, List.map_cons,
        List.append_assoc, List.singleton_append,
        Nat.sub_sub, Nat.add_comm]

end Instance

/- Lists without repetitions, one within the other, have the
   same elements if they are of the same length. -/
theorem length_le_iff_subset
    {α : Type}
    {few many : List α}
    (hFew : few.Nodup)
    (hMany : many.Nodup)
    (hWithin : few ⊆ many) :
    many.length ≤ few.length ↔ many ⊆ few := by
  constructor
  · intro hLength
    exact ((List.subperm_of_subset hFew hWithin).perm_of_length_le
      hLength).symm.subset
  · intro hSubset
    exact (List.subperm_of_subset hMany hSubset).length_le

/- Names of required attributes are looked up as those. -/
theorem isRequired_iff
    (model : DataModel)
    (name : String) :
    isRequired model.handle name = true ↔
      ∃ a ∈ model.handle.attributes,
        a.required = true ∧ a.name = name := by
  unfold isRequired
  rw [Option.any_eq_true]
  constructor
  · rintro ⟨a, hFound, hRequired⟩
    obtain ⟨hMem, hName⟩ := (attribute?_eq_some_iff model).mp hFound
    exact ⟨a, hMem, hRequired, hName⟩
  · rintro ⟨a, hMem, hRequired, hName⟩
    exact ⟨a, (attribute?_eq_some_iff model).mpr ⟨hMem, hName⟩,
      hRequired⟩

def requiredNames (model : DataModel) : List String :=
  (model.handle.attributes.filter fun a => a.required).map
    Pb.Attribute.name

theorem mem_requiredNames {model : DataModel} {name : String} :
    name ∈ requiredNames model ↔
      isRequired model.handle name = true := by
  rw [isRequired_iff]
  simp [requiredNames, and_assoc]

theorem nodup_requiredNames (model : DataModel) :
    (requiredNames model).Nodup :=
  model.nodup.sublist (List.filter_sublist.map _)

/- The required names that have a value. -/
def requiredKeys
    (model : DataModel)
    (values : ValueMap D) : List String :=
  (values.entries.filter fun v =>
    isRequired model.handle v.1).map Sigma.fst

theorem nodup_requiredKeys
    (model : DataModel)
    (values : ValueMap D) :
    (requiredKeys model values).Nodup :=
  values.keys_nodup.sublist (List.filter_sublist.map _)

theorem mem_requiredKeys
    {model : DataModel}
    {values : ValueMap D}
    {name : String} :
    name ∈ requiredKeys model values ↔
      isRequired model.handle name = true ∧
        ∃ v, values.lookup name = some v := by
  simp only [requiredKeys, List.mem_map, List.mem_filter,
    Sigma.exists, exists_and_right, exists_eq_right,
    ← AList.mem_lookup_iff, Option.mem_def]
  exact and_comm

/- The count comes down to nothing exactly if every required
   attribute has a value. -/
theorem countdown_eq_zero_iff
    (model : DataModel)
    (values : ValueMap D) :
    model.handle.attributes.countP (fun att => att.required) -
        values.entries.countP (fun v =>
          isRequired model.handle v.1) = 0 ↔
      ∀ a ∈ model.handle.attributes, a.required = true →
        ∃ v, values.lookup a.name = some v := by
  have hNames :
      model.handle.attributes.countP (fun att => att.required) =
        (requiredNames model).length := by
    simp [requiredNames, List.countP_eq_length_filter]
  have hKeys :
      values.entries.countP (fun v => isRequired model.handle v.1) =
        (requiredKeys model values).length := by
    simp [requiredKeys, List.countP_eq_length_filter]
  have hWithin : requiredKeys model values ⊆ requiredNames model :=
    fun name hMem =>
      mem_requiredNames.mpr (mem_requiredKeys.mp hMem).1
  rw [hNames, hKeys, Nat.sub_eq_zero_iff_le,
    length_le_iff_subset (nodup_requiredKeys model values)
      (nodup_requiredNames model) hWithin]
  constructor
  · intro hSubset a hMem hRequired
    have hName : a.name ∈ requiredNames model :=
      mem_requiredNames.mpr ((isRequired_iff model a.name).mpr
        ⟨a, hMem, hRequired, rfl⟩)
    exact (mem_requiredKeys.mp (hSubset hName)).2
  · intro hComplete name hMem
    have hRequired := mem_requiredNames.mp hMem
    obtain ⟨a, hAttr, hFlag, rfl⟩ :=
      (isRequired_iff model name).mp hRequired
    exact mem_requiredKeys.mpr
      ⟨hRequired, hComplete a hAttr hFlag⟩

namespace Conforms

variable {model : DataModel} {values : ValueMap D}

/- No more values than there are attributes. -/
theorem length_le
    (hConforms : Conforms model values) :
    values.entries.length ≤ model.handle.attributes.length := by
  have hSubset :
      values.keys ⊆
        model.handle.attributes.map Pb.Attribute.name := by
    intro name hMem
    obtain ⟨v, hValue⟩ :=
      Option.isSome_iff_exists.mp (AList.lookup_isSome.mpr hMem)
    obtain ⟨a, hAttr, hName, -⟩ := hConforms.typed name v hValue
    exact List.mem_map.mpr ⟨a, hAttr, hName⟩
  have hLength :=
    (List.subperm_of_subset values.keys_nodup hSubset).length_le
  simpa [AList.keys, List.keys] using hLength

/- No fewer values than there are required attributes. -/
theorem le_length
    (hConforms : Conforms model values) :
    model.handle.attributes.countP (fun att => att.required) ≤
      values.entries.length := by
  have hZero :=
    (countdown_eq_zero_iff model values).mpr hConforms.complete
  exact le_trans (Nat.sub_eq_zero_iff_le.mp hZero)
    List.countP_le_length

end Conforms

theorem typed_iff
    (model : DataModel)
    (values : ValueMap D) :
    (∀ v ∈ values.entries, ∃ a,
        attribute? model.handle v.1 = some a ∧
          a.type = v.2.kind) ↔
      ∀ name v, values.lookup name = some v →
        ∃ a ∈ model.handle.attributes,
          a.name = name ∧ a.type = v.kind := by
  constructor
  · intro hTyped name v hValue
    obtain ⟨a, hFound, hType⟩ :=
      hTyped ⟨name, v⟩ (AList.mem_lookup_iff.mp hValue)
    obtain ⟨hMem, hName⟩ := (attribute?_eq_some_iff model).mp hFound
    exact ⟨a, hMem, hName, hType⟩
  · rintro hTyped ⟨name, v⟩ hMem
    obtain ⟨a, hAttr, hName, hType⟩ :=
      hTyped name v (AList.mem_lookup_iff.mpr hMem)
    exact ⟨a, (attribute?_eq_some_iff model).mpr ⟨hAttr, hName⟩,
      hType⟩

/- What the constructor accepts, and what it makes of it. -/
theorem Instance.construct_eq_ok_iff
    (model : DataModel)
    (values : ValueMap D)
    (i : Instance D) :
    construct model values = .ok i ↔
      Conforms model values ∧
      i = {
        handle := ⟨model.handle,
          values.entries.map fun v => ⟨v.1, v.2.toPb⟩⟩
        values := values } := by
  constructor
  · intro hOk
    simp only [construct, bind, Except.bind, throw,
      throwThe, MonadExceptOf.throw, pure, Except.pure] at hOk
    split_ifs at hOk
    split at hOk
    · cases hOk
    · rename_i sofar hLoop
      obtain ⟨hTyped, rfl⟩ :=
        (foldlM_addValue_eq_ok_iff _ _ _ _ _).mp hLoop
      split_ifs at hOk with hLeft
      refine ⟨⟨(typed_iff model values).mp hTyped, ?_⟩, ?_⟩
      · exact (countdown_eq_zero_iff model values).mp
          (Nat.eq_zero_of_not_pos hLeft)
      · simpa using (Except.ok.inj hOk).symm
  · rintro ⟨hConforms, rfl⟩
    have hLoop := (foldlM_addValue_eq_ok_iff model.handle
      values.entries
      (model.handle.attributes.countP fun att => att.required)
      [] _).mpr
        ⟨(typed_iff model values).mpr hConforms.typed, rfl⟩
    have hZero :=
      (countdown_eq_zero_iff model values).mpr hConforms.complete
    simp [construct, hConforms.length_le.not_gt,
      hConforms.le_length.not_gt, hLoop, hZero, bind, Except.bind,
      pure, Except.pure]

------------------------------------------------------------
-- What Instantiation Gives
------------------------------------------------------------

theorem Attribute.validate_iff
    (a : Pb.Attribute)
    (v : VariantType D) :
    validate a v = true ↔ a.type = v.kind := by
  cases v <;> simp [validate, VariantType.kind]

/- An attribute with the text of its value, if it has one. -/
def described
    (toString : VariantType D → String)
    (values : ValueMap D)
    (a : Pb.Attribute) : String × String :=
  (a.name, (values.lookup a.name).elim "" toString)

theorem Conforms.instantiate_eq
    {model : DataModel}
    {values : ValueMap D}
    (hConforms : Conforms model values)
    (toString : VariantType D → String)
    {a : Pb.Attribute}
    (hAttr : a ∈ model.handle.attributes) :
    Attribute.instantiate toString values a =
      .ok (described toString values a) := by
  unfold Attribute.instantiate described
  cases hValue : values.lookup a.name with
  | none =>
    have hOptional : a.required ≠ true := by
      intro hRequired
      obtain ⟨v, hSome⟩ := hConforms.complete a hAttr hRequired
      rw [hValue] at hSome
      cases hSome
    simp [hOptional]
  | some v =>
    obtain ⟨b, hMem, hName, hType⟩ := hConforms.typed _ v hValue
    have hSame : b = a :=
      List.inj_on_of_nodup_map model.nodup hMem hAttr hName
    have hValid : Attribute.validate a v = true :=
      (Attribute.validate_iff a v).mpr (hSame ▸ hType)
    simp [hValid]

theorem mapM_eq_ok
    {α β ε : Type}
    {f : α → Except ε β}
    {g : α → β}
    {xs : List α}
    (hEach : ∀ x ∈ xs, f x = .ok (g x)) :
    xs.mapM f = .ok (xs.map g) := by
  induction xs with
  | nil => rfl
  | cons x rest ih =>
    have hHead := hEach x List.mem_cons_self
    have hTail := ih fun y hMem =>
      hEach y (List.mem_cons_of_mem x hMem)
    rw [List.mapM_cons, hHead, hTail]
    rfl

/-
  An instance can be made of exactly the values that conform
  to the data model.  Every instance that is made can be
  instantiated, to one pair for each attribute, in the order
  of the model.
-/
theorem construct_iff_conforms
    (toString : VariantType D → String)
    (model : DataModel)
    (values : ValueMap D) :
    ((∃ i, Instance.construct model values = .ok i) ↔
      Conforms model values) ∧
    ∀ i, Instance.construct model values = .ok i →
      i.instantiate toString = .ok
        (model.handle.attributes.map
          (described toString values)) := by
  constructor
  · constructor
    · rintro ⟨i, hOk⟩
      exact ((Instance.construct_eq_ok_iff model values i).mp hOk).1
    · intro hConforms
      exact ⟨_, (Instance.construct_eq_ok_iff model values _).mpr
        ⟨hConforms, rfl⟩⟩
  · intro i hOk
    obtain ⟨hConforms, rfl⟩ :=
      (Instance.construct_eq_ok_iff model values i).mp hOk
    exact mapM_eq_ok fun a hAttr =>
      hConforms.instantiate_eq toString hAttr

end Oef

end OefCore

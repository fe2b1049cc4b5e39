import LineGateway.Traceability.Handler.Initialize

/-! The serialisation check of the discovered values and the rows of later saves.
Whether a value is serialised depends on its type alone, except for arrays without
elements. The client delivers these with an empty list of dimensions, as it does arrays of
several dimensions, and every array with dimensions is refused. A variable that passes
the check makes every save fail while it is empty. -/

namespace LineGateway.Opcua

open Foundation

/-! ### Types of values -/

/-- The types of scalars that are serialised. -/
def ScalarTypeId.supported : ScalarTypeId → Bool
  | .boolean | .sByte | .byte | .int16 | .uInt16 | .int32 | .uInt32 | .int64 | .uInt64 | .float
  | .double | .string => true
  | _ => false

/-- The type of a variable: a scalar, or an array of one dimension. -/
inductive ValueType
  | scalar (t : ScalarTypeId)
  | array (t : ScalarTypeId)

/-- The type of the scalars in the values of a type. -/
def ValueType.scalarType : ValueType → ScalarTypeId
  | .scalar t => t
  | .array t => t

/-- An array of one dimension as the client delivers it: it has no dimensions, except that
the list of dimensions is there, and empty, when there are no elements. -/
def receivedArray (t : ScalarTypeId) (values : List Variant) : Variant :=
  .array t values (if values.isEmpty then some [] else none)

/-- The value is one that the client delivers for a variable of the type. -/
def Variant.HasType (v : Variant) : ValueType → Prop
  | .scalar t => v.typeId = .scalar t
  | .array t => ∃ values, v = receivedArray t values ∧ ∀ x ∈ values, x.typeId = .scalar t

/-- The value is an array without elements. -/
def Variant.IsEmptyArray (v : Variant) : Prop := ∃ t dimensions, v = .array t [] dimensions

section Serialize

variable {F : FloatFormat} {v : Variant} {t : ScalarTypeId}

theorem serializeVariant_scalar_iff (h : v.typeId = .scalar t) :
    (∃ j, serializeVariant F v = .ok j) ↔ t.supported := by
  cases v with
  | empty => cases h
  | array elemType values dimensions => cases h
  | string s =>
    cases h
    cases s <;> simp [serializeVariant, ScalarTypeId.supported]
  | other o content =>
    cases h
    cases o <;> simp [serializeVariant, ScalarTypeId.supported, OpaqueTypeId.scalar]
  | _ =>
    cases h
    simp [serializeVariant, ScalarTypeId.supported]

theorem serializeElements_ok_iff {vs : List Variant} :
    (∃ js, serializeElements F vs = .ok js) ↔ ∀ v ∈ vs, ∃ j, serializeVariant F v = .ok j := by
  induction vs with
  | nil => simp [serializeElements]
  | cons v vs ih =>
    rw [List.forall_mem_cons, ← ih, serializeElements]
    cases serializeVariant F v with
    | error e => simp
    | ok j => cases serializeElements F vs <;> simp

/-- A received array is serialised when it has elements and these are. -/
theorem serializeVariant_receivedArray_iff {values : List Variant}
    (h : ∀ x ∈ values, x.typeId = .scalar t) :
    (∃ j, serializeVariant F (receivedArray t values) = .ok j) ↔ t.supported ∧ values ≠ [] := by
  cases values with
  | nil => simp [receivedArray, serializeVariant]
  | cons x xs =>
    have helements : (∃ j, serializeVariant F (receivedArray t (x :: xs)) = .ok j) ↔
        ∃ js, serializeElements F (x :: xs) = .ok js := by
      simp only [receivedArray, List.isEmpty_cons, Bool.false_eq_true, if_false, serializeVariant,
        Option.isSome_none]
      cases serializeElements F (x :: xs) <;> simp
    rw [helements, serializeElements_ok_iff]
    constructor
    · intro hall
      exact ⟨(serializeVariant_scalar_iff (h x (by simp))).mp (hall x (by simp)), by simp⟩
    · rintro ⟨ht, -⟩ y hy
      exact (serializeVariant_scalar_iff (h y hy)).mpr ht

/-- Whether a value is serialised depends on its type and on its being an empty array. -/
theorem Variant.HasType.serialize_iff {T : ValueType} (h : v.HasType T) :
    (∃ j, serializeVariant F v = .ok j) ↔ T.scalarType.supported ∧ ¬ v.IsEmptyArray := by
  cases T with
  | scalar t =>
    have hscalar : ¬ v.IsEmptyArray := by
      rintro ⟨t', dimensions, rfl⟩
      cases h
    rw [serializeVariant_scalar_iff h]
    exact (and_iff_left hscalar).symm
  | array t =>
    obtain ⟨values, rfl, hvalues⟩ := h
    have hempty : (receivedArray t values).IsEmptyArray ↔ values = [] := by
      constructor
      · rintro ⟨t', dimensions, heq⟩
        cases heq
        rfl
      · rintro rfl
        exact ⟨t, some [], rfl⟩
    rw [serializeVariant_receivedArray_iff hvalues, hempty]
    rfl

end Serialize

end LineGateway.Opcua

namespace LineGateway.Traceability

open Foundation Config Opcua

variable {F : RowFormat}

/-! ### Rows -/

theorem serializePartSheet_ok_iff {partSheet : List SavedPartSheetItem} :
    (∃ fields, serializePartSheet F partSheet = .ok fields) ↔
      ∀ item ∈ partSheet, ∃ j, serializeVariant F.toFloatFormat item.value = .ok j := by
  induction partSheet with
  | nil => simp [serializePartSheet]
  | cons item rest ih =>
    rw [List.forall_mem_cons, ← ih, serializePartSheet]
    cases serializeVariant F.toFloatFormat item.value with
    | error e => simp [bind, Except.bind]
    | ok j => cases serializePartSheet F rest <;> simp [bind, Except.bind]

/-- A row is encoded exactly when every value of the sheet is serialised. -/
theorem encodePartSheetForDb_ok_iff {savedAt : Timestamp} {machineId : Text}
    {partId : AsciiDigitsOrUpper 23} {partSheet : List SavedPartSheetItem} :
    (∃ row, encodePartSheetForDb F savedAt machineId partId partSheet = .ok row) ↔
      ∀ item ∈ partSheet, ∃ j, serializeVariant F.toFloatFormat item.value = .ok j := by
  rw [← serializePartSheet_ok_iff, encodePartSheetForDb, partSheetRow]
  cases serializePartSheet F partSheet <;> simp [bind, Except.bind]

/-- The check passes exactly when every value is good, present and serialised. -/
theorem checkValues_ok_iff {discovered : List (DataValue × NodeId × Text)} :
    checkValues F discovered = .ok () ↔ ∀ d ∈ discovered, ∃ v, d.1.tryIntoVariant = .ok v ∧
      ∃ j, serializeVariant F.toFloatFormat v = .ok j := by
  induction discovered with
  | nil => simp [checkValues]
  | cons d rest ih =>
    obtain ⟨value, node, name⟩ := d
    rw [List.forall_mem_cons, ← ih, checkValues]
    change Except.bind _ _ = _ ↔ _
    simp only [bind_ok_iff, mapError_ok_iff]
    constructor
    · rintro ⟨v, hv, h⟩
      obtain ⟨j, hj, hrest⟩ := bind_ok_iff.mp h
      exact ⟨⟨v, hv, j, mapError_ok_iff.mp hj⟩, hrest⟩
    · rintro ⟨⟨v, hv, j, hj⟩, hrest⟩
      exact ⟨v, hv, bind_ok_iff.mpr ⟨j, mapError_ok_iff.mpr hj, hrest⟩⟩

/-! ### Later saves -/

section Saves

variable {discovered : List (DataValue × NodeId × Text)} {types : List ValueType}
  {partSheet : List SavedPartSheetItem}

/-- The discovered values are present, and of the types. -/
def DiscoveredTypes (discovered : List (DataValue × NodeId × Text)) (types : List ValueType) :
    Prop :=
  List.Forall₂ (fun d T => ∃ v, d.1.tryIntoVariant = .ok v ∧ v.HasType T) discovered types

/-- The values of a part sheet to be saved are of the types. -/
def SavedTypes (partSheet : List SavedPartSheetItem) (types : List ValueType) : Prop :=
  List.Forall₂ (fun item T => item.value.HasType T) partSheet types

/-- The types of what passed the check are those of serialised scalars. -/
theorem DiscoveredTypes.supported (ht : DiscoveredTypes discovered types)
    (hcheck : checkValues F discovered = .ok ()) : ∀ T ∈ types, T.scalarType.supported := by
  rw [checkValues_ok_iff] at hcheck
  induction ht with
  | nil => simp
  | cons head _ ih =>
    obtain ⟨v, hv, hT⟩ := head
    rw [List.forall_mem_cons] at hcheck ⊢
    obtain ⟨⟨v', hv', hok⟩, hrest⟩ := hcheck
    obtain rfl : v = v' := Except.ok.inj (hv.symm.trans hv')
    exact ⟨(hT.serialize_iff.mp hok).1, ih hrest⟩

/-- Values of serialised scalars are all serialised when none is an empty array. -/
theorem SavedTypes.serialize_iff {F : FloatFormat} (hs : SavedTypes partSheet types)
    (ht : ∀ T ∈ types, T.scalarType.supported) :
    (∀ item ∈ partSheet, ∃ j, serializeVariant F item.value = .ok j) ↔
      ∀ item ∈ partSheet, ¬ item.value.IsEmptyArray := by
  induction hs with
  | nil => simp
  | cons head _ ih =>
    rw [List.forall_mem_cons] at ht
    rw [List.forall_mem_cons, List.forall_mem_cons, head.serialize_iff, ih ht.2]
    simp [ht.1]

/-- After a discovery that passed the check, values of the discovered types are encoded as
a row exactly when none is an empty array. -/
theorem savable_iff (ht : DiscoveredTypes discovered types)
    (hcheck : checkValues F discovered = .ok ()) (hs : SavedTypes partSheet types)
    (savedAt : Timestamp) (machineId : Text) (partId : AsciiDigitsOrUpper 23) :
    (∃ row, encodePartSheetForDb F savedAt machineId partId partSheet = .ok row) ↔
      ∀ item ∈ partSheet, ¬ item.value.IsEmptyArray := by
  rw [encodePartSheetForDb_ok_iff]
  exact hs.serialize_iff (ht.supported hcheck)

end Saves

/-- A node with one boolean in its array. -/
def scrapFlags : List (DataValue × NodeId × Text) :=
  [(⟨some (receivedArray .boolean [.boolean true]), none⟩, .new 1 5, "Scrap".toList)]

/-- An item of the node, with an array of booleans. -/
def scrapItem (values : List Bool) : SavedPartSheetItem :=
  ⟨5, "Scrap".toList, receivedArray .boolean (values.map .boolean)⟩

theorem scrapFlags_types : DiscoveredTypes scrapFlags [.array .boolean] :=
  .cons ⟨_, rfl, [.boolean true], rfl, by simp [Variant.typeId]⟩ .nil

theorem scrapItem_types (values : List Bool) : SavedTypes [scrapItem values] [.array .boolean] := by
  refine .cons ⟨_, rfl, fun x hx => ?_⟩ .nil
  obtain ⟨b, -, rfl⟩ := List.mem_map.mp hx
  rfl

/-- The array passes the check with its boolean; without it, no save is encoded. -/
theorem emptied_not_savable : DiscoveredTypes scrapFlags [.array .boolean] ∧
    checkValues epochFormat scrapFlags = .ok () ∧ SavedTypes [scrapItem []] [.array .boolean] ∧
      ∀ savedAt machineId partId,
        encodePartSheetForDb epochFormat savedAt machineId partId [scrapItem []] =
          .error "multidimensional arrays are not supported" :=
  ⟨scrapFlags_types, rfl, scrapItem_types [], fun _ _ _ => rfl⟩

theorem savable_iff_scrapFlags : ∃ row,
    encodePartSheetForDb epochFormat 0 [] default [scrapItem [true, false]] = .ok row := by
  refine (savable_iff scrapFlags_types rfl (scrapItem_types [true, false]) 0 [] default).mpr ?_
  intro item hitem
  rw [List.mem_singleton.mp hitem]
  rintro ⟨t, dimensions, heq⟩
  cases heq

end LineGateway.Traceability

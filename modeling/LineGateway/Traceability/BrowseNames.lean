import LineGateway.Traceability.Batch
import LineGateway.Traceability.Discovery
import LineGateway.Traceability.TypeCheck

/-! The browse names of a part sheet as the keys of its row. Discovery keeps the name of a
qualified browse name without its namespace and does not compare names, and the row has a
field for each. Every value is found in the row read back as a map exactly when the names
received are distinct without their namespaces. -/

namespace LineGateway.Traceability

open Foundation Config Opcua

/-! ### What the server gives -/

structure QualifiedName where
  namespaceIndex : UInt16
  name : Option Text

structure ReferenceDescription where
  nodeId : NodeId
  browseName : QualifiedName

structure BrowseResult where
  status : StatusCode
  references : List ReferenceDescription

/-- What discovery takes from a result. -/
def BrowseResult.item (result : BrowseResult) : BrowseResultItem :=
  ⟨result.status, result.references.map fun r => (r.nodeId, r.browseName.name)⟩

/-- The references of all results. -/
def receivedReferences (results : List (Except SessionError BrowseResult)) :
    List ReferenceDescription :=
  results.flatMap fun
    | .ok result => result.references
    | .error _ => []

/-- The names received, without their namespaces. -/
def receivedNames (results : List (Except SessionError BrowseResult)) : List (Option Text) :=
  (receivedReferences results).map fun r => r.browseName.name

theorem namedReferences_names {references : List (NodeId × Option Text)}
    {nodes : List (NodeId × Text)} (h : namedReferences references = .ok nodes) :
    references.map Prod.snd = nodes.map fun node => some node.2 := by
  induction references generalizing nodes with
  | nil =>
    cases h
    rfl
  | cons r rest ih =>
    obtain ⟨node, _ | name⟩ := r
    · cases h
    · obtain ⟨others, hothers, h⟩ := bind_ok_iff.mp h
      cases h
      rw [List.map_cons, List.map_cons, ih hothers]

/-- The names browsed are those received. -/
theorem browsedNodes_names {results : List (Except SessionError BrowseResult)}
    {browsed : List (NodeId × Text)}
    (h : browsedNodes (results.map fun r => r.map BrowseResult.item) = .ok browsed) :
    receivedNames results = browsed.map fun node => some node.2 := by
  induction results generalizing browsed with
  | nil =>
    cases h
    rfl
  | cons r rest ih =>
    cases r with
    | error e => cases h
    | ok result =>
      simp only [List.map_cons, Except.map, browsedNodes] at h
      split at h
      · cases h
      · obtain ⟨nodes, hnodes, h⟩ := bind_ok_iff.mp h
        obtain ⟨others, hothers, h⟩ := bind_ok_iff.mp h
        cases h
        have hnames := namedReferences_names hnodes
        rw [BrowseResult.item, List.map_map] at hnames
        rw [List.map_append, ← ih hothers, ← hnames, receivedNames, receivedReferences,
          List.flatMap_cons, List.map_append]
        rfl

theorem names_of_kept {browsed : List (NodeId × Text)} {nodes : List (UInt32 × Text)}
    (h : List.Forall₂ KeptAs browsed nodes) : browsed.map Prod.snd = nodes.map Prod.snd := by
  induction h with
  | nil => rfl
  | cons head _ ih => rw [List.map_cons, List.map_cons, head.2, ih]

/-! ### Rows read as maps -/

/-- The data of a row: distinct keys, so that read as a map it has an entry for each item, with
the value of the item. -/
structure EntryForEach (F : RowFormat) (items : List SavedPartSheetItem)
    (fields : List (Text × Json)) : Prop where
  distinct : (fields.map Prod.fst).Nodup
  count : (Table.empty.insertAll fields).len = items.length
  own : ∀ item ∈ items, ∃ j, (Table.empty.insertAll fields).get item.name = some j ∧
    Represents F.toFloatFormat item.value j

/-- No value is shadowed in the row of the values read for the nodes. -/
def Unshadowed (F : RowFormat) (savedAt : Timestamp) (machineId : Text)
    (partId : AsciiDigitsOrUpper 23) (nodes : List (UInt32 × Text)) (values : List Variant) : Prop :=
  ∃ row fields,
    encodePartSheetForDb F savedAt machineId partId (itemsOf nodes values) = .ok row ∧
      Json.parse row = some (rowObject F savedAt machineId partId fields) ∧
        EntryForEach F (itemsOf nodes values) fields

section Rows

variable {F : RowFormat} {savedAt : Timestamp} {machineId : Text} {partId : AsciiDigitsOrUpper 23}
  {nodes : List (UInt32 × Text)} {values : List Variant} {items : List SavedPartSheetItem}
  {fields : List (Text × Json)}

theorem keys_of_fields (h : List.Forall₂ (FieldOf F) items fields) :
    fields.map Prod.fst = items.map SavedPartSheetItem.name := by
  induction h with
  | nil => rfl
  | cons head _ ih => rw [List.map_cons, List.map_cons, head.1, ih]

theorem names_itemsOf (hlen : values.length = nodes.length) :
    (itemsOf nodes values).map SavedPartSheetItem.name = nodes.map Prod.snd := by
  induction nodes generalizing values with
  | nil => rfl
  | cons node nodes ih =>
    cases values with
    | nil => cases hlen
    | cons value values =>
      have htail := ih (Nat.succ.inj hlen)
      rw [itemsOf, List.zipWith_cons_cons, List.map_cons, List.map_cons, ← htail]
      rfl

theorem entryForEach_iff (h : List.Forall₂ (FieldOf F) items fields) :
    EntryForEach F items fields ↔ (items.map SavedPartSheetItem.name).Nodup := by
  constructor
  · intro he
    rw [← keys_of_fields h]
    exact he.distinct
  · intro hn
    rw [← keys_of_fields h] at hn
    obtain ⟨hlen, hget⟩ := Table.insertAll_of_nodup (t := Table.empty) hn fun _ _ => rfl
    refine ⟨hn, ?_, fun item hitem => ?_⟩
    · rw [hlen, h.length_eq]
      exact Nat.zero_add _
    · obtain ⟨i, hi, rfl⟩ := List.getElem_of_mem hitem
      have hi' : i < fields.length := by rw [← h.length_eq]; exact hi
      obtain ⟨hname, hvalue⟩ := (List.forall₂_iff_get.mp h).2 i hi hi'
      have hfield : ((items[i]).name, (fields[i]).2) = fields[i] := Prod.ext hname.symm rfl
      refine ⟨(fields[i]).2, (hget _ _).mpr (.inr ?_), hvalue⟩
      rw [hfield]
      exact List.getElem_mem hi'

theorem serializable_items (hv : ∀ v ∈ values, ∃ j, serializeVariant F.toFloatFormat v = .ok j) :
    ∀ item ∈ itemsOf nodes values, ∃ j, serializeVariant F.toFloatFormat item.value = .ok j := by
  intro item hitem
  obtain ⟨i, hi⟩ := List.mem_iff_getElem?.mp hitem
  exact hv _ (List.mem_of_getElem? (value_itemsOf hi))

/-- Values are unshadowed exactly when the names of their nodes are distinct. -/
theorem unshadowed_iff_nodup (hF : F.Valid) (hlen : values.length = nodes.length)
    (hv : ∀ v ∈ values, ∃ j, serializeVariant F.toFloatFormat v = .ok j) :
    Unshadowed F savedAt machineId partId nodes values ↔ (nodes.map Prod.snd).Nodup := by
  have hencoded : ∃ row,
      encodePartSheetForDb F savedAt machineId partId (itemsOf nodes values) = .ok row :=
    encodePartSheetForDb_ok_iff.mpr (serializable_items hv)
  obtain ⟨row, hrow⟩ := hencoded
  obtain ⟨fields, hfields, hparse⟩ := parse_row hF hrow
  have hiff := entryForEach_iff hfields
  rw [names_itemsOf hlen] at hiff
  rw [← hiff]
  constructor
  · rintro ⟨row', fields', hrow', hparse', he⟩
    cases Except.ok.inj (hrow.symm.trans hrow')
    have hsame := Option.some.inj (hparse.symm.trans hparse')
    simp only [rowObject, Json.object.injEq, List.cons.injEq, Prod.mk.injEq, true_and, and_true]
      at hsame
    rw [hsame]
    exact he
  · exact fun he => ⟨row, fields, hrow, hparse, he⟩

end Rows

/-! ### The main result -/

/-- The values read for the nodes of a discovery are unshadowed in their row exactly when the
server gave names that are distinct without their namespaces. -/
theorem unshadowed_iff {F : RowFormat} (hF : F.Valid) {root : NodeId}
    {results : List (Except SessionError BrowseResult)} {t : List (Event handlerSignature)}
    {nodes : List (UInt32 × Text)}
    (hy : Yields (browsePartSheet F root)
      (⟨.browse root, results.map fun r => r.map BrowseResult.item⟩ :: t) (.returned nodes))
    {values : List Variant} (hlen : values.length = nodes.length)
    (hv : ∀ v ∈ values, ∃ j, serializeVariant F.toFloatFormat v = .ok j) (savedAt : Timestamp)
    (machineId : Text) (partId : AsciiDigitsOrUpper 23) :
    Unshadowed F savedAt machineId partId nodes values ↔ (receivedNames results).Nodup := by
  obtain ⟨items, browsed, readValues, hbrowsed, hkept, htrace⟩ := browsePartSheet_returned hy
  simp only [List.cons.injEq, Sigma.mk.injEq, heq_eq_eq, true_and] at htrace
  obtain ⟨rfl, -⟩ := htrace
  have hnames : receivedNames results = (nodes.map Prod.snd).map some := by
    rw [browsedNodes_names hbrowsed, ← names_of_kept hkept, List.map_map]
    rfl
  rw [unshadowed_iff_nodup hF hlen hv, hnames, List.nodup_map_iff (Option.some_injective _)]

/-- A part sheet with two nodes, whose names are in two namespaces. -/
def twoNamed (name : Text) : List (Except SessionError BrowseResult) :=
  [.ok ⟨.good, [⟨.new 1 5, ⟨1, some "Weight".toList⟩⟩, ⟨.new 1 6, ⟨2, some name⟩⟩]⟩]

def twoNamedTrace (name : Text) : List (Event handlerSignature) :=
  [⟨.browse (.new 1 4), (twoNamed name).map fun r => r.map BrowseResult.item⟩,
    ⟨.read [.new 1 5, .new 1 6], .ok [sampleScrap, sampleScrap]⟩]

theorem booleans_serializable : ∀ v ∈ [Variant.boolean true, .boolean false],
    ∃ j, serializeVariant epochFormat.toFloatFormat v = .ok j := by
  intro v hv
  simp only [List.mem_cons, List.not_mem_nil, or_false] at hv
  rcases hv with rfl | rfl <;> exact ⟨_, rfl⟩

theorem unshadowed_iff_two : ∃ nodes,
    Yields (browsePartSheet epochFormat (.new 1 4)) (twoNamedTrace "Height".toList)
      (.returned nodes) ∧
    Unshadowed epochFormat 0 "MAC1".toList sampleSave.partId nodes
      [.boolean true, .boolean false] := by
  have hy : Yields (browsePartSheet epochFormat (.new 1 4)) (twoNamedTrace "Height".toList)
      (.returned [(5, "Weight".toList), (6, "Height".toList)]) := .call _ (.call _ (.ret _))
  exact ⟨_, hy, (unshadowed_iff QueueRun.epochFormat_valid hy rfl booleans_serializable 0
    "MAC1".toList sampleSave.partId).mpr (by decide)⟩

/-- Names of two namespaces are the same key, and the row read as a map has one value of two. -/
theorem shadowed_in_two_namespaces : ∃ nodes,
    Yields (browsePartSheet epochFormat (.new 1 4)) (twoNamedTrace "Weight".toList)
      (.returned nodes) ∧
    serializePartSheet epochFormat (itemsOf nodes [.boolean true, .boolean false]) =
      .ok [("Weight".toList, .bool true), ("Weight".toList, .bool false)] ∧
    ¬ Unshadowed epochFormat 0 "MAC1".toList sampleSave.partId nodes
      [.boolean true, .boolean false] := by
  refine ⟨[(5, "Weight".toList), (6, "Weight".toList)], .call _ (.call _ (.ret _)), rfl,
    fun h => ?_⟩
  have hnodup := (unshadowed_iff_nodup QueueRun.epochFormat_valid rfl booleans_serializable).mp h
  exact absurd hnodup (by decide)

end LineGateway.Traceability

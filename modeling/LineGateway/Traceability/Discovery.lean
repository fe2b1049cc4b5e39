import LineGateway.Traceability.SaveRequest

/-! The nodes that save requests read, against the nodes that were discovered. Discovery
keeps the numeric identifiers only, and a save request puts the namespace of the part
sheet back in front of them. It reads the discovered nodes exactly when these are all in
the namespaces of their part sheets; the part identifier is read from its own node in
any case. -/

namespace LineGateway.Traceability

open Foundation Config Opcua

/-! ### What discovery keeps -/

/-- The numeric identifier and the name of a node that was browsed. -/
def KeptAs (browsed : NodeId × Text) (node : UInt32 × Text) : Prop :=
  browsed.1.identifier = .numeric node.1 ∧ browsed.2 = node.2

section Numeric

variable {browsed : List (NodeId × Text)} {nodes : List (UInt32 × Text)} {ns : UInt16}

theorem numericNodes_ok (h : numericNodes browsed = .ok nodes) :
    List.Forall₂ KeptAs browsed nodes := by
  induction browsed generalizing nodes with
  | nil => cases h; exact .nil
  | cons b rest ih =>
    obtain ⟨⟨namespaceIndex, identifier⟩, name⟩ := b
    cases identifier with
    | numeric id =>
      change (numericNodes rest).bind _ = _ at h
      obtain ⟨others, hothers, h⟩ := bind_ok_iff.mp h
      cases h
      exact .cons ⟨rfl, rfl⟩ (ih hothers)
    | _ => cases h

theorem KeptAs.new_eq_iff {b : NodeId × Text} {node : UInt32 × Text} (h : KeptAs b node) :
    NodeId.new ns node.1 = b.1 ↔ b.1.namespaceIndex = ns := by
  obtain ⟨⟨namespaceIndex, identifier⟩, name⟩ := b
  obtain ⟨rfl, -⟩ := h
  simp [NodeId.new, eq_comm]

/-- The nodes rebuilt in a namespace are those browsed exactly when these are all in it. -/
theorem map_new_eq_iff (h : List.Forall₂ KeptAs browsed nodes) :
    nodes.map (fun node => NodeId.new ns node.1) = browsed.map Prod.fst ↔
      ∀ b ∈ browsed, b.1.namespaceIndex = ns := by
  induction h with
  | nil => simp
  | cons head _ ih =>
    rw [List.map_cons, List.map_cons, List.cons.injEq, head.new_eq_iff, ih, List.forall_mem_cons]

end Numeric

/-- A browse is followed by a read of all nodes found. -/
theorem browsePartSheet_returned {F : RowFormat} {root : NodeId} {t : List (Event handlerSignature)}
    {nodes : List (UInt32 × Text)} (hy : Yields (browsePartSheet F root) t (.returned nodes)) :
    ∃ items browsed values, browsedNodes items = .ok browsed ∧
      List.Forall₂ KeptAs browsed nodes ∧
      t = [⟨.browse root, items⟩, ⟨.read (browsed.map Prod.fst), .ok values⟩] := by
  obtain ⟨items, t₁, rfl, hy₁⟩ := Yields.call_iff.mp hy
  obtain ⟨browsed, hb, hy₂⟩ := Yields.attempt_bind_returned hy₁
  split_ifs at hy₂ with hempty
  · simp at hy₂
  · obtain ⟨r, t₂, rfl, hy₃⟩ := Yields.call_iff.mp hy₂
    obtain ⟨values, rfl, hy₄⟩ := Yields.attempt_bind_returned hy₃
    split_ifs at hy₄ with hlen
    · simp at hy₄
    · obtain ⟨_, -, hy₅⟩ := Yields.attempt_bind_returned hy₄
      obtain ⟨rfl, hn⟩ := Yields.attempt_returned_iff.mp hy₅
      exact ⟨items, browsed, values, hb, numericNodes_ok hn, rfl⟩

/-- The nodes browsed below the two part sheets, all kept by the handler. -/
structure Discovered (h₀ : TraceabilityHandler Unit) (h : TraceabilityHandler TraceabilityContext)
    (t : List (Event handlerSignature)) (general operation : List (NodeId × Text)) : Prop where
  trace : ∃ items values items' values', browsedNodes items = .ok general ∧
    browsedNodes items' = .ok operation ∧ t =
      [⟨.getNamespaceIndex h₀.commonOpcuaConfig.namespaceUrl, .ok h.state.generalPartSheet.nsIndex⟩,
        ⟨.browse (.new h.state.generalPartSheet.nsIndex h₀.commonOpcuaConfig.generalPartSheetNid),
          items⟩, ⟨.read (general.map Prod.fst), .ok values⟩,
        ⟨.getNamespaceIndex h₀.machineConfig.opcUa.namespaceUrl,
          .ok h.state.operationPartSheet.nsIndex⟩,
        ⟨.browse (.new h.state.operationPartSheet.nsIndex
          h₀.machineConfig.opcUa.operationPartSheetNid), items'⟩,
        ⟨.read (operation.map Prod.fst), .ok values'⟩]
  general : List.Forall₂ KeptAs general h.state.generalPartSheet.nodes
  operation : List.Forall₂ KeptAs operation h.state.operationPartSheet.nodes

theorem traceabilityInitialize_discovered {F : RowFormat} {h₀ : TraceabilityHandler Unit}
    {h : TraceabilityHandler TraceabilityContext} {t : List (Event handlerSignature)}
    (hy : Yields (traceabilityInitialize F h₀) t (.returned h)) :
    ∃ general operation, Discovered h₀ h t general operation := by
  obtain ⟨r, t₁, rfl, hy₁⟩ := Yields.call_iff.mp hy
  obtain ⟨commonNs, rfl, hy₂⟩ := Yields.attempt_bind_returned hy₁
  obtain ⟨generalNodes, t₂, t₃, rfl, hb, hy₃⟩ := Yields.bind_returned_iff.mp hy₂
  obtain ⟨items, general, values, hg, hgeneral, rfl⟩ :=
    browsePartSheet_returned (Yields.mapErr_returned_iff.mp hb)
  split at hy₃
  · simp at hy₃
  · obtain ⟨r, t₄, rfl, hy₄⟩ := Yields.call_iff.mp hy₃
    obtain ⟨operationNs, rfl, hy₅⟩ := Yields.attempt_bind_returned hy₄
    obtain ⟨operationNodes, t₅, t₆, rfl, hb', hy₆⟩ := Yields.bind_returned_iff.mp hy₅
    obtain ⟨items', operation, values', ho, hoperation, rfl⟩ :=
      browsePartSheet_returned (Yields.mapErr_returned_iff.mp hb')
    obtain ⟨rfl, heq⟩ := Yields.ret_iff.mp hy₆
    cases heq
    exact ⟨general, operation, ⟨items, values, items', values', hg, ho, rfl⟩, hgeneral, hoperation⟩

/-! ### What saves read -/

/-- The discovered nodes are all in the namespaces of their part sheets. -/
def InNamespaces (h : TraceabilityHandler TraceabilityContext)
    (general operation : List (NodeId × Text)) : Prop :=
  (∀ b ∈ general, b.1.namespaceIndex = h.state.generalPartSheet.nsIndex) ∧
    ∀ b ∈ operation, b.1.namespaceIndex = h.state.operationPartSheet.nsIndex

/-- The value at the position was read from the node. -/
def ReadFrom (nodes : List NodeId) (readValues : List DataValue) (i : ℕ) (node : NodeId)
    (variant : Variant) : Prop :=
  nodes[i]? = some node ∧ ∃ value, readValues[i]? = some value ∧ value.tryIntoVariant = .ok variant

/-- Saves read the discovered nodes, the general ones first. What is saved under a
discovered name is the value of the node discovered under it, and the part identifier is
the value of its node. -/
structure SavesDiscovered (h : TraceabilityHandler TraceabilityContext)
    (discovered : List (NodeId × Text)) : Prop where
  nodes : nodesToRead h = discovered.map Prod.fst
  saved : ∀ t o, Yields (handleSave h) t o → ∀ machineId id general operation r,
    (⟨.savePartSheets machineId id general operation, r⟩ : Event handlerSignature) ∈ t →
    ∃ readValues, (⟨.read (nodesToRead h), .ok readValues⟩ : Event handlerSignature) ∈ t ∧
      (∃ i variant, ReadFrom (nodesToRead h) readValues i (partIdNode h) variant ∧
        tryFromVariant variant = .ok id) ∧
      ∀ (i : ℕ) item, (general ++ operation)[i]? = some item → ∃ node,
        discovered[i]? = some (node, item.name) ∧
          ReadFrom (nodesToRead h) readValues i node item.value

section Saves

variable {h₀ : TraceabilityHandler Unit} {h : TraceabilityHandler TraceabilityContext}
  {t : List (Event handlerSignature)} {general operation : List (NodeId × Text)}

theorem Discovered.nodesToRead_eq_iff (hd : Discovered h₀ h t general operation) :
    nodesToRead h = (general ++ operation).map Prod.fst ↔ InNamespaces h general operation := by
  rw [InNamespaces, ← map_new_eq_iff hd.general, ← map_new_eq_iff hd.operation, nodesToRead,
    List.map_append]
  constructor
  · intro heq
    exact List.append_inj heq (by rw [List.length_map, List.length_map, hd.general.length_eq])
  · rintro ⟨hg, ho⟩
    rw [hg, ho]

theorem generalItems_append (h : TraceabilityHandler TraceabilityContext) (values : List Variant) :
    generalItems h values ++ operationItems h values =
      itemsOf (h.state.generalPartSheet.nodes ++ h.state.operationPartSheet.nodes) values := by
  rw [generalItems, operationItems, ← take_itemsOf h.state.operationPartSheet.nodes,
    ← drop_itemsOf, List.take_append_drop]

theorem nodesToRead_getElem? {i : ℕ} {node : UInt32 × Text}
    (hi : h.state.generalPartSheet.nodes[i]? = some node) :
    (nodesToRead h)[i]? = some (.new h.state.generalPartSheet.nsIndex node.1) := by
  have hlt := (List.getElem?_eq_some_iff.mp hi).1
  rw [nodesToRead, List.getElem?_append_left (by rwa [List.length_map]), List.getElem?_map, hi]
  rfl

theorem ReadSheets.readFrom {readValues : List DataValue} {values : List Variant}
    {id : AsciiDigitsOrUpper 23} (hr : ReadSheets h readValues values id) {i : ℕ} {node : NodeId}
    {variant : Variant} (hnode : (nodesToRead h)[i]? = some node)
    (hvalue : values[i]? = some variant) : ReadFrom (nodesToRead h) readValues i node variant := by
  have hget : (readValues.map DataValue.tryIntoVariant)[i]? = some (.ok variant) := by
    rw [hr.good, List.getElem?_map, hvalue]
    rfl
  obtain ⟨value, hv, hok⟩ := List.getElem?_map .. ▸ hget |> Option.map_eq_some_iff.mp
  exact ⟨hnode, value, hv, hok⟩

theorem discovered_getElem? {browsed : List (NodeId × Text)} {nodes : List (UInt32 × Text)}
    (hk : List.Forall₂ KeptAs browsed nodes) {i : ℕ} {node : UInt32 × Text}
    (hi : nodes[i]? = some node) : ∃ b, browsed[i]? = some b ∧ KeptAs b node := by
  obtain ⟨hlt, rfl⟩ := List.getElem?_eq_some_iff.mp hi
  have hlt' : i < browsed.length := by rw [hk.length_eq]; exact hlt
  exact ⟨_, List.getElem?_eq_getElem hlt', (List.forall₂_iff_get.mp hk).2 i hlt' hlt⟩

/-- A save request reads the nodes that were discovered, and attributes their values to
them, exactly when they are all in the namespaces of their part sheets. -/
theorem saves_discovered_iff {F : RowFormat}
    (hy : Yields (traceabilityInitialize F h₀) t (.returned h)) :
    ∃ general operation, Discovered h₀ h t general operation ∧
      (SavesDiscovered h (general ++ operation) ↔ InNamespaces h general operation) := by
  obtain ⟨general, operation, hd⟩ := traceabilityInitialize_discovered hy
  refine ⟨general, operation, hd, fun hs => hd.nodesToRead_eq_iff.mp hs.nodes, fun hns => ?_⟩
  have hnodes := hd.nodesToRead_eq_iff.mpr hns
  obtain ⟨⟨state, rfl⟩, hlocated⟩ := traceabilityInitialize_returned hy
  refine ⟨hnodes, fun t' o hy' machineId id g op r he => ?_⟩
  obtain ⟨readValues, values, hr, rfl, rfl, rfl, rfl⟩ := handleSave_saves hlocated.lt hy' he
  refine ⟨readValues, by simp, ?_, fun i item hitem => ?_⟩
  · obtain ⟨name, hname⟩ := hlocated
    obtain ⟨variant, hvariant, hid⟩ := hr.partId
    exact ⟨_, variant, hr.readFrom (nodesToRead_getElem? hname) hvariant, hid⟩
  · rw [generalItems_append] at hitem
    obtain ⟨node, variant, hnode, hvariant, rfl⟩ := List.getElem?_zipWith_eq_some.mp hitem
    obtain ⟨b, hb, hkept⟩ := discovered_getElem? (List.rel_append hd.general hd.operation) hnode
    refine ⟨b.1, ?_, hr.readFrom ?_ hvariant⟩
    · rw [hb, ← hkept.2]
    · rw [hnodes, List.getElem?_map, hb]
      rfl

end Saves

/-- What a server answers whose general part sheet has one node, in the namespace. -/
def discovery (ns : UInt16) : List (Event handlerSignature) :=
  [⟨.getNamespaceIndex "urn:common".toList, .ok 1⟩,
    ⟨.browse (.new 1 4), [.ok ⟨.good, [(.new ns 5, some "PartId".toList)]⟩]⟩,
    ⟨.read [.new ns 5], .ok [samplePartId]⟩, ⟨.getNamespaceIndex "urn:machine".toList, .ok 2⟩,
    ⟨.browse (.new 2 8), [.ok ⟨.good, [(.new 2 9, some "Scrap".toList)]⟩]⟩,
    ⟨.read [.new 2 9], .ok [sampleScrap]⟩]

/-- The value of another node than the one discovered is read, and saved under its name. -/
theorem foreign_not_saved : ∃ h id,
    Yields (traceabilityInitialize epochFormat sampleInitial) (discovery 7) (.returned h) ∧
      nodesToRead h = [.new 1 5, .new 2 9] ∧
      Yields (handleSave h) [⟨.checkEnqueuingAllowed, .ok ()⟩,
        ⟨.read [.new 1 5, .new 2 9], .ok [samplePartId, sampleScrap]⟩,
        ⟨.savePartSheets "MAC1".toList id
          [⟨5, "PartId".toList, .string (some "010498013AA422634300001".toList)⟩]
          [⟨9, "Scrap".toList, .boolean true⟩], .ok (.ok ())⟩] (.returned ()) ∧
      ¬ SavesDiscovered h [(.new 7 5, "PartId".toList), (.new 2 9, "Scrap".toList)] := by
  refine ⟨_, _, .call _ (.call _ (.call _ (.call _ (.call _ (.call _ (.ret _)))))), rfl,
    .call _ (.call _ (.call _ (.ret ()))), fun hs => ?_⟩
  exact absurd (List.cons.inj hs.nodes).1 (by decide)

theorem saves_discovered_iff_native : ∃ h,
    Yields (traceabilityInitialize epochFormat sampleInitial) (discovery 1) (.returned h) ∧
      SavesDiscovered h [(.new 1 5, "PartId".toList), (.new 2 9, "Scrap".toList)] := by
  have hinit : ∃ h, h.state.generalPartSheet.nsIndex = 1 ∧ h.state.operationPartSheet.nsIndex = 2 ∧
      Yields (traceabilityInitialize epochFormat sampleInitial) (discovery 1) (.returned h) :=
    ⟨_, rfl, rfl, .call _ (.call _ (.call _ (.call _ (.call _ (.call _ (.ret _))))))⟩
  obtain ⟨h, hgeneral, hoperation, hy⟩ := hinit
  obtain ⟨general, operation, ⟨⟨_, _, _, _, hg, ho, ht⟩, -, -⟩, hiff⟩ := saves_discovered_iff hy
  rw [hgeneral, hoperation] at ht
  simp only [discovery, List.cons.injEq, Sigma.mk.injEq] at ht
  obtain ⟨-, ⟨-, hi⟩, -, -, ⟨-, hi'⟩, -⟩ := ht
  cases eq_of_heq hi
  cases eq_of_heq hi'
  cases hg
  cases ho
  exact ⟨h, hy, hiff.mpr ⟨by simp [hgeneral, NodeId.new], by simp [hoperation, NodeId.new]⟩⟩

end LineGateway.Traceability

import LineGateway.Traceability.Handler.Effects

/-! The initialisation of a handler: the nodes of the two part sheets are discovered
and the part identifier is located among the general ones. A context that
initialisation returns points at its part identifier. -/

namespace LineGateway.Traceability

open Foundation Config Opcua

/-- Error that can occur during browsing a part sheet object. -/
inductive BrowsePartSheetError
  | browseGeneralPartSheet (e : SessionError)
  | browseResultStatus (status : StatusCode)
  | nullBrowseName (node : NodeId)
  | emptyBrowse
  | readRequest (e : SessionError)
  | valuesCount (discovered read : ℕ)
  | invalidDataValue (e : TryFromOpcUaValueError) (name : Text)
  | notSerializable (cause : String) (name : Text)
  | nodeIdentifier (identifier : Identifier)
  deriving DecidableEq

/-- Errors that can be encountered during traceability handler initialization. -/
inductive TraceabilityInitializeError
  | getCommonNamespaceIndex (e : SessionError)
  | browseGeneralPartSheet (e : BrowsePartSheetError)
  | noPartIdNode
  | getOperationNamespaceIndex (e : SessionError)
  | browseOperationPartSheet (e : BrowsePartSheetError)
  deriving DecidableEq

structure ProtocolContext where
  request : NodeId
  response : NodeId
  heartbeat : NodeId

/-- Traceability context related to general part sheet. -/
structure GeneralPartSheetContext where
  nsIndex : UInt16
  nodes : List (UInt32 × Text)
  partIdIndex : ℕ

/-- Traceability context related to operation part sheet. -/
structure OperationPartSheetContext where
  nsIndex : UInt16
  nodes : List (UInt32 × Text)

/-- The traceability handler state after initialization. -/
structure TraceabilityContext where
  protocol : ProtocolContext
  generalPartSheet : GeneralPartSheetContext
  operationPartSheet : OperationPartSheetContext

/-- The node of the part identifier. -/
def partIdNode (h : TraceabilityHandler TraceabilityContext) : NodeId :=
  .new h.state.generalPartSheet.nsIndex h.commonOpcuaConfig.partIdNid

/-! ### Browsing -/

/-- The references of one browse result; a null browse name is an error. -/
def namedReferences : List (NodeId × Option Text) →
    Except BrowsePartSheetError (List (NodeId × Text))
  | [] => .ok []
  | (node, none) :: _ => .error (.nullBrowseName node)
  | (node, some name) :: rest => do
    let nodes ← namedReferences rest
    .ok ((node, name) :: nodes)

/-- The nodes of a browse, up to its first error. -/
def browsedNodes : List (Except SessionError BrowseResultItem) →
    Except BrowsePartSheetError (List (NodeId × Text))
  | [] => .ok []
  | .error e :: _ => .error (.browseGeneralPartSheet e)
  | .ok item :: rest =>
    if !item.status.isGood then .error (.browseResultStatus item.status)
    else do
      let nodes ← namedReferences item.references
      let others ← browsedNodes rest
      .ok (nodes ++ others)

/-- Every discovered value must be present, good and serializable. -/
def checkValues (F : RowFormat) : List (DataValue × NodeId × Text) →
    Except BrowsePartSheetError Unit
  | [] => .ok ()
  | (value, _, name) :: rest => do
    let variant ← value.tryIntoVariant.mapError fun e => .invalidDataValue e name
    let _ ← (serializeVariant F.toFloatFormat variant).mapError fun e => .notSerializable e name
    checkValues F rest

/-- The numeric identifiers of the nodes. -/
def numericNodes : List (NodeId × Text) → Except BrowsePartSheetError (List (UInt32 × Text))
  | [] => .ok []
  | (node, name) :: rest => match node.identifier with
    | .numeric id => do
      let nodes ← numericNodes rest
      .ok ((id, name) :: nodes)
    | unexpected => .error (.nodeIdentifier unexpected)

/-- Browse a part sheet and check that its values can be archived. -/
def browsePartSheet (F : RowFormat) (root : NodeId) :
    HandlerProg BrowsePartSheetError (List (UInt32 × Text)) := do
  let items ← handlerCall (.browse root)
  let browsed ← Prog.attempt id (browsedNodes items)
  if browsed.isEmpty then Prog.fail .emptyBrowse
  else
    let result ← handlerCall (.read (browsed.map Prod.fst))
    let values ← Prog.attempt .readRequest result
    if values.length ≠ browsed.length then Prog.fail (.valuesCount browsed.length values.length)
    else
      let _ ← Prog.attempt id (checkValues F (values.zip browsed))
      Prog.attempt id (numericNodes browsed)

/-! ### Initialisation -/

/-- The handler with the context discovered. -/
def TraceabilityHandler.withState {σ τ : Type} (h : TraceabilityHandler σ) (state : τ) :
    TraceabilityHandler τ :=
  ⟨h.serverId, h.commonOpcuaConfig, h.machineConfig, state⟩

/-- Initialize the traceability handler. -/
def traceabilityInitialize (F : RowFormat) (h : TraceabilityHandler Unit) :
    HandlerProg TraceabilityInitializeError (TraceabilityHandler TraceabilityContext) := do
  let common := h.commonOpcuaConfig
  let commonNsIndex ← Prog.attempt .getCommonNamespaceIndex
    (← handlerCall (.getNamespaceIndex common.namespaceUrl))
  let generalNodes ← (browsePartSheet F (.new commonNsIndex common.generalPartSheetNid)).mapErr
    .browseGeneralPartSheet
  match generalNodes.findIdx? fun node => node.1 == common.partIdNid with
  | none => Prog.fail .noPartIdNode
  | some partIdIndex =>
    let operationNsIndex ← Prog.attempt .getOperationNamespaceIndex
      (← handlerCall (.getNamespaceIndex h.machineConfig.opcUa.namespaceUrl))
    let operationNodes ← (browsePartSheet F
      (.new operationNsIndex h.machineConfig.opcUa.operationPartSheetNid)).mapErr
        .browseOperationPartSheet
    pure (h.withState
      { protocol := ⟨.new commonNsIndex common.requestNid, .new commonNsIndex common.responseNid,
          .new commonNsIndex common.heartbeatNid⟩
        generalPartSheet := ⟨commonNsIndex, generalNodes, partIdIndex⟩
        operationPartSheet := ⟨operationNsIndex, operationNodes⟩ })

/-- The general nodes hold the part identifier node at the index kept for it. -/
def GeneralPartSheetContext.PartIdLocated (c : GeneralPartSheetContext) (partIdNid : UInt32) :
    Prop := ∃ name, c.nodes[c.partIdIndex]? = some (partIdNid, name)

theorem GeneralPartSheetContext.PartIdLocated.lt {c : GeneralPartSheetContext} {nid : UInt32}
    (h : c.PartIdLocated nid) : c.partIdIndex < c.nodes.length := by
  obtain ⟨name, hname⟩ := h
  exact (List.getElem?_eq_some_iff.mp hname).1

/-- Initialisation keeps the configuration and locates the part identifier. -/
theorem traceabilityInitialize_returned {F : RowFormat} {h : TraceabilityHandler Unit}
    {h' : TraceabilityHandler TraceabilityContext} {t : List (Event handlerSignature)}
    (hy : Yields (traceabilityInitialize F h) t (.returned h')) :
    (∃ state, h' = h.withState state) ∧
      h'.state.generalPartSheet.PartIdLocated h.commonOpcuaConfig.partIdNid := by
  simp only [traceabilityInitialize, Yields.bind_returned_iff] at hy
  obtain ⟨_, _, _, -, -, _, _, _, -, -, nodes, _, _, -, -, hy⟩ := hy
  cases hfind : nodes.findIdx? fun node => node.1 == h.commonOpcuaConfig.partIdNid with
  | none => simp [hfind] at hy
  | some index =>
    simp only [hfind, Yields.bind_returned_iff] at hy
    obtain ⟨_, _, _, -, -, _, _, _, -, -, _, _, _, -, -, hy⟩ := hy
    simp only [Prog.pure_eq, Yields.ret_iff, Outcome.returned.injEq] at hy
    obtain ⟨-, rfl⟩ := hy
    refine ⟨⟨_, rfl⟩, ?_⟩
    obtain ⟨hlt, hnid, -⟩ := List.findIdx?_eq_some_iff_getElem.mp hfind
    refine ⟨(nodes[index]).2, ?_⟩
    change nodes[index]? = _
    rw [List.getElem?_eq_getElem hlt, ← eq_of_beq hnid]

end LineGateway.Traceability

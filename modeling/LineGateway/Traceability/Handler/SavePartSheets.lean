import LineGateway.Traceability.Handler.Initialize
import LineGateway.Traceability.PartId

/-! The request to save the part sheets: when enqueuing is allowed, the values of all
nodes are read at once, attributed to their nodes, and saved in one transaction under
the part identifier found among them. -/

namespace LineGateway.Traceability

open Foundation Config Opcua

/-- Errors that can occur during handling the request for saving part sheets. -/
inductive HandleSaveError
  | readPartSheets (e : SessionError)
  | readLength (expected got : ℕ)
  | partSheetValue (e : TryFromOpcUaValueError) (name : Text)
  | partIdValue (e : TryFromOpcUaValueError)
  | invalidPartId (e : PartIdentifierError) (partId : Text)
  | cacheSave (e : SavePartSheetsError)
  | cacheSaveTask (e : JoinError)
  | enqueuing (e : CheckEnqueuingError)
  deriving DecidableEq

/-- The items of the nodes with the values read, up to the first value that is bad. -/
def collectPartSheets : List ((UInt32 × Text) × DataValue) →
    Except HandleSaveError (List SavedPartSheetItem)
  | [] => .ok []
  | ((id, name), value) :: rest => do
    let variant ← value.tryIntoVariant.mapError fun e => .partSheetValue e name
    let items ← collectPartSheets rest
    .ok (⟨id, name, variant⟩ :: items)

/-- `Vec::split_off`: the items before the position and those from it on, if it is not
beyond the end. -/
def splitOff {α : Type} (xs : List α) (position : ℕ) : Option (List α × List α) :=
  if position ≤ xs.length then some (xs.take position, xs.drop position) else none

theorem splitOff_of_le {α : Type} {xs : List α} {position : ℕ} (h : position ≤ xs.length) :
    splitOff xs position = some (xs.take position, xs.drop position) := if_pos h

section Program

variable (h : TraceabilityHandler TraceabilityContext)

/-- The nodes to read, general part sheet first. -/
def nodesToRead : List NodeId :=
  h.state.generalPartSheet.nodes.map (fun node => .new h.state.generalPartSheet.nsIndex node.1) ++
    h.state.operationPartSheet.nodes.map fun node => .new h.state.operationPartSheet.nsIndex node.1

/-- Save the part sheets in the cache, using a blocking task. -/
def sendSave (partId : AsciiDigitsOrUpper 23) (general operation : List SavedPartSheetItem) :
    HandlerProg HandleSaveError Unit := do
  let task ← handlerCall (.savePartSheets h.serverId partId general operation)
  let result ← Prog.attempt .cacheSaveTask task
  Prog.attempt .cacheSave result

/-- Save the collected items under the part identifier among them. -/
def saveCollected (partSheets : List SavedPartSheetItem) : HandlerProg HandleSaveError Unit := do
  let item ← Prog.expect "an element should exist at the part identifier index position"
    partSheets[h.state.generalPartSheet.partIdIndex]?
  let partId ← Prog.attempt .partIdValue (tryFromVariant item.value)
  Prog.ofOutcome (fun e => .invalidPartId e partId.asStr) (validatePartIdentifier partId)
  let (general, operation) ← Prog.expect "split index should be at most the length"
    (splitOff partSheets h.state.generalPartSheet.nodes.length)
  sendSave h partId general operation

/-- Collect and save the values read. -/
def saveRead (readValues : List DataValue) : HandlerProg HandleSaveError Unit :=
  if readValues.length ≠ (nodesToRead h).length then
    Prog.fail (.readLength (nodesToRead h).length readValues.length)
  else do
    let nodes := h.state.generalPartSheet.nodes ++ h.state.operationPartSheet.nodes
    let partSheets ← Prog.attempt id (collectPartSheets (nodes.zip readValues))
    saveCollected h partSheets

/-- Read the part sheets from the server and save them. -/
def handleSave : HandlerProg HandleSaveError Unit := do
  let allowed ← handlerCall .checkEnqueuingAllowed
  Prog.attempt .enqueuing allowed
  let result ← handlerCall (.read (nodesToRead h))
  let readValues ← Prog.attempt .readPartSheets result
  saveRead h readValues

/-! ### What follows each reply -/

def afterSaved : Except JoinError (Except SavePartSheetsError Unit) →
    HandlerProg HandleSaveError Unit
  | .error e => .fail (.cacheSaveTask e)
  | .ok (.error e) => .fail (.cacheSave e)
  | .ok (.ok ()) => .ret ()

theorem sendSave_eq (partId : AsciiDigitsOrUpper 23) (general operation : List SavedPartSheetItem) :
    sendSave h partId general operation =
      .call (.savePartSheets h.serverId partId general operation) afterSaved := by
  refine congrArg (Prog.call (S := handlerSignature) (.savePartSheets ..)) (funext fun r => ?_)
  rcases r with e | e | _ <;> rfl

def afterReadSheets : Except SessionError (List DataValue) → HandlerProg HandleSaveError Unit
  | .error e => .fail (.readPartSheets e)
  | .ok readValues => saveRead h readValues

def afterChecked : Except CheckEnqueuingError Unit → HandlerProg HandleSaveError Unit
  | .error e => .fail (.enqueuing e)
  | .ok () => .call (.read (nodesToRead h)) (afterReadSheets h)

theorem handleSave_eq : handleSave h = .call .checkEnqueuingAllowed (afterChecked h) := by
  refine congrArg (Prog.call (S := handlerSignature) .checkEnqueuingAllowed) (funext fun r => ?_)
  rcases r with e | _
  · rfl
  · refine congrArg (Prog.call (S := handlerSignature) (.read (nodesToRead h)))
      (funext fun r => ?_)
    cases r <;> rfl

end Program

end LineGateway.Traceability

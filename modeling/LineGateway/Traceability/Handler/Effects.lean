import LineGateway.Traceability.CacheSpec

/-! What the traceability handler of a machine works with: its configuration, the
services of its session, the operations of the shared cache and the clock. The
handler is a family of programs over these effects. The world it runs in keeps the
store and the values written to the server of the machine; what the session answers,
what the clock shows and which calls fail are inputs. -/

namespace LineGateway.Traceability

open Foundation Config Opcua Calendar

/-- The OPC-UA traceability configuration, common to all machines. -/
structure TraceabilityCommonOpcUaConfig where
  namespaceUrl : Text
  requestNid : UInt32
  responseNid : UInt32
  heartbeatNid : UInt32
  generalPartSheetNid : UInt32
  partIdNid : UInt32
  rawPartRefNid : UInt32
  rawBatchNid : UInt32
  excludedReadNids : List UInt32

structure TraceabilityMachineOpcUaConfig where
  namespaceUrl : Text
  operationPartSheetNid : UInt32

/-- The traceability configuration of one machine. The interval is in nanoseconds. -/
structure TraceabilityMachineConfig where
  publishInterval : ℕ
  lineId : Option (AsciiDigitsOrUpper 2)
  opcUa : TraceabilityMachineOpcUaConfig

/-- Manages traceability for an OPC-UA session. -/
structure TraceabilityHandler (σ : Type) where
  serverId : Text
  commonOpcuaConfig : TraceabilityCommonOpcUaConfig
  machineConfig : TraceabilityMachineConfig
  state : σ

/-- The value attribute of a node to be written. -/
structure WriteValue where
  nodeId : NodeId
  value : Variant

/-- One item of a browse: its status and the references found, nodes and browse names. -/
structure BrowseResultItem where
  status : StatusCode
  references : List (NodeId × Option Text)

/-! ### Effects -/

inductive HandlerEffect
  | getNamespaceIndex (url : Text)
  | browse (root : NodeId)
  | read (nodes : List NodeId)
  | write (values : List WriteValue)
  | nowZoned
  | nextSerial (date : Date)
  | getGeneralPartSheet (partId : Text)
  | checkEnqueuingAllowed
  | savePartSheets (machineId : Text) (partId : AsciiDigitsOrUpper 23)
      (general operation : List SavedPartSheetItem)

abbrev HandlerEffect.Reply : HandlerEffect → Type
  | .getNamespaceIndex _ => Except SessionError UInt16
  | .browse _ => List (Except SessionError BrowseResultItem)
  | .read _ => Except SessionError (List DataValue)
  | .write _ => Except SessionError (List StatusCode)
  | .nowZoned => Date
  | .nextSerial _ => Except JoinError (Except RedbError ℕ)
  | .getGeneralPartSheet _ =>
    Except JoinError (Except GetGeneralPartSheetError (Option (List (UInt32 × Variant))))
  | .checkEnqueuingAllowed => Except CheckEnqueuingError Unit
  | .savePartSheets .. => Except JoinError (Except SavePartSheetsError Unit)

abbrev handlerSignature : Signature := ⟨HandlerEffect, HandlerEffect.Reply⟩

abbrev HandlerProg := Prog handlerSignature

def handlerCall {ε : Type} (e : HandlerEffect) : HandlerProg ε e.Reply :=
  Prog.perform (S := handlerSignature) e

/-! ### Checked writes -/

/-- Errors that can be encountered during writing to the server. -/
inductive WriteError
  | writeRequest (e : SessionError)
  | writeStatus (status : StatusCode) (node : NodeId)
  deriving DecidableEq

/-- What follows the reply to a write: the first status that is not good is an error. -/
def checkWritten (values : List WriteValue) : Except SessionError (List StatusCode) →
    HandlerProg WriteError Unit
  | .error e => .fail (.writeRequest e)
  | .ok results => match results.zipIdx.find? fun r => !r.1.isGood with
    | none => .ret ()
    | some (status, index) => match values[index]? with
      | some value => .fail (.writeStatus status value.nodeId)
      | none => .panic "index out of bounds"

/-- Write values to the server, checking returned status codes. -/
def writeChecked (values : List WriteValue) : HandlerProg WriteError Unit := do
  let results ← handlerCall (.write values)
  checkWritten values results

theorem writeChecked_eq (values : List WriteValue) :
    writeChecked values = .call (.write values) (checkWritten values) := rfl

/-! ### The world -/

/-- The shared store, and what has been written to the server of the machine. -/
structure Site where
  store : Store
  written : List (List WriteValue)

/-- What the world decides for an effect: the answers of the session and the clock, the
failing calls, the context of the session. A lost task has not run. -/
abbrev HandlerInput (V : VariantCodec) : HandlerEffect → Type
  | .getNamespaceIndex _ => Except SessionError UInt16
  | .browse _ => List (Except SessionError BrowseResultItem)
  | .read _ => Except SessionError (List DataValue)
  | .write _ => Except SessionError (List StatusCode)
  | .nowZoned => Date
  | .nextSerial _ => Except JoinError Faults
  | .getGeneralPartSheet _ => Except JoinError (Faults × V.Context)
  | .checkEnqueuingAllowed => Faults
  | .savePartSheets .. => Except JoinError (Faults × V.Context × Timestamp)

section World

variable (V : VariantCodec) (F : RowFormat) (queuesThreshold : ℕ)

/-- A task that panics has no result. -/
def taskResult {ε α : Type} : Outcome ε α → Except JoinError (Except ε α)
  | .returned a => .ok (.ok a)
  | .failed e => .ok (.error e)
  | .panicked m => .error (.panic m)

def performHandler : (e : HandlerEffect) → HandlerInput V e → Site → e.Reply × Site
  | .getNamespaceIndex _, i, s => (i, s)
  | .browse _, i, s => (i, s)
  | .read _, i, s => (i, s)
  | .write values, i, s => (i, { s with written := s.written ++ [values] })
  | .nowZoned, i, s => (i, s)
  | .nextSerial _, .error e, s => (.error e, s)
  | .nextSerial date, .ok faults, s =>
    (.ok (nextSerial date faults s.store).1, { s with store := (nextSerial date faults s.store).2 })
  | .getGeneralPartSheet _, .error e, s => (.error e, s)
  | .getGeneralPartSheet partId, .ok (faults, ctx), s =>
    (.ok (getGeneralPartSheet V partId ctx faults s.store), s)
  | .checkEnqueuingAllowed, faults, s => (checkEnqueuingAllowed queuesThreshold faults s.store, s)
  | .savePartSheets .., .error e, s => (.error e, s)
  | .savePartSheets machineId partId general operation, .ok (faults, ctx, now), s =>
    let (outcome, store) :=
      savePartSheets V F machineId partId general operation ctx now faults s.store
    (taskResult outcome, { s with store })

abbrev handlerWorld : World handlerSignature Site :=
  ⟨HandlerInput V, performHandler V F queuesThreshold⟩

end World

end LineGateway.Traceability

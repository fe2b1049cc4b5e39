import LineGateway.Traceability.Handler.Initialize
import LineGateway.Traceability.PartId

/-! The creation of a part identifier: the raw reference and the batch are read, the
next serial number of the day is taken, the identifier is composed and written back.
The identifier exists as soon as it is composed, before it is written. -/

namespace LineGateway.Traceability

open Foundation Config Opcua Calendar

/-- Errors that can occur during part ID creation. -/
inductive CreatePartIdError
  | notConfigured
  | readVariables (e : SessionError)
  | readLength (expected got : ℕ)
  | partRefValue (e : TryFromOpcUaValueError)
  | batchValue (e : TryFromOpcUaValueError)
  | nextSerial (e : RedbError)
  | nextSerialTask (e : JoinError)
  | partIdentifier (e : PartIdentifierError)
  | writePartId (e : WriteError)
  deriving DecidableEq

section Program

variable (D : DecimalClass)

/-- Take the next serial number of the day and compose the identifier. -/
def composePartId (partRef : Text) (batch lineId : AsciiDigitsOrUpper 2) (today : Date) :
    HandlerProg CreatePartIdError Text := do
  let task ← handlerCall (.nextSerial today)
  let result ← Prog.attempt .nextSerialTask task
  let serial ← Prog.attempt .nextSerial result
  Prog.attempt .partIdentifier (createPartIdentifier D partRef batch lineId today serial)

/-- Compose the identifier of today. -/
def composeToday (partRef : Text) (batch lineId : AsciiDigitsOrUpper 2) :
    HandlerProg CreatePartIdError Text := do
  let today ← handlerCall .nowZoned
  composePartId D partRef batch lineId today

/-- Convert the variables read and compose the identifier. -/
def composeFromValues (lineId : AsciiDigitsOrUpper 2) : List DataValue →
    HandlerProg CreatePartIdError Text
  | [partRefValue, batchValue] => do
    let partRef ← Prog.attempt .partRefValue (partRefValue.tryUaValueAs Text)
    let batch ← Prog.attempt .batchValue (batchValue.tryUaValueAs (AsciiDigitsOrUpper 2))
    composeToday D partRef batch lineId
  | values => Prog.fail (.readLength 2 values.length)

variable (h : TraceabilityHandler TraceabilityContext)

/-- The part of the creation up to the composed identifier. -/
def preparePartId : HandlerProg CreatePartIdError Text :=
  match h.machineConfig.lineId with
  | none => Prog.fail .notConfigured
  | some lineId => do
    let ns := h.state.generalPartSheet.nsIndex
    let result ← handlerCall (.read
      [.new ns h.commonOpcuaConfig.rawPartRefNid, .new ns h.commonOpcuaConfig.rawBatchNid])
    let values ← Prog.attempt .readVariables result
    composeFromValues D lineId values

/-- Write the identifier to its node. -/
def writePartId (partId : Text) : HandlerProg CreatePartIdError Unit :=
  (writeChecked [⟨.new h.state.generalPartSheet.nsIndex h.commonOpcuaConfig.partIdNid,
    .string (some partId)⟩]).mapErr .writePartId

/-- Create the part ID by getting required data from the server and writing back the
generated ID. -/
def createPartId : HandlerProg CreatePartIdError Unit := do
  let partId ← preparePartId D h
  writePartId h partId

end Program

/-! ### What follows each reply -/

section Continuations

variable {D : DecimalClass}

def afterSerial (D : DecimalClass) (partRef : Text) (batch lineId : AsciiDigitsOrUpper 2)
    (today : Date) : Except JoinError (Except RedbError ℕ) → HandlerProg CreatePartIdError Text
  | .error e => .fail (.nextSerialTask e)
  | .ok (.error e) => .fail (.nextSerial e)
  | .ok (.ok serial) => match createPartIdentifier D partRef batch lineId today serial with
    | .error e => .fail (.partIdentifier e)
    | .ok partId => .ret partId

/-- After the reply the creation fails, by the identifier if a number was given, or the
identifier is composed with the number. -/
theorem afterSerial_cases (D : DecimalClass) (partRef : Text) (batch lineId : AsciiDigitsOrUpper 2)
    (today : Date) (r : Except JoinError (Except RedbError ℕ)) :
    (∃ e, afterSerial D partRef batch lineId today r = .fail e ∧ ∀ serial, r = .ok (.ok serial) →
      ∃ err, createPartIdentifier D partRef batch lineId today serial = .error err ∧
        e = .partIdentifier err) ∨
      ∃ serial s, r = .ok (.ok serial) ∧
        createPartIdentifier D partRef batch lineId today serial = .ok s ∧
        afterSerial D partRef batch lineId today r = .ret s := by
  rcases r with e | e | serial
  · exact .inl ⟨_, rfl, fun _ h => nomatch h⟩
  · exact .inl ⟨_, rfl, fun _ h => nomatch h⟩
  · simp only [afterSerial]
    cases hcreate : createPartIdentifier D partRef batch lineId today serial with
    | error err =>
      refine .inl ⟨_, rfl, fun _ h => ⟨err, ?_, rfl⟩⟩
      cases h
      exact hcreate
    | ok s => exact .inr ⟨serial, s, rfl, hcreate, rfl⟩

theorem composePartId_eq (partRef : Text) (batch lineId : AsciiDigitsOrUpper 2) (today : Date) :
    composePartId D partRef batch lineId today =
      .call (.nextSerial today) (afterSerial D partRef batch lineId today) := by
  refine congrArg (Prog.call (S := handlerSignature) (.nextSerial today)) (funext fun r => ?_)
  rcases r with e | e | serial
  · rfl
  · rfl
  · change Prog.attempt _ (createPartIdentifier D partRef batch lineId today serial) = _
    simp only [afterSerial]
    cases createPartIdentifier D partRef batch lineId today serial <;> rfl

theorem composeToday_eq (partRef : Text) (batch lineId : AsciiDigitsOrUpper 2) :
    composeToday D partRef batch lineId =
      .call .nowZoned (composePartId D partRef batch lineId) := rfl

/-- Conversion fails, or the identifier of today is composed. -/
theorem composeFromValues_cases (lineId : AsciiDigitsOrUpper 2) (values : List DataValue) :
    (∃ e, composeFromValues D lineId values = .fail e) ∨
      ∃ partRef batch, composeFromValues D lineId values = composeToday D partRef batch lineId := by
  unfold composeFromValues
  split
  · next partRefValue batchValue =>
    cases partRefValue.tryUaValueAs Text with
    | error e => exact .inl ⟨.partRefValue e, rfl⟩
    | ok partRef =>
      cases batchValue.tryUaValueAs (AsciiDigitsOrUpper 2) with
      | error e => exact .inl ⟨.batchValue e, rfl⟩
      | ok batch => exact .inr ⟨partRef, batch, rfl⟩
  · exact .inl ⟨_, rfl⟩

/-- A creation that is not configured fails; any other reads the variables first. -/
theorem preparePartId_cases (D : DecimalClass) (h : TraceabilityHandler TraceabilityContext) :
    preparePartId D h = .fail .notConfigured ∨ ∃ lineId nodes,
      preparePartId D h = .call (.read nodes) fun r => match r with
        | .error e => .fail (.readVariables e)
        | .ok values => composeFromValues D lineId values := by
  unfold preparePartId
  cases h.machineConfig.lineId with
  | none => exact .inl rfl
  | some lineId =>
    refine .inr ⟨lineId, _, congrArg (Prog.call (S := handlerSignature) _) (funext fun r => ?_)⟩
    cases r <;> rfl

end Continuations

end LineGateway.Traceability

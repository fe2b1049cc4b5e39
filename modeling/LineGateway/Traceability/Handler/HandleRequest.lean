import LineGateway.Traceability.Handler.CreatePartId
import LineGateway.Traceability.Handler.ReadPartSheet
import LineGateway.Traceability.Handler.SavePartSheets

/-! The handling of a request code. The response code tells success from every error,
and the reset code answers the reset request only. An initial request is ignored when
its response code is not reset. -/

namespace LineGateway.Traceability

open Foundation Config Opcua

/-- The response code for reset state. -/
def responseReset : UInt8 := 0

/-- The response code for success state. -/
def responseSuccess : UInt8 := 1

/-- Traceability request code. -/
inductive TraceabilityRequest
  | reset
  | createPartId
  | readPartSheet
  | savePartSheets
  deriving DecidableEq

def TraceabilityRequest.fromRepr (code : UInt8) : Option TraceabilityRequest :=
  if code = 0 then some .reset
  else if code = 1 then some .createPartId
  else if code = 2 then some .readPartSheet
  else if code = 3 then some .savePartSheets
  else none

/-- Errors that can be encountered during request handling. -/
inductive HandleRequestError
  | valueError (e : TryFromOpcUaValueError)
  | unknownValue (code : UInt8)
  | createPartId (e : CreatePartIdError)
  | handleRead (e : HandleReadError)
  | handleSave (e : HandleSaveError)

/-- Convert a request handling error to a traceability response code. -/
def HandleRequestError.toResponseCode : HandleRequestError → UInt8
  | .valueError _ => 91
  | .unknownValue _ => 92
  | .createPartId .notConfigured => 11
  | .createPartId (.readVariables _) => 12
  | .createPartId (.readLength _ _) => 12
  | .createPartId (.partRefValue _) => 13
  | .createPartId (.batchValue _) => 14
  | .createPartId (.nextSerial _) => 15
  | .createPartId (.nextSerialTask _) => 15
  | .createPartId (.partIdentifier _) => 16
  | .createPartId (.writePartId _) => 17
  | .handleRead (.readPartId _) => 21
  | .handleRead (.partIdValue _) => 22
  | .handleRead (.cacheGet _) => 23
  | .handleRead (.cacheGetTask _) => 23
  | .handleRead (.cacheMissing _) => 24
  | .handleRead (.writePartSheet _) => 25
  | .handleSave (.readPartSheets _) => 31
  | .handleSave (.readLength _ _) => 31
  | .handleSave (.partSheetValue _ _) => 32
  | .handleSave (.partIdValue _) => 33
  | .handleSave (.invalidPartId _ _) => 33
  | .handleSave (.cacheSave _) => 34
  | .handleSave (.cacheSaveTask _) => 34
  | .handleSave (.enqueuing _) => 35

/-- An error code is neither the reset code nor the success code. -/
theorem HandleRequestError.toResponseCode_ne (e : HandleRequestError) :
    e.toResponseCode ≠ responseReset ∧ e.toResponseCode ≠ responseSuccess := by
  rcases e with e | code | e | e | e
  · simp [toResponseCode, responseReset, responseSuccess]
  · simp [toResponseCode, responseReset, responseSuccess]
  · cases e <;> simp [toResponseCode, responseReset, responseSuccess]
  · cases e <;> simp [toResponseCode, responseReset, responseSuccess]
  · cases e <;> simp [toResponseCode, responseReset, responseSuccess]

section Program

variable (D : DecimalClass) (h : TraceabilityHandler TraceabilityContext)

/-- Handle a known request. -/
def handleKnown : TraceabilityRequest → HandlerProg HandleRequestError UInt8
  | .reset => pure responseReset
  | .createPartId => do
    (createPartId D h).mapErr .createPartId
    pure responseSuccess
  | .readPartSheet => do
    (handleRead h).mapErr .handleRead
    pure responseSuccess
  | .savePartSheets => do
    (handleSave h).mapErr .handleSave
    pure responseSuccess

/-- Handle a request code from the server; upon success, return the response code. -/
def handleRequest (value : DataValue) : HandlerProg HandleRequestError UInt8 := do
  let requestCode ← Prog.attempt .valueError (value.tryUaValueAs UInt8)
  match TraceabilityRequest.fromRepr requestCode with
  | none => Prog.fail (.unknownValue requestCode)
  | some req => handleKnown D h req

/-- Whether a response value counts as an answer; in case of error it does. -/
def answeredBy : Except SessionError (List DataValue) → Bool
  | .ok [responseValue] => match responseValue.tryUaValueAs UInt8 with
    | .ok code => code ≠ responseReset
    | .error _ => true
  | _ => true

/-- Check if the request code value received at subscription time has already been
answered before. Reset is never considered answered. -/
def isInitialRequestAnswered {ε : Type} (value : DataValue) : HandlerProg ε Bool :=
  match (value.tryUaValueAs UInt8).toOption.bind TraceabilityRequest.fromRepr with
  | some .reset => pure false
  | _ => do
    let result ← handlerCall (.read [h.state.protocol.response])
    pure (answeredBy result)

end Program

/-! ### Outcomes -/

/-- What the handler of the request did: its own result, if any request was executed. -/
inductive Succeeded (D : DecimalClass) (h : TraceabilityHandler TraceabilityContext)
    (t : List (Event handlerSignature)) : UInt8 → Prop
  | createPartId (hy : Yields (createPartId D h) t (.returned ())) : Succeeded D h t 1
  | handleRead (hy : Yields (handleRead h) t (.returned ())) : Succeeded D h t 2
  | handleSave (hy : Yields (handleSave h) t (.returned ())) : Succeeded D h t 3

section Outcomes

variable {D : DecimalClass} {h : TraceabilityHandler TraceabilityContext} {value : DataValue}
  {t : List (Event handlerSignature)} {code c : UInt8}

theorem fromRepr_eq_reset_iff : TraceabilityRequest.fromRepr code = some .reset ↔ code = 0 := by
  unfold TraceabilityRequest.fromRepr
  split_ifs <;> simp_all

/-- A reset is answered by the reset code, without any effect. -/
theorem handleRequest_reset (hv : value.tryUaValueAs UInt8 = .ok 0) :
    handleRequest D h value = .ret responseReset := by
  simp only [handleRequest, hv, Prog.attempt_ok, Prog.ret_bind]
  rfl

/-- A request that is returned successfully is a reset, or its handler has succeeded. -/
theorem handleRequest_returned (hv : value.tryUaValueAs UInt8 = .ok code)
    (hy : Yields (handleRequest D h value) t (.returned c)) :
    code = 0 ∧ c = responseReset ∨ c = responseSuccess ∧ Succeeded D h t code := by
  simp only [handleRequest, hv, Prog.attempt_ok, Prog.ret_bind] at hy
  unfold TraceabilityRequest.fromRepr at hy
  split_ifs at hy with h₀ h₁ h₂ h₃
  · simp only [handleKnown, Prog.pure_eq, Yields.ret_iff, Outcome.returned.injEq] at hy
    exact .inl ⟨h₀, hy.2⟩
  · simp only [handleKnown, Yields.bind_returned_iff, Yields.mapErr_returned_iff, Prog.pure_eq,
      Yields.ret_iff, Outcome.returned.injEq] at hy
    obtain ⟨u, t₁, t₂, rfl, hy', rfl, rfl⟩ := hy
    exact .inr ⟨rfl, h₁ ▸ .createPartId (by simpa using hy')⟩
  · simp only [handleKnown, Yields.bind_returned_iff, Yields.mapErr_returned_iff, Prog.pure_eq,
      Yields.ret_iff, Outcome.returned.injEq] at hy
    obtain ⟨u, t₁, t₂, rfl, hy', rfl, rfl⟩ := hy
    exact .inr ⟨rfl, h₂ ▸ .handleRead (by simpa using hy')⟩
  · simp only [handleKnown, Yields.bind_returned_iff, Yields.mapErr_returned_iff, Prog.pure_eq,
      Yields.ret_iff, Outcome.returned.injEq] at hy
    obtain ⟨u, t₁, t₂, rfl, hy', rfl, rfl⟩ := hy
    exact .inr ⟨rfl, h₃ ▸ .handleSave (by simpa using hy')⟩
  · simp at hy

/-- An initial request is not considered answered when it is a reset, or when the
response read is the reset code. -/
theorem isInitialRequestAnswered_false {ε : Type}
    (hy : Yields (isInitialRequestAnswered h value : HandlerProg ε Bool) t (.returned false)) :
    value.tryUaValueAs UInt8 = .ok 0 ∨ ∃ responseValue,
      t = [⟨.read [h.state.protocol.response], .ok [responseValue]⟩] ∧
        responseValue.tryUaValueAs UInt8 = .ok responseReset := by
  unfold isInitialRequestAnswered at hy
  split at hy
  · next hreset =>
    left
    cases hv : value.tryUaValueAs UInt8 with
    | error e => simp [hv, Except.toOption] at hreset
    | ok code =>
      simp only [hv, Except.toOption, Option.bind_some, fromRepr_eq_reset_iff] at hreset
      rw [hreset]
  · right
    obtain ⟨r, t', rfl, hy'⟩ := Yields.call_iff.mp hy
    obtain ⟨rfl, hr⟩ := Yields.ret_iff.mp hy'
    simp only [Outcome.returned.injEq, Bool.false_eq] at hr
    unfold answeredBy at hr
    split at hr
    · next responseValue =>
      cases hcode : responseValue.tryUaValueAs UInt8 with
      | error e => simp [hcode] at hr
      | ok code =>
        simp only [hcode, decide_eq_false_iff_not, not_not] at hr
        exact ⟨responseValue, rfl, hr ▸ hcode⟩
    · cases hr

end Outcomes

end LineGateway.Traceability

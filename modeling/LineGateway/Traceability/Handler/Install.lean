import LineGateway.Traceability.Handler.HandleRequest

/-! The request handling task of an installed handler: each notification of the request
variable is handled in turn, and its response code written. The first notification of a
subscription is handled only if it has not been answered already. -/

namespace LineGateway.Traceability

open Foundation Config Opcua

/-- The response code of a handled request, if the handler has not panicked. -/
def responseCode : Outcome HandleRequestError UInt8 → Option UInt8
  | .returned code => some code
  | .failed e => some e.toResponseCode
  | .panicked _ => none

section Program

variable (D : DecimalClass) (h : TraceabilityHandler TraceabilityContext)

/-- Write a response code; the result is ignored. -/
def writeResponse (code : UInt8) : HandlerProg Empty Unit :=
  (writeChecked [⟨h.state.protocol.response, .byte code⟩]).unwrapOrElse fun _ => ()

/-- Handle a request and write its response code. -/
def respond (value : DataValue) : HandlerProg Empty Unit := do
  let code ← (handleRequest D h value).unwrapOrElse HandleRequestError.toResponseCode
  writeResponse h code

/-- What is done with one notification of the request variable. -/
def onNotification (isInitial : Bool) (value : DataValue) : HandlerProg Empty Unit := do
  let answered ← if isInitial then isInitialRequestAnswered h value else pure false
  if answered then pure () else respond D h value

end Program

section Traces

variable {D : DecimalClass} {h : TraceabilityHandler TraceabilityContext} {value : DataValue}
  {t t' : List (Event handlerSignature)} {o : Outcome Empty Unit}

/-- An initial notification is checked first. -/
theorem onNotification_initial {answered : Bool}
    (hc : Yields (isInitialRequestAnswered h value : HandlerProg Empty Bool) t (.returned answered))
    (hr : Yields (if answered then .ret () else respond D h value) t' o) :
    Yields (onNotification D h true value) (t ++ t') o := by
  refine Yields.bind_iff.mpr (.inl ⟨answered, t, t', rfl, hc, ?_⟩)
  cases answered <;> exact hr

/-- A handled request goes on with the writing of its response code. -/
theorem respond_of_code {outcome : Outcome HandleRequestError UInt8} {code : UInt8}
    (hy : Yields (handleRequest D h value) t outcome) (hcode : responseCode outcome = some code)
    (hr : Yields (writeResponse h code) t' o) : Yields (respond D h value) (t ++ t') o := by
  refine Yields.bind_iff.mpr (.inl ⟨code, t, t', rfl, Yields.unwrapOrElse_returned_iff.mpr ?_, hr⟩)
  cases outcome with
  | returned c => cases hcode; exact .inl hy
  | failed e => cases hcode; exact .inr ⟨e, rfl, hy⟩
  | panicked m => cases hcode

/-- A panic of the handler ends the task. -/
theorem respond_of_panic {m : String} (hy : Yields (handleRequest D h value) t (.panicked m)) :
    Yields (respond D h value) t (.panicked m) :=
  Yields.bind_iff.mpr (.inr (.inr ⟨m, rfl, Yields.unwrapOrElse_panicked hy⟩))

/-- The write of a response is done with at its reply; no error is reported. -/
theorem writeResponse_replied {code : UInt8} {r : Except SessionError (List StatusCode)}
    {o : Outcome Empty Unit} (hr : Yields ((checkWritten [⟨h.state.protocol.response, .byte code⟩]
      r).unwrapOrElse fun _ => () : HandlerProg Empty Unit) [] o) :
    Yields (writeResponse h code) [⟨.write [⟨h.state.protocol.response, .byte code⟩], r⟩] o :=
  Yields.call_iff.mpr ⟨r, [], rfl, hr⟩

end Traces

/-- The response code reset answers nothing but the reset request. -/
theorem responseCode_reset {D : DecimalClass} {h : TraceabilityHandler TraceabilityContext}
    {value : DataValue} {t : List (Event handlerSignature)}
    {outcome : Outcome HandleRequestError UInt8} (hy : Yields (handleRequest D h value) t outcome)
    (hcode : responseCode outcome = some responseReset) : value.tryUaValueAs UInt8 = .ok 0 := by
  cases outcome with
  | failed e => exact absurd (Option.some.inj hcode) e.toResponseCode_ne.1
  | panicked m => cases hcode
  | returned c =>
    cases hcode
    cases hv : value.tryUaValueAs UInt8 with
    | error e => simp [handleRequest, hv] at hy
    | ok code =>
      rcases handleRequest_returned hv hy with ⟨rfl, -⟩ | ⟨hne, -⟩
      · rfl
      · exact absurd hne (by decide)

/-- The success code tells that the handler of the request has succeeded. -/
theorem responseCode_success {D : DecimalClass} {h : TraceabilityHandler TraceabilityContext}
    {value : DataValue} {t : List (Event handlerSignature)}
    {outcome : Outcome HandleRequestError UInt8} {code : UInt8}
    (hv : value.tryUaValueAs UInt8 = .ok code) (hy : Yields (handleRequest D h value) t outcome)
    (hcode : responseCode outcome = some responseSuccess) : Succeeded D h t code := by
  cases outcome with
  | failed e => exact absurd (Option.some.inj hcode) e.toResponseCode_ne.2
  | panicked m => cases hcode
  | returned c =>
    cases hcode
    rcases handleRequest_returned hv hy with ⟨-, hne⟩ | ⟨-, hs⟩
    · exact absurd hne (by decide)
    · exact hs

end LineGateway.Traceability

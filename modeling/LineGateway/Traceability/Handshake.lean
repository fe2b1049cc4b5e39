import LineGateway.Traceability.Creations
import LineGateway.Traceability.Handler.Install

/-! The handshake of a machine and the gateway over the request and the response
variable. The request variable has a history of values, of which a subscription notifies
some in order; the gateway handles one notification at a time. A session goes on until
the next one subscribes, at any time: a lost session is one that does not go on. A
response write may fail and still take effect later, but not after the next session
has subscribed. -/

namespace LineGateway.Traceability

open Foundation Config Opcua

/-- A notification: the position of the value in the history, and what is delivered. -/
structure Notification where
  index : ℕ
  value : DataValue

/-- A response code with the execution it results from. `started` is the number of values
the request variable had had when the execution started. -/
structure Answer (D : DecimalClass) extends Notification where
  handler : TraceabilityHandler TraceabilityContext
  started : ℕ
  trace : List (Event handlerSignature)
  outcome : Outcome HandleRequestError UInt8
  code : UInt8
  yields : Yields (handleRequest D handler value) trace outcome
  code_eq : responseCode outcome = some code

/-- How far the handling of a notification has come. -/
inductive Phase (D : DecimalClass)
  | waiting
  | checking (m : Notification)
  | accepted (m : Notification)
  | executing (m : Notification) (started : ℕ)
  | answering (x : Answer D)
  | dead (message : String)

/-- What is left to run of the handling of a notification. -/
def Phase.rest {D : DecimalClass} (h : TraceabilityHandler TraceabilityContext) :
    Phase D → HandlerProg Empty Unit
  | .waiting => .ret ()
  | .checking m => onNotification D h true m.value
  | .accepted m => respond D h m.value
  | .executing m _ => respond D h m.value
  | .answering x => writeResponse h x.code
  | .dead message => .panic message

/-- A session: the last position notified, or that of the value at subscription time as
long as nothing has been notified. -/
structure Session (D : DecimalClass) where
  handler : TraceabilityHandler TraceabilityContext
  isInitial : Bool
  cursor : ℕ
  phase : Phase D

/-- The state of the two variables and of the gateway. Response writes reported as failed
may still be in flight. The answer that the response variable holds, and the last request
answered successfully by another code than reset, are recorded. -/
structure Handshake (D : DecimalClass) where
  requests : List UInt8
  response : UInt8
  session : Option (Session D)
  inFlight : List (Answer D)
  source : Option (Answer D)
  answered : Option ℕ

namespace Handshake

variable {D : DecimalClass}

def initial : Handshake D := ⟨[0], 0, none, [], none, none⟩

variable (s : Handshake D)

/-- The value of the request variable at a position of its history. -/
def valueAt (i : ℕ) : UInt8 := s.requests.getD i 0

/-- The value of the request variable. -/
def request : UInt8 := s.valueAt (s.requests.length - 1)

variable {s} in
theorem valueAt_append {c : UInt8} {i : ℕ} (hi : i < s.requests.length) :
    ({ s with requests := s.requests ++ [c] } : Handshake D).valueAt i = s.valueAt i := by
  simp [valueAt, List.getElem?_append_left hi]

/-- A good value that is delivered is the value at its position. -/
def Delivers (m : Notification) : Prop :=
  ∀ c, m.value.tryUaValueAs UInt8 = .ok c → c = s.valueAt m.index

/-- What is read from the response node, if anything, is the response code. -/
def Honest (h : TraceabilityHandler TraceabilityContext) (t : List (Event handlerSignature)) : Prop :=
  ∀ v, (⟨.read [h.state.protocol.response], .ok [v]⟩ : Event handlerSignature) ∈ t →
    ∀ c, v.tryUaValueAs UInt8 = .ok c → c = s.response

/-- The request at this position has been answered if it is one. -/
def noteAnswered (x : Answer D) : Option ℕ :=
  if x.code ≠ responseReset ∧ s.valueAt x.index ≠ 0 then some x.index else s.answered

inductive Label
  | write (c : UInt8)
  | subscribe (h : TraceabilityHandler TraceabilityContext)
  | notify (m : Notification)
  | check (t : List (Event handlerSignature)) (answered : Bool)
  | start
  | finish (t : List (Event handlerSignature)) (o : Outcome HandleRequestError UInt8)
  | answer
  | answerFails (dies : Bool)
  | land (k : ℕ)

inductive Step : Handshake D → Label → Handshake D → Prop
  | write (s : Handshake D) (c : UInt8) :
      Step s (.write c) { s with requests := s.requests ++ [c] }
  | subscribe (s : Handshake D) (h : TraceabilityHandler TraceabilityContext) :
      Step s (.subscribe h)
        { s with session := some ⟨h, true, s.requests.length - 1, .waiting⟩, inFlight := [] }
  -- The first notification is that of the value at subscription time.
  | notifyInitial (s : Handshake D) (u : Session D) (m : Notification) (hu : s.session = some u)
      (hw : u.phase = .waiting) (hi : u.isInitial) (hm : m.index = u.cursor) (hd : s.Delivers m) :
      Step s (.notify m)
        { s with session := some { u with isInitial := false, phase := .checking m } }
  | notify (s : Handshake D) (u : Session D) (m : Notification) (hu : s.session = some u)
      (hw : u.phase = .waiting) (hi : ¬ u.isInitial) (hm : u.cursor ≤ m.index)
      (hlt : m.index < s.requests.length) (hd : s.Delivers m) :
      Step s (.notify m)
        { s with session := some { u with cursor := m.index, phase := .accepted m } }
  | check (s : Handshake D) (u : Session D) (m : Notification) (t : List (Event handlerSignature))
      (answered : Bool) (hu : s.session = some u) (hp : u.phase = .checking m)
      (hy : Yields (isInitialRequestAnswered u.handler m.value : HandlerProg Empty Bool) t
        (.returned answered)) (ht : s.Honest u.handler t) :
      Step s (.check t answered)
        { s with session := some { u with phase := if answered then .waiting else .accepted m } }
  | start (s : Handshake D) (u : Session D) (m : Notification) (hu : s.session = some u)
      (hp : u.phase = .accepted m) :
      Step s .start
        { s with session := some { u with phase := .executing m s.requests.length } }
  | finish (s : Handshake D) (u : Session D) (x : Answer D) (hu : s.session = some u)
      (hh : x.handler = u.handler) (hp : u.phase = .executing x.toNotification x.started) :
      Step s (.finish x.trace x.outcome)
        { s with session := some { u with phase := .answering x } }
  | panic (s : Handshake D) (u : Session D) (m : Notification) (started : ℕ)
      (t : List (Event handlerSignature)) (message : String) (hu : s.session = some u)
      (hp : u.phase = .executing m started)
      (hy : Yields (handleRequest D u.handler m.value) t (.panicked message)) :
      Step s (.finish t (.panicked message))
        { s with session := some { u with phase := .dead message } }
  | answer (s : Handshake D) (u : Session D) (x : Answer D) (hu : s.session = some u)
      (hp : u.phase = .answering x) :
      Step s .answer
        { s with
          session := some { u with phase := .waiting }
          response := x.code
          source := some x
          answered := s.noteAnswered x }
  -- The write may be reported as failed, or its reply may end the task.
  | answerFails (s : Handshake D) (u : Session D) (x : Answer D) (dies : Bool)
      (hu : s.session = some u) (hp : u.phase = .answering x) :
      Step s (.answerFails dies)
        { s with
          session := some { u with phase := if dies then .dead "index out of bounds" else .waiting }
          inFlight := s.inFlight ++ [x] }
  | land (s : Handshake D) (x : Answer D) (k : ℕ) (hk : s.inFlight[k]? = some x) :
      Step s (.land k)
        { s with response := x.code, source := some x, inFlight := s.inFlight.eraseIdx k }

/-! ### The steps of a session are the program of the task -/

/-- The trace of a response write with its reply. -/
def responseWrite (h : TraceabilityHandler TraceabilityContext) (code : UInt8)
    (r : Except SessionError (List StatusCode)) : List (Event handlerSignature) :=
  [⟨.write [⟨h.state.protocol.response, .byte code⟩], r⟩]

/-- The steps on the way from one notification to the next. -/
def Label.Handles : Label → Prop
  | .check .. | .start | .finish .. | .answer | .answerFails _ => True
  | _ => False

/-- A step of the handling performs some effects of the program left to run, and leaves
the rest of it. -/
theorem Step.rest {s s' : Handshake D} {l : Label} (hs : Step s l s') (hl : l.Handles)
    {u u' : Session D} (hu : s.session = some u) (hu' : s'.session = some u') :
    ∃ t, ∀ t' o, Yields (u'.phase.rest u.handler) t' o →
      Yields (u.phase.rest u.handler) (t ++ t') o := by
  cases hs with
  | check _ m t answered hsu hp hy ht =>
    cases hu.symm.trans hsu
    cases hu'
    refine ⟨t, fun t' o h => ?_⟩
    rw [hp]
    exact onNotification_initial hy (by cases answered <;> exact h)
  | start _ m hsu hp =>
    cases hu.symm.trans hsu
    cases hu'
    exact ⟨[], fun t' o h => by rw [hp]; exact h⟩
  | finish _ x hsu hh hp =>
    cases hu.symm.trans hsu
    cases hu'
    refine ⟨x.trace, fun t' o h => ?_⟩
    rw [hp]
    exact respond_of_code (hh ▸ x.yields) x.code_eq h
  | panic _ m started t message hsu hp hy =>
    cases hu.symm.trans hsu
    cases hu'
    refine ⟨t, fun t' o h => ?_⟩
    obtain ⟨rfl, rfl⟩ := Yields.panic_iff.mp h
    rw [hp, List.append_nil]
    exact respond_of_panic hy
  | answer _ x hsu hp =>
    cases hu.symm.trans hsu
    cases hu'
    refine ⟨responseWrite u.handler x.code (.ok [.good]), fun t' o h => ?_⟩
    obtain ⟨rfl, rfl⟩ := Yields.ret_iff.mp h
    rw [hp]
    exact writeResponse_replied (.ret ())
  | answerFails _ x dies hsu hp =>
    cases hu.symm.trans hsu
    cases hu'
    cases dies with
    | false =>
      refine ⟨responseWrite u.handler x.code (.error ⟨⟨2 ^ 31⟩⟩), fun t' o h => ?_⟩
      obtain ⟨rfl, rfl⟩ := Yields.ret_iff.mp h
      rw [hp]
      exact writeResponse_replied (.ret ())
    | true =>
      refine ⟨responseWrite u.handler x.code (.ok [.good, ⟨2 ^ 31⟩]), fun t' o h => ?_⟩
      obtain ⟨rfl, rfl⟩ := Yields.panic_iff.mp h
      rw [hp]
      exact writeResponse_replied (.panic _)
  | _ => exact hl.elim

/-! ### A sample -/

def sampleValue (code : UInt8) : DataValue := ⟨some (.byte code), none⟩

theorem sampleValue_eq {code c : UInt8} (h : (sampleValue code).tryUaValueAs UInt8 = .ok c) :
    c = code := by
  obtain ⟨x, -, hx, hb⟩ := DataValue.tryUaValueAs_ok_iff.mp h
  cases hx
  exact (Variant.byte.inj (tryFromVariant_byte_ok_iff.mp hb)).symm

/-- The answer to a creation requested by the second value of the request variable. -/
def sampleAnswer : Answer asciiDecimal where
  index := 1
  value := sampleValue 1
  handler := Creations.sampleHandler
  started := 2
  trace := [⟨.read [.new 1 6, .new 1 7], .ok Creations.sampleVariables⟩,
    ⟨.nowZoned, Creations.sampleDate⟩, ⟨.nextSerial Creations.sampleDate, .ok (.ok 1)⟩,
    ⟨.write [⟨.new 1 5, .string (some "010498013AA422634300001".toList)⟩], .ok [.good]⟩]
  outcome := .returned 1
  code := 1
  yields := .call _ (.call _ (.call _ (.call _ (.ret _))))
  code_eq := rfl

/-- What the response node is read as when the response is this code. -/
def sampleRead (code : UInt8) : List (Event handlerSignature) :=
  [⟨.read [.new 1 2], .ok [sampleValue code]⟩]

theorem honest_sampleRead {s : Handshake asciiDecimal} (h : TraceabilityHandler TraceabilityContext) :
    s.Honest h (sampleRead s.response) := by
  intro v hv c hc
  simp only [sampleRead, List.mem_singleton, Sigma.mk.injEq] at hv
  cases eq_of_heq hv.2
  exact sampleValue_eq hc

end Handshake

end LineGateway.Traceability

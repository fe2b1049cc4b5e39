import LineGateway.Foundation.Behaviour
import LineGateway.Traceability.Creations
import LineGateway.Traceability.Handler.HandleRequest
import LineGateway.Traceability.Sequence

/-! The requests of all machines of the line on one store. Requests of any machine with
any code start at any time, perform their effects in any interleaving with each other and
with the removals of the drains, and are abandoned at any point; the store outlives a
restart. Proved: what a request does to the store is an operation of the queues, and a
save is performed only after a check that allowed it, of a part identifier that is
valid. -/

namespace LineGateway.Traceability

open Foundation Config Opcua

variable {V : VariantCodec}

/-! ### The effects of a request on the queues -/

namespace QueueRun

/-- The save that an effect commits. -/
def savedBy (F : RowFormat) (store : Store) : (e : HandlerEffect) → HandlerInput V e → List (SaveCall V)
  | .savePartSheets machineId partId general operation, .ok (faults, context, now) =>
    SaveCall.committed F ⟨machineId, partId, general, operation, context, now⟩ faults store
  | _, _ => []

/-- The queues after an effect of a request. -/
def after (F : RowFormat) (queuesThreshold : ℕ) (s : QueueRun V) (e : HandlerEffect)
    (i : HandlerInput V e) : QueueRun V where
  store := (performHandler V F queuesThreshold e i ⟨s.store, []⟩).2.store
  history := s.history ++ savedBy F s.store e i

variable {F : RowFormat} {queuesThreshold : ℕ} {s : QueueRun V}

/-- An effect of a request is an operation of the queues, or leaves them alone. -/
theorem after_step (e : HandlerEffect) (i : HandlerInput V e) :
    ∃ l, Step F s l (s.after F queuesThreshold e i) := by
  have hsame : ∀ {s' : QueueRun V}, s'.store = s.store → s'.history = s.history ++ [] →
      ∃ l, Step F s l s' := by
    rintro ⟨store, history⟩ rfl hh
    rw [List.append_nil] at hh
    subst hh
    exact ⟨.restart, rfl⟩
  cases e with
  | getNamespaceIndex url => exact hsame rfl rfl
  | browse root => exact hsame rfl rfl
  | read nodes => exact hsame rfl rfl
  | write values => exact hsame rfl rfl
  | nowZoned => exact hsame rfl rfl
  | nextSerial date =>
    cases i with
    | error e => exact hsame rfl rfl
    | ok faults =>
      refine ⟨.nextSerial date faults, ?_⟩
      simp [Step, next, after, performHandler, savedBy]
  | getGeneralPartSheet partId =>
    cases i with
    | error e => exact hsame rfl rfl
    | ok faults => exact hsame rfl rfl
  | checkEnqueuingAllowed => exact hsame rfl rfl
  | savePartSheets machineId partId general operation =>
    cases i with
    | error e => exact hsame rfl rfl
    | ok i => exact ⟨.save ⟨machineId, partId, general, operation, i.2.1, i.2.2⟩ i.1, rfl⟩

end QueueRun

/-! ### The protocol of saves -/

/-- Whether a request has been allowed to enqueue and has not saved yet. -/
inductive SavePhase
  | outside
  | admitted
  deriving DecidableEq

def SavePhase.next (m : SavePhase) : (e : HandlerEffect) → e.Reply → SavePhase
  | .checkEnqueuingAllowed, .ok () => .admitted
  | .savePartSheets .., _ => .outside
  | _, _ => m

/-- A save needs an admission and a valid part identifier. -/
def SavePhase.allowed (m : SavePhase) : HandlerEffect → Prop
  | .savePartSheets _ partId _ _ => m = .admitted ∧ validatePartIdentifier partId = .returned ()
  | _ => True

def saveProtocol : Protocol handlerSignature SavePhase := ⟨SavePhase.allowed, SavePhase.next⟩

section Obeys

variable {h : TraceabilityHandler TraceabilityContext} {m : SavePhase} {ε : Type}

theorem writeChecked_obeys (values : List WriteValue) : (writeChecked values).Obeys saveProtocol m := by
  rw [writeChecked_eq]
  refine .call trivial fun r => ?_
  unfold checkWritten
  split
  · trivial
  · split
    · trivial
    · split <;> trivial

theorem createPartId_obeys (D : DecimalClass) : (createPartId D h).Obeys saveProtocol m := by
  refine .bind ?_ fun partId m' => (writeChecked_obeys _).mapErr _
  unfold preparePartId
  split
  · trivial
  · refine .call trivial fun r => .attempt_bind fun values _ => ?_
    rcases composeFromValues_cases (D := D) _ values with ⟨e, he⟩ | ⟨partRef, batch, he⟩
    · rw [he]
      trivial
    · rw [he, composeToday_eq]
      refine .call trivial fun today => ?_
      rw [composePartId_eq]
      refine .call trivial fun r => ?_
      rcases afterSerial_cases D partRef batch _ today r with ⟨e, he, -⟩ | ⟨serial, s, -, -, hs⟩
      · rw [he]
        trivial
      · rw [hs]
        trivial

theorem handleRead_obeys : (handleRead h).Obeys saveProtocol m := by
  refine .call trivial fun r => .attempt_bind fun values _ => .expect_bind fun value _ =>
    .attempt_bind fun partId _ => .call trivial fun reply => ?_
  change (writePartSheet h partId reply).Obeys saveProtocol _
  rw [writePartSheet_eq]
  rcases reply with e | e | _ | partSheet
  · trivial
  · trivial
  · trivial
  · exact (writeChecked_obeys _).mapErr _

/-- The save comes after the check, and after the validation of the part identifier. -/
theorem handleSave_obeys : (handleSave h).Obeys saveProtocol m := by
  rw [handleSave_eq]
  refine .call trivial fun allowed => ?_
  cases allowed with
  | error e => trivial
  | ok u =>
    refine .call trivial fun result => ?_
    cases result with
    | error e => trivial
    | ok readValues =>
      change (saveRead h readValues).Obeys saveProtocol .admitted
      unfold saveRead
      split
      · trivial
      · refine .attempt_bind fun partSheets _ => .expect_bind fun item _ =>
          .attempt_bind fun partId _ => .ofOutcome_bind fun u hvalid =>
            .expect_bind fun sheets _ => ?_
        show (sendSave h partId sheets.1 sheets.2).Obeys saveProtocol .admitted
        rw [sendSave_eq]
        refine .call ⟨rfl, hvalid⟩ fun reply => ?_
        rcases reply with e | e | u <;> trivial

theorem handleRequest_obeys (D : DecimalClass) (value : DataValue) :
    (handleRequest D h value).Obeys saveProtocol m := by
  refine .attempt_bind fun code _ => ?_
  split
  · trivial
  · next req _ =>
    cases req with
    | reset => trivial
    | createPartId => exact .bind ((createPartId_obeys D).mapErr _) fun _ _ => trivial
    | readPartSheet => exact .bind (handleRead_obeys.mapErr _) fun _ _ => trivial
    | savePartSheets => exact .bind (handleSave_obeys.mapErr _) fun _ _ => trivial

end Obeys

/-! ### The system -/

/-- How far the execution of a request has come. -/
inductive Execution
  | running (p : HandlerProg HandleRequestError UInt8) (m : SavePhase)
  | abandoned

/-- Whether the execution is between a check that allowed it and the end of its save. -/
def Execution.inside : Execution → Bool
  | .running (.call _ _) .admitted => true
  | _ => false

/-- The queues with the executions of requests, in the order they started. -/
structure Line (V : VariantCodec) where
  queue : QueueRun V
  executions : List Execution

namespace Line

/-- Before any request. -/
def start (store : Store) : Line V := ⟨⟨store, []⟩, []⟩

inductive Label (V : VariantCodec)
  | start (h : TraceabilityHandler TraceabilityContext) (value : DataValue)
  | perform (n : ℕ) (e : HandlerEffect) (i : HandlerInput V e)
  | remove (q : QueueTable) (keys : List ℕ) (faults : Faults)
  | abandon (n : ℕ)
  | restart

variable (D : DecimalClass) (F : RowFormat) (queuesThreshold : ℕ)

/-- The effect of a request and what it goes on with. -/
def perform (s : Line V) (n : ℕ) (e : HandlerEffect)
    (k : e.Reply → HandlerProg HandleRequestError UInt8) (m : SavePhase) (i : HandlerInput V e) : Line V :=
  let reply := (performHandler V F queuesThreshold e i ⟨s.queue.store, []⟩).1
  { queue := s.queue.after F queuesThreshold e i
    executions := s.executions.set n (.running (k reply) (m.next e reply)) }

inductive Step : Line V → Label V → Line V → Prop
  | start (s : Line V) (h : TraceabilityHandler TraceabilityContext) (value : DataValue) :
      Step s (.start h value)
        { s with executions := s.executions ++ [.running (handleRequest D h value) .outside] }
  | perform (s : Line V) (n : ℕ) (e : HandlerEffect)
      (k : e.Reply → HandlerProg HandleRequestError UInt8) (m : SavePhase) (i : HandlerInput V e)
      (hn : s.executions[n]? = some (.running (.call e k) m)) :
      Step s (.perform n e i) (s.perform F queuesThreshold n e k m i)
  | remove (s : Line V) (q : QueueTable) (keys : List ℕ) (faults : Faults) :
      Step s (.remove q keys faults) { s with queue := s.queue.next F (.remove q keys faults) }
  -- A blocking task that outlives its request is an execution that is not abandoned yet.
  | abandon (s : Line V) (n : ℕ) :
      Step s (.abandon n) { s with executions := s.executions.set n .abandoned }
  | restart (s : Line V) : Step s .restart { s with executions := [] }

/-- The number of executions inside. -/
def inside (s : Line V) : ℕ := s.executions.countP Execution.inside

section Step

variable {D F queuesThreshold} {s s' : Line V} {l : Label V} {ls : List (Label V)} {store : Store}

theorem Step.queue_step (h : Step D F queuesThreshold s l s') :
    ∃ l', QueueRun.Step F s.queue l' s'.queue := by
  cases h with
  | start h value => exact ⟨.restart, rfl⟩
  | perform n e k m i hn => exact QueueRun.after_step e i
  | remove q keys faults => exact ⟨.remove q keys faults, rfl⟩
  | abandon n => exact ⟨.restart, rfl⟩
  | restart => exact ⟨.restart, rfl⟩

/-- A run of the line is a run of its queues. -/
theorem run_queue (hr : Run (Step D F queuesThreshold) (start store) ls s) :
    ∃ ls', Run (QueueRun.Step F) ⟨store, []⟩ ls' s.queue := by
  apply hr.project Line.queue
  intro s l s' hs
  exact hs.queue_step

/-- Every execution goes on as the protocol of saves allows. -/
def Obedient (s : Line V) : Prop :=
  ∀ p m, .running p m ∈ s.executions → p.Obeys saveProtocol m

theorem Obedient.step (h : Obedient s) (hs : Step D F queuesThreshold s l s') : Obedient s' := by
  cases hs with
  | start h' value =>
    intro p m hp
    rcases List.mem_append.mp hp with hp | hp
    · exact h p m hp
    · cases List.mem_singleton.mp hp
      exact handleRequest_obeys D value
  | perform n e k m i hn =>
    intro p m' hp
    rcases List.mem_or_eq_of_mem_set hp with hp | hp
    · exact h p m' hp
    · cases hp
      exact (h _ m (List.mem_of_getElem? hn)).2 _
  | remove q keys faults => exact h
  | abandon n =>
    intro p m hp
    rcases List.mem_or_eq_of_mem_set hp with hp | hp
    · exact h p m hp
    · cases hp
  | restart =>
    intro p m hp
    cases hp

theorem reachable_obedient (h : Reachable (Step D F queuesThreshold) (start store) s) :
    Obedient s := by
  apply h.invariant
  · intro s l s' ho hs
    exact ho.step hs
  · intro p m hp
    cases hp

end Step

/-- A save request allowed to enqueue, up to its save. -/
def sampleSaving (n : ℕ) : List (Label plainCodec) :=
  [.perform n .checkEnqueuingAllowed noFaults,
    .perform n (.read [.new 1 5]) (.ok [⟨some (.string (some sampleSave.partId.asStr)), none⟩]),
    .perform n (.savePartSheets "MAC1".toList sampleSave.partId
      [⟨5, "PartId".toList, .string (some sampleSave.partId.asStr)⟩] []) (.ok (noFaults, (), 0))]

def saveRequest : DataValue := ⟨some (.byte 3), none⟩

end Line

end LineGateway.Traceability

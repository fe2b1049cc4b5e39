import LineGateway.Foundation.Guarantee
import LineGateway.Traceability.Creations
import LineGateway.Traceability.Handler.Install

/-! The tasks of an installed handler. The request task takes the notifications of the
request variable from a channel and handles one after the other; the heartbeat task writes
to the heartbeat variable, alternately true and false. Both end at the head of their loops
once they are cancelled. When the collection of tasks is dropped instead they are aborted,
wherever they are. Proved: notifications are handled in the order received, each of them
entirely unless the task is aborted or panics, and none is begun after the cancellation. -/

namespace LineGateway.Traceability

open Foundation Config Opcua

/-- The handling of a notification: the replies so far, and what is left to run. -/
structure Handling where
  value : DataValue
  isInitial : Bool
  trace : List (Event handlerSignature)
  rest : HandlerProg Empty Unit

section Handling

variable (D : DecimalClass) (h : TraceabilityHandler TraceabilityContext) (hd : Handling)

/-- The handling has come where its trace says. -/
def Handling.Reached : Prop :=
  (onNotification D h hd.isInitial hd.value).After hd.trace hd.rest

/-- The handling has ended with the outcome, after the replies recorded. -/
def Handling.Ended (o : Outcome Empty Unit) : Prop :=
  Yields (onNotification D h hd.isInitial hd.value) hd.trace o

end Handling

inductive TaskStatus
  | running
  | terminated
  | panicked
  | aborted
  deriving DecidableEq

/-- The request task and the heartbeat task of a session. Everything received, the
notifications handled to the end and the heartbeat values written are recorded. -/
structure HandlerTasks where
  handler : TraceabilityHandler TraceabilityContext
  cancelled : Bool
  dropped : Bool
  requestTask : TaskStatus
  received : List DataValue
  pending : List DataValue
  isInitial : Bool
  current : Option Handling
  handled : List Handling
  heartbeatTask : TaskStatus
  heartbeatValue : Bool
  beating : Bool
  beats : List Bool

/-- Checking the reply to a write panics: the bad status is none of a value written. -/
def writePanics (values : List WriteValue) (r : Except SessionError (List StatusCode)) : Bool :=
  match checkWritten values r with
  | .panic _ => true
  | _ => false

namespace HandlerTasks

/-- The tasks as `install` spawns them. -/
def install (h : TraceabilityHandler TraceabilityContext) : HandlerTasks where
  handler := h
  cancelled := false
  dropped := false
  requestTask := .running
  received := []
  pending := []
  isInitial := true
  current := none
  handled := []
  heartbeatTask := .running
  heartbeatValue := true
  beating := false
  beats := []

inductive Label
  | notify (value : DataValue)
  | next
  | reply (e : Event handlerSignature)
  | finish
  | panic
  | endRequests
  | beat
  | beatReply (r : Except SessionError (List StatusCode))
  | endBeats
  | cancel
  | drop
  | abortRequests
  | abortBeats

/-- The data change callback: a notification is dropped once the channel is closed. -/
def notify (s : HandlerTasks) (value : DataValue) : HandlerTasks :=
  if s.requestTask = .running then
    { s with received := s.received ++ [value], pending := s.pending ++ [value] }
  else s

/-- Begin with the next notification; only the first one is initial. -/
def next (D : DecimalClass) (s : HandlerTasks) (value : DataValue) (rest : List DataValue) :
    HandlerTasks :=
  { s with
    pending := rest
    isInitial := false
    current := some ⟨value, s.isInitial, [], onNotification D s.handler s.isInitial value⟩ }

/-- Go on with the reply to an effect. -/
def reply (s : HandlerTasks) (hd : Handling) (e : HandlerEffect)
    (k : e.Reply → HandlerProg Empty Unit) (r : e.Reply) : HandlerTasks :=
  { s with current := some { hd with trace := hd.trace ++ [⟨e, r⟩], rest := k r } }

/-- The value written is the opposite one at the next tick. -/
def beat (s : HandlerTasks) : HandlerTasks :=
  { s with
    heartbeatValue := !s.heartbeatValue
    beating := true
    beats := s.beats ++ [s.heartbeatValue] }

def beatReply (s : HandlerTasks) (r : Except SessionError (List StatusCode)) : HandlerTasks :=
  { s with
    heartbeatTask := if writePanics [⟨s.handler.state.protocol.heartbeat, .boolean
      (!s.heartbeatValue)⟩] r then .panicked else .running
    beating := false }

variable (D : DecimalClass)

inductive Step : HandlerTasks → Label → HandlerTasks → Prop
  | notify (s : HandlerTasks) (value : DataValue) : Step s (.notify value) (s.notify value)
  -- The stream of notifications ends with the cancellation, at the head of the loop.
  | next (s : HandlerTasks) (value : DataValue) (rest : List DataValue)
      (hrun : s.requestTask = .running) (hidle : s.current = none) (hlive : s.cancelled = false)
      (hpending : s.pending = value :: rest) : Step s .next (s.next D value rest)
  | reply (s : HandlerTasks) (hd : Handling) (e : HandlerEffect)
      (k : e.Reply → HandlerProg Empty Unit) (r : e.Reply) (hrun : s.requestTask = .running)
      (hcurrent : s.current = some hd) (hrest : hd.rest = .call e k) :
      Step s (.reply ⟨e, r⟩) (s.reply hd e k r)
  | finish (s : HandlerTasks) (hd : Handling) (hrun : s.requestTask = .running)
      (hcurrent : s.current = some hd) (hrest : hd.rest = .ret ()) :
      Step s .finish { s with current := none, handled := s.handled ++ [hd] }
  -- The notification being handled is left where it is.
  | panic (s : HandlerTasks) (hd : Handling) (m : String) (hrun : s.requestTask = .running)
      (hcurrent : s.current = some hd) (hrest : hd.rest = .panic m) :
      Step s .panic { s with requestTask := .panicked }
  | endRequests (s : HandlerTasks) (hrun : s.requestTask = .running) (hidle : s.current = none)
      (hcancel : s.cancelled = true) : Step s .endRequests { s with requestTask := .terminated }
  | beat (s : HandlerTasks) (hrun : s.heartbeatTask = .running) (hidle : s.beating = false)
      (hlive : s.cancelled = false) : Step s .beat s.beat
  | beatReply (s : HandlerTasks) (r : Except SessionError (List StatusCode))
      (hrun : s.heartbeatTask = .running) (hbeating : s.beating = true) :
      Step s (.beatReply r) (s.beatReply r)
  | endBeats (s : HandlerTasks) (hrun : s.heartbeatTask = .running) (hidle : s.beating = false)
      (hcancel : s.cancelled = true) : Step s .endBeats { s with heartbeatTask := .terminated }
  | cancel (s : HandlerTasks) : Step s .cancel { s with cancelled := true }
  | drop (s : HandlerTasks) : Step s .drop { s with dropped := true }
  -- A task is aborted some time after the drop of the collection, at any point.
  | abortRequests (s : HandlerTasks) (hdropped : s.dropped = true)
      (hrun : s.requestTask = .running) : Step s .abortRequests { s with requestTask := .aborted }
  | abortBeats (s : HandlerTasks) (hdropped : s.dropped = true)
      (hrun : s.heartbeatTask = .running) : Step s .abortBeats { s with heartbeatTask := .aborted }

/-- Both tasks are over: joining them succeeds. -/
def Joined (s : HandlerTasks) : Prop := s.requestTask ≠ .running ∧ s.heartbeatTask ≠ .running

/-- The notifications whose handling has been begun, in order. -/
def begun (s : HandlerTasks) : List Handling := s.handled ++ s.current.toList

/-! ### The invariant -/

/-- Everything received is handled, being handled or pending, in this order. -/
structure RequestInv (s : HandlerTasks) : Prop where
  received : s.received = s.begun.map Handling.value ++ s.pending
  initial : s.begun.map Handling.isInitial = (List.range s.begun.length).map (· == 0)
  isInitial : s.isInitial = (s.begun.length == 0)
  reached : ∀ hd ∈ s.begun, hd.Reached D s.handler
  handled : ∀ hd ∈ s.handled, hd.rest = .ret ()
  terminated : s.requestTask = .terminated → s.cancelled = true ∧ s.current = none
  panicked : s.requestTask = .panicked → ∃ hd m, s.current = some hd ∧ hd.rest = .panic m
  aborted : s.requestTask = .aborted → s.dropped = true

/-- The heartbeat values alternate, the first one is true. -/
structure HeartbeatInv (s : HandlerTasks) : Prop where
  beats : s.beats = (List.range s.beats.length).map (· % 2 == 0)
  value : s.heartbeatValue = (s.beats.length % 2 == 0)
  terminated : s.heartbeatTask = .terminated → s.cancelled = true ∧ s.beating = false
  aborted : s.heartbeatTask = .aborted → s.dropped = true

section Invariant

variable {D} {h : TraceabilityHandler TraceabilityContext} {s s' : HandlerTasks} {l : Label}
  {ls : List Label}

theorem install_requestInv : RequestInv D (install h) where
  received := rfl
  initial := rfl
  isInitial := rfl
  reached := by simp [begun, install]
  handled := by simp [install]
  terminated := nofun
  panicked := nofun
  aborted := nofun

theorem install_heartbeatInv : HeartbeatInv (install h) where
  beats := rfl
  value := rfl
  terminated := nofun
  aborted := nofun

/-- Flags computed from the positions, with one more. -/
theorem range_flags_succ (n : ℕ) (f : ℕ → Bool) :
    (List.range (n + 1)).map f = (List.range n).map f ++ [f n] := by
  rw [List.range_succ, List.map_append, List.map_singleton]

theorem RequestInv.next (hi : RequestInv D s) {value : DataValue} {rest : List DataValue}
    (hrun : s.requestTask = .running) (hidle : s.current = none)
    (hpending : s.pending = value :: rest) : RequestInv D (s.next D value rest) := by
  have hold : s.begun = s.handled := by simp [begun, hidle]
  obtain ⟨hreceived, hinitial, hfirst, hreached, hhandled, -, -, -⟩ := hi
  rw [hold] at hreceived hinitial hfirst hreached
  constructor
  · simp [begun, HandlerTasks.next, hreceived, hpending]
  · simp [begun, HandlerTasks.next, range_flags_succ, hinitial, hfirst]
  · simp [begun, HandlerTasks.next]
  · intro hd hmem
    rcases List.mem_append.mp hmem with hmem | hmem
    · exact hreached hd hmem
    · cases Option.mem_toList.mp hmem
      exact .start
  · exact hhandled
  · intro hterm
    cases hrun.symm.trans hterm
  · intro hpanic
    cases hrun.symm.trans hpanic
  · intro habort
    cases hrun.symm.trans habort

theorem RequestInv.reply (hi : RequestInv D s) {hd : Handling} {e : HandlerEffect}
    {k : e.Reply → HandlerProg Empty Unit} (r : e.Reply) (hrun : s.requestTask = .running)
    (hcurrent : s.current = some hd) (hrest : hd.rest = .call e k) :
    RequestInv D (s.reply hd e k r) := by
  have hold : s.begun = s.handled ++ [hd] := by simp [begun, hcurrent]
  obtain ⟨hreceived, hinitial, hfirst, hreached, hhandled, -, -, -⟩ := hi
  rw [hold] at hreceived hinitial hfirst hreached
  constructor
  · simpa [begun, HandlerTasks.reply] using hreceived
  · simpa [begun, HandlerTasks.reply] using hinitial
  · simpa [begun, HandlerTasks.reply] using hfirst
  · intro hd' hmem
    rcases List.mem_append.mp hmem with hmem | hmem
    · exact hreached hd' (List.mem_append_left _ hmem)
    · cases Option.mem_toList.mp hmem
      have hafter := hreached hd (List.mem_append_right _ (List.mem_singleton_self hd))
      rw [Handling.Reached, hrest] at hafter
      exact .reply hafter r
  · exact hhandled
  · intro hterm
    cases hrun.symm.trans hterm
  · intro hpanic
    cases hrun.symm.trans hpanic
  · intro habort
    cases hrun.symm.trans habort

theorem RequestInv.finish (hi : RequestInv D s) {hd : Handling} (hrun : s.requestTask = .running)
    (hcurrent : s.current = some hd) (hrest : hd.rest = .ret ()) :
    RequestInv D { s with current := none, handled := s.handled ++ [hd] } := by
  have hold : s.begun = s.handled ++ [hd] := by simp [begun, hcurrent]
  obtain ⟨hreceived, hinitial, hfirst, hreached, hhandled, -, -, -⟩ := hi
  rw [hold] at hreceived hinitial hfirst hreached
  constructor
  · simpa [begun] using hreceived
  · simpa [begun] using hinitial
  · simpa [begun] using hfirst
  · simpa [begun] using hreached
  · intro hd' hmem
    rcases List.mem_append.mp hmem with hmem | hmem
    · exact hhandled hd' hmem
    · rw [List.mem_singleton.mp hmem, hrest]
  · intro hterm
    cases hrun.symm.trans hterm
  · intro hpanic
    cases hrun.symm.trans hpanic
  · intro habort
    cases hrun.symm.trans habort

theorem RequestInv.step (hi : RequestInv D s) (hs : Step D s l s') : RequestInv D s' := by
  cases hs with
  | notify value =>
    unfold HandlerTasks.notify
    split
    · refine ⟨?_, hi.initial, hi.isInitial, hi.reached, hi.handled, hi.terminated, hi.panicked,
        hi.aborted⟩
      show s.received ++ [value] = s.begun.map Handling.value ++ (s.pending ++ [value])
      rw [hi.received, List.append_assoc]
    · exact hi
  | next value rest hrun hidle hlive hpending => exact hi.next hrun hidle hpending
  | reply hd e k r hrun hcurrent hrest => exact hi.reply r hrun hcurrent hrest
  | finish hd hrun hcurrent hrest => exact hi.finish hrun hcurrent hrest
  | panic hd m hrun hcurrent hrest =>
    exact ⟨hi.received, hi.initial, hi.isInitial, hi.reached, hi.handled, nofun,
      fun _ => ⟨hd, m, hcurrent, hrest⟩, nofun⟩
  | endRequests hrun hidle hcancel =>
    exact ⟨hi.received, hi.initial, hi.isInitial, hi.reached, hi.handled,
      fun _ => ⟨hcancel, hidle⟩, nofun, nofun⟩
  | cancel =>
    exact ⟨hi.received, hi.initial, hi.isInitial, hi.reached, hi.handled,
      fun hterm => ⟨rfl, (hi.terminated hterm).2⟩, hi.panicked, hi.aborted⟩
  | drop =>
    exact ⟨hi.received, hi.initial, hi.isInitial, hi.reached, hi.handled, hi.terminated,
      hi.panicked, fun _ => rfl⟩
  | abortRequests hdropped hrun =>
    exact ⟨hi.received, hi.initial, hi.isInitial, hi.reached, hi.handled, nofun, nofun,
      fun _ => hdropped⟩
  | beat | beatReply | endBeats | abortBeats =>
    exact ⟨hi.received, hi.initial, hi.isInitial, hi.reached, hi.handled, hi.terminated,
      hi.panicked, hi.aborted⟩

theorem HeartbeatInv.step (hi : HeartbeatInv s) (hs : Step D s l s') : HeartbeatInv s' := by
  cases hs with
  | beat hrun hidle hlive =>
    obtain ⟨hbeats, hvalue, -, -⟩ := hi
    constructor
    · rw [HandlerTasks.beat, List.length_append, List.length_singleton, range_flags_succ, ← hbeats,
        hvalue]
    · have hparity : (s.beats.length + 1) % 2 = 1 - s.beats.length % 2 := by omega
      rcases Nat.mod_two_eq_zero_or_one s.beats.length with hmod | hmod <;>
        simp [HandlerTasks.beat, hvalue, hparity, hmod]
    · intro hterm
      cases hrun.symm.trans hterm
    · intro habort
      cases hrun.symm.trans habort
  | beatReply r hrun hbeating =>
    refine ⟨hi.beats, hi.value, fun hterm => ?_, fun habort => ?_⟩
    · unfold HandlerTasks.beatReply at hterm
      split at hterm <;> cases hterm
    · unfold HandlerTasks.beatReply at habort
      split at habort <;> cases habort
  | endBeats hrun hidle hcancel => exact ⟨hi.beats, hi.value, fun _ => ⟨hcancel, hidle⟩, nofun⟩
  | cancel =>
    exact ⟨hi.beats, hi.value, fun hterm => ⟨rfl, (hi.terminated hterm).2⟩, hi.aborted⟩
  | drop => exact ⟨hi.beats, hi.value, hi.terminated, fun _ => rfl⟩
  | abortBeats hdropped hrun => exact ⟨hi.beats, hi.value, nofun, fun _ => hdropped⟩
  | notify value =>
    unfold HandlerTasks.notify
    split
    · exact ⟨hi.beats, hi.value, hi.terminated, hi.aborted⟩
    · exact hi
  | next | reply | finish | panic | endRequests | abortRequests =>
    exact ⟨hi.beats, hi.value, hi.terminated, hi.aborted⟩

/-- Nothing is begun by a step of cancelled tasks, and they stay cancelled. -/
theorem Step.of_cancelled (hs : Step D s l s') (hcancel : s.cancelled = true) :
    s'.cancelled = true ∧ s'.begun.length = s.begun.length ∧ s'.beats = s.beats := by
  cases hs with
  | notify value =>
    unfold HandlerTasks.notify
    split
    · exact ⟨hcancel, rfl, rfl⟩
    · exact ⟨hcancel, rfl, rfl⟩
  | next value rest hrun hidle hlive hpending => cases hlive.symm.trans hcancel
  | beat hrun hidle hlive => cases hlive.symm.trans hcancel
  | reply hd e k r hrun hcurrent hrest =>
    exact ⟨hcancel, by simp [begun, HandlerTasks.reply, hcurrent], rfl⟩
  | finish hd hrun hcurrent hrest => exact ⟨hcancel, by simp [begun, hcurrent], rfl⟩
  | cancel => exact ⟨rfl, rfl, rfl⟩
  | _ => exact ⟨hcancel, rfl, rfl⟩

/-- A task that is over stays as it is; joined tasks take no step that counts. -/
theorem Step.of_joined (hs : Step D s l s') (hj : s.Joined) :
    s'.Joined ∧ s'.requestTask = s.requestTask ∧ s'.heartbeatTask = s.heartbeatTask ∧
      s'.current = s.current ∧ s'.handled = s.handled := by
  cases hs with
  | notify value =>
    unfold HandlerTasks.notify
    rw [if_neg hj.1]
    exact ⟨hj, rfl, rfl, rfl, rfl⟩
  | next value rest hrun | reply hd e k r hrun | finish hd hrun | panic hd m hrun
  | endRequests hrun | abortRequests hdropped hrun => exact absurd hrun hj.1
  | beat hrun | beatReply r hrun | endBeats hrun | abortBeats hdropped hrun =>
    exact absurd hrun hj.2
  | cancel => exact ⟨hj, rfl, rfl, rfl, rfl⟩
  | drop => exact ⟨hj, rfl, rfl, rfl, rfl⟩

theorem Step.handler_eq (hs : Step D s l s') : s'.handler = s.handler := by
  cases hs with
  | notify value =>
    unfold HandlerTasks.notify
    split <;> rfl
  | _ => rfl

/-- Only the drop of the collection drops it. -/
theorem Step.dropped_eq (hs : Step D s l s') (hl : l ≠ .drop) : s'.dropped = s.dropped := by
  cases hs with
  | notify value =>
    unfold HandlerTasks.notify
    split <;> rfl
  | drop => exact absurd rfl hl
  | _ => rfl

theorem run_handler_eq (hr : Run (Step D) s ls s') : s'.handler = s.handler := by
  induction hr with
  | nil => rfl
  | cons head _ ih => exact ih.trans head.handler_eq

theorem run_inv (hr : Run (Step D) (install h) ls s) : RequestInv D s ∧ HeartbeatInv s :=
  hr.invariant (I := fun s => RequestInv D s ∧ HeartbeatInv s)
    (fun _ _ _ hi hs => ⟨hi.1.step hs, hi.2.step hs⟩) ⟨install_requestInv, install_heartbeatInv⟩

theorem run_of_cancelled (hr : Run (Step D) s ls s') (hcancel : s.cancelled = true) :
    s'.cancelled = true ∧ s'.begun.length = s.begun.length ∧ s'.beats = s.beats := by
  induction hr with
  | nil => exact ⟨hcancel, rfl, rfl⟩
  | cons head _ ih =>
    obtain ⟨hc, hbegun, hbeats⟩ := head.of_cancelled hcancel
    obtain ⟨hc', hbegun', hbeats'⟩ := ih hc
    exact ⟨hc', hbegun'.trans hbegun, hbeats'.trans hbeats⟩

end Invariant

/-! ### What becomes of the notifications -/

/-- The request task is over, and has abandoned nothing: it was asked to end between two
notifications, or has panicked on the last one. -/
def Completed (D : DecimalClass) (h : TraceabilityHandler TraceabilityContext)
    (s : HandlerTasks) : Prop :=
  s.requestTask = .terminated ∧ s.begun = s.handled ∨
    s.requestTask = .panicked ∧ ∃ hd m, s.begun = s.handled ++ [hd] ∧
      hd.Ended D h (.panicked m)

theorem RequestInv.ended {D : DecimalClass} {s : HandlerTasks} (hi : RequestInv D s)
    {hd : Handling} (hmem : hd ∈ s.handled) : hd.Ended D s.handler (.returned ()) := by
  have hreached := hi.reached hd (List.mem_append_left _ hmem)
  rw [Handling.Reached, hi.handled hd hmem] at hreached
  exact hreached.returned

/-- Tasks that are joined without having been dropped are complete. -/
theorem RequestInv.completed {D : DecimalClass} {s : HandlerTasks} (hi : RequestInv D s)
    (hj : s.Joined) (hdropped : s.dropped = false) : s.Completed D s.handler := by
  cases htask : s.requestTask with
  | running => exact absurd htask hj.1
  | terminated =>
    left
    exact ⟨htask, by simp [begun, (hi.terminated htask).2]⟩
  | panicked =>
    right
    obtain ⟨hd, m, hcurrent, hrest⟩ := hi.panicked htask
    have hbegun : s.begun = s.handled ++ [hd] := by simp [begun, hcurrent]
    have hreached := hi.reached hd (hbegun ▸ List.mem_append_right _ (List.mem_singleton_self hd))
    rw [Handling.Reached, hrest] at hreached
    exact ⟨htask, hd, m, hbegun, hreached.panicked⟩
  | aborted => cases hdropped.symm.trans (hi.aborted htask)

/-- Notifications are handled one at a time in the order received, the first one as initial;
none is skipped, none is begun once the tasks are cancelled, and none that was begun is
abandoned unless the tasks are dropped. Heartbeat values alternate from true. -/
theorem handled_in_order {D : DecimalClass} {h : TraceabilityHandler TraceabilityContext}
    {s : HandlerTasks} {ls : List Label} (hr : Run (Step D) (install h) ls s) :
    s.received = s.begun.map Handling.value ++ s.pending ∧
      s.begun.map Handling.isInitial = (List.range s.begun.length).map (· == 0) ∧
      (∀ hd ∈ s.handled, hd.Ended D h (.returned ())) ∧
      (s.Joined → s.dropped = false → s.Completed D h) ∧
      (∀ ls' s', s.cancelled = true → Run (Step D) s ls' s' →
        s'.begun.length = s.begun.length ∧ s'.beats = s.beats) ∧
      s.beats = (List.range s.beats.length).map (· % 2 == 0) := by
  obtain ⟨hi, hb⟩ := run_inv hr
  have hhandler : s.handler = h := run_handler_eq hr
  refine ⟨hi.received, hi.initial, ?_, ?_, ?_, hb.beats⟩
  · intro hd hmem
    exact hhandler ▸ hi.ended hmem
  · intro hj hdropped
    exact hhandler ▸ hi.completed hj hdropped
  · intro ls' s' hcancel hr'
    exact (run_of_cancelled hr' hcancel).2

/-- A reset notified at the subscription, a request for which there is no time left, and
two heartbeats; then the tasks are cancelled and joined. -/
def sampleLabels : List Label :=
  [.beat, .beatReply (.ok [.good]), .notify ⟨some (.byte 0), none⟩, .next,
    .notify ⟨some (.byte 1), none⟩, .beat, .cancel, .reply ⟨.write [⟨.new 1 2, .byte 0⟩], .ok [.good]⟩,
    .finish, .endRequests, .beatReply (.ok [.good]), .endBeats]

theorem sampleLabels_run : ∃ s, Run (Step asciiDecimal) (install Creations.sampleHandler)
    sampleLabels s ∧ s.Joined ∧ s.cancelled = true ∧ s.dropped = false ∧ s.handled.length = 1 ∧
      s.pending.length = 1 ∧ s.beats = [true, false] :=
  ⟨_, .cons (.beat _ rfl rfl rfl) <| .cons (.beatReply _ _ rfl rfl) <| .cons (.notify _ _) <|
    .cons (.next _ _ _ rfl rfl rfl rfl) <| .cons (.notify _ _) <| .cons (.beat _ rfl rfl rfl) <|
    .cons (.cancel _) <| .cons (.reply _ _ _ _ _ rfl rfl rfl) <| .cons (.finish _ _ rfl rfl rfl) <|
    .cons (.endRequests _ rfl rfl rfl) <| .cons (.beatReply _ _ rfl rfl) <|
    .cons (.endBeats _ rfl rfl rfl) <| .nil _, ⟨nofun, nofun⟩, rfl, rfl, rfl, rfl, rfl⟩

theorem handled_in_order_cancelled : ∃ s, Run (Step asciiDecimal)
    (install Creations.sampleHandler) sampleLabels s ∧ s.handled.length = 1 ∧
      s.pending.length = 1 ∧ s.Completed asciiDecimal Creations.sampleHandler := by
  obtain ⟨s, hr, hj, -, hdropped, hhandled, hpending, -⟩ := sampleLabels_run
  obtain ⟨-, -, -, hcompleted, -⟩ := handled_in_order hr
  exact ⟨s, hr, hhandled, hpending, hcompleted hj hdropped⟩

end HandlerTasks

end LineGateway.Traceability

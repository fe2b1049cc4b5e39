import LineGateway.Opcua.SessionManager
import LineGateway.Traceability.Archive
import LineGateway.Traceability.HandlerTasks

/-! The gateway as a system: the main function, the draining task with the channel of its
first status, the manager of the sessions and its attempts, the tasks of the sessions
registered, and the persisted store they share with the database. Every component takes its
steps at any time; the effects of the requests are performed on the store that the draining
task reads. A process ends when its main function has returned, or is killed anywhere; the
next one starts on the persisted store. -/

namespace LineGateway

open Foundation Config Opcua Traceability

/-- Where the main function is. -/
inductive MainPhase
  | opening
  | awaitingFirstDrain
  | managing
  | joining
  | returned (ok : Bool)
  deriving DecidableEq

/-- The channel that reports the first run of the draining task. -/
inductive FirstDrainStatus
  | pending
  | sent (successful : Bool)
  | closed
  deriving DecidableEq

/-- The channel after its sender is gone. -/
def FirstDrainStatus.close : FirstDrainStatus → FirstDrainStatus
  | .pending => .closed
  | status => status

/-- Where the draining task is. -/
inductive DrainTask
  | unstarted
  | waiting
  | draining
  | terminated
  | panicked
  deriving DecidableEq

/-- A process with the store and the database. Sessions are numbered as in the manager. -/
structure Gateway where
  archive : Archive
  main : MainPhase
  task : DrainTask
  status : FirstDrainStatus
  manager : SessionsManager
  sessions : List HandlerTasks

namespace Gateway

/-- A new process. -/
def boot (a : Archive) : Gateway := ⟨a, .opening, .unstarted, .pending, .initial, []⟩

def initial : Gateway := boot .initial

inductive Label (V : VariantCodec)
  | openCache
  | openCacheFails
  | drainTick
  | drain (q : QueueTable) (i : DrainInput)
  | endDrain
  | endDrainTask
  | receiveStatus (clientCreated : Bool)
  | receiveClosed
  | manage (l : SessionsManager.Label)
  | register (n : ℕ) (h : TraceabilityHandler TraceabilityContext)
  | cancel
  | notify (n : ℕ) (value : DataValue)
  | task (n : ℕ) (l : HandlerTasks.Label)
  | perform (n : ℕ) (e : HandlerEffect) (i : HandlerInput V e)
  | leaveManager
  | join
  | exit (applied : QueueTable → Bool)
  | kill (applied : QueueTable → Bool)

/-- The labels of the manager that concern the registry and the attempts only. -/
def ManagerOnly : SessionsManager.Label → Prop
  | .spawn | .endTick | .take | .finish | .fail _ | .die _ | .shutdown => True
  | _ => False

/-- The loop of the manager runs in the main function; attempts, event loops and the shutdown
do not. -/
def InManager : SessionsManager.Label → Prop
  | .spawn | .endTick | .take | .finish => True
  | _ => False

/-- The labels of the tasks of a session that concern no other component. -/
def TaskOnly : HandlerTasks.Label → Prop
  | .next | .finish | .panic | .endRequests | .beat | .beatReply _ | .endBeats
  | .abortRequests | .abortBeats => True
  | _ => False

/-! ### The steps -/

/-- The rows that an effect of a request commits to a queue. -/
def committedRows {V : VariantCodec} (F : RowFormat) (store : Store) :
    (e : HandlerEffect) → HandlerInput V e → QueueTable → List Text
  | .savePartSheets machineId partId general operation, .ok (faults, context, now) =>
    SaveCall.committedRows ⟨machineId, partId, general, operation, context, now⟩ F faults store
  | _, _ => fun _ => []

section Serve

variable {V : VariantCodec} (F : RowFormat) (queuesThreshold : ℕ) (a : Archive) (e : HandlerEffect)
  (i : HandlerInput V e)

/-- Perform an effect of a request on the store. -/
def serve : Archive :=
  { a with
    store := (performHandler V F queuesThreshold e i ⟨a.store, []⟩).2.store
    saved := fun q => a.saved q ++ committedRows F a.store e i q }

def replyTo : e.Reply := (performHandler V F queuesThreshold e i ⟨a.store, []⟩).1

end Serve

/-- The status of a run: both drains have returned without an error. -/
def drained : DrainProg → Bool
  | .ret _ => true
  | _ => false

/-- The end of a run. The first one is reported; sending its status panics when nobody
waits for it. -/
def endDrain (g : Gateway) : Gateway :=
  match g.status with
  | .pending =>
    if g.main = .awaitingFirstDrain then
      { g with
        task := .waiting
        status := .sent (drained (g.archive.drain .general) && drained (g.archive.drain .operation)) }
    else { g with task := .panicked }
  | _ => { g with task := .waiting }

/-- What the main function goes on with at the status of the first run. -/
def afterFirstDrain (successful clientCreated : Bool) : MainPhase :=
  if successful && clientCreated then .managing else .returned false

/-- Drop the sessions with these numbers, and their tasks. -/
def dropSessions (sessions : List HandlerTasks) (numbers : List ℕ) : List HandlerTasks :=
  sessions.mapIdx fun n s => if n ∈ numbers then { s with dropped := true } else s

/-- The process is over: what has been persisted remains. -/
def finish (g : Gateway) (applied : QueueTable → Bool) : Gateway := boot (g.archive.crash applied)

variable {V : VariantCodec} (D : DecimalClass) (db : TraceabilityDatabase) (F : RowFormat)
  (queuesThreshold : ℕ) (servers : List Text)

inductive Step : Gateway → Label V → Gateway → Prop
  -- The cache is opened, and the draining task is spawned.
  | openCache (g : Gateway) (hmain : g.main = .opening) :
      Step g .openCache { g with main := .awaitingFirstDrain, task := .waiting }
  | openCacheFails (g : Gateway) (hmain : g.main = .opening) :
      Step g .openCacheFails { g with main := .returned false }
  -- The stream of ticks ends with the shutdown, at the head of the loop.
  | drainTick (g : Gateway) (htask : g.task = .waiting) (hrun : g.manager.shutdown = false) :
      Step g .drainTick { g with task := .draining, archive := g.archive.tick db }
  | drain (g : Gateway) (q : QueueTable) (i : DrainInput) (e : DrainEffect)
      (k : e.Reply → DrainProg) (htask : g.task = .draining) (hcall : g.archive.drain q = .call e k) :
      Step g (.drain q i) { g with archive := g.archive.step q i e k }
  | endDrain (g : Gateway) (htask : g.task = .draining) (hend : ∀ q, Finished (g.archive.drain q)) :
      Step g .endDrain g.endDrain
  | endDrainTask (g : Gateway) (htask : g.task = .waiting) (hshutdown : g.manager.shutdown = true) :
      Step g .endDrainTask { g with task := .terminated, status := g.status.close }
  | receiveStatus (g : Gateway) (successful clientCreated : Bool)
      (hmain : g.main = .awaitingFirstDrain) (hstatus : g.status = .sent successful) :
      Step g (.receiveStatus clientCreated)
        { g with main := afterFirstDrain successful clientCreated }
  | receiveClosed (g : Gateway) (hmain : g.main = .awaitingFirstDrain) (hstatus : g.status = .closed) :
      Step g .receiveClosed { g with main := .returned false }
  -- The tasks of the dead sessions are dropped with them.
  | managerTick (g : Gateway) (m : SessionsManager) (hmain : g.main = .managing)
      (hs : SessionsManager.Step servers g.manager .tick m) :
      Step g (.manage .tick)
        { g with
          manager := m
          sessions := dropSessions g.sessions
            (g.manager.registry.values.filter g.manager.isFinished) }
  | manage (g : Gateway) (l : SessionsManager.Label) (m : SessionsManager) (hl : ManagerOnly l)
      (hmain : InManager l → g.main = .managing) (hs : SessionsManager.Step servers g.manager l m) :
      Step g (.manage l) { g with manager := m }
  -- The session that another one replaces in the registry is dropped, dead or not.
  | register (g : Gateway) (n : ℕ) (h : TraceabilityHandler TraceabilityContext)
      (hn : g.manager.attempts[n]? = some h.serverId) :
      Step g (.register n h)
        { g with
          manager := g.manager.register n h.serverId
          sessions := dropSessions g.sessions (g.manager.registry.get h.serverId).toList ++
            [HandlerTasks.install h] }
  -- Stopping a session: its tasks are cancelled, joined, then the session is disconnected.
  | cancel (g : Gateway) (n : ℕ) (rest : List ℕ) (s : HandlerTasks) (hmain : g.main = .managing)
      (hphase : g.manager.phase = .stopping (n :: rest)) (hs : g.sessions[n]? = some s) :
      Step g .cancel { g with sessions := g.sessions.set n { s with cancelled := true } }
  | stop (g : Gateway) (n : ℕ) (rest : List ℕ) (s : HandlerTasks) (m : SessionsManager)
      (hmain : g.main = .managing) (hphase : g.manager.phase = .stopping (n :: rest))
      (hs : g.sessions[n]? = some s) (hcancel : s.cancelled = true) (hj : s.Joined)
      (hstop : SessionsManager.Step servers g.manager .stop m) :
      Step g (.manage .stop) { g with manager := m }
  -- Notifications come as long as the event loop of the session runs.
  | notify (g : Gateway) (n : ℕ) (value : DataValue) (s : HandlerTasks)
      (hs : g.sessions[n]? = some s) (hlive : g.manager.isFinished n = false) :
      Step g (.notify n value) { g with sessions := g.sessions.set n (s.notify value) }
  | task (g : Gateway) (n : ℕ) (l : HandlerTasks.Label) (s s' : HandlerTasks) (hl : TaskOnly l)
      (hs : g.sessions[n]? = some s) (hstep : HandlerTasks.Step D s l s') :
      Step g (.task n l) { g with sessions := g.sessions.set n s' }
  -- A blocking task that outlives its request is one that has not been aborted yet.
  | perform (g : Gateway) (n : ℕ) (s : HandlerTasks) (hd : Handling) (e : HandlerEffect)
      (k : e.Reply → HandlerProg Empty Unit) (i : HandlerInput V e) (hs : g.sessions[n]? = some s)
      (hrun : s.requestTask = .running) (hcurrent : s.current = some hd) (hrest : hd.rest = .call e k) :
      Step g (.perform n e i)
        { g with
          archive := serve F queuesThreshold g.archive e i
          sessions := g.sessions.set n
            (s.reply hd e k (replyTo F queuesThreshold g.archive e i)) }
  | leaveManager (g : Gateway) (hmain : g.main = .managing) (hret : g.manager.phase = .returned) :
      Step g .leaveManager { g with main := .joining }
  -- Joining a task that has panicked is an error.
  | join (g : Gateway) (hmain : g.main = .joining) (htask : g.task = .terminated ∨ g.task = .panicked) :
      Step g .join { g with main := .returned (g.task = .terminated) }
  | exit (g : Gateway) (ok : Bool) (applied : QueueTable → Bool) (hmain : g.main = .returned ok) :
      Step g (.exit applied) (g.finish applied)
  | kill (g : Gateway) (applied : QueueTable → Bool) : Step g (.kill applied) (g.finish applied)

/-- The label ends the process. -/
def Label.Ends : Label V → Prop
  | .exit _ | .kill _ => True
  | _ => False

end Gateway

end LineGateway

import LineGateway.Foundation.Guarantee
import LineGateway.Traceability.SaveRequest

/-! The start of a session: connecting to the server of a machine, initialising its handler,
and installing it, down to the tasks of the session. An attempt may be given up wherever it
waits. Proved: it is all or nothing. Either the session is registered with a handler that
has been initialised, a subscription at the interval asked for and both tasks, or nothing is
registered, no task is spawned, and the event loop is still bound to the attempt. -/

namespace LineGateway

open Foundation Config Opcua Traceability

/-! ### Configuration -/

inductive SecurityPolicy
  | none
  | aes128Sha256RsaOaep
  | basic256Sha256
  | aes256Sha256RsaPss
  | basic128Rsa15
  | basic256
  deriving DecidableEq

inductive MessageSecurityMode
  | none
  | sign
  | signAndEncrypt
  deriving DecidableEq

/-- Connected OPC-UA server configuration. -/
structure OpcUaServerConfig where
  url : Text
  securityPolicy : SecurityPolicy
  securityMode : MessageSecurityMode

/-- Connected machine configuration. -/
structure MachineConfig where
  opcUaServer : OpcUaServerConfig
  traceability : TraceabilityMachineConfig

/-- A credential, i.e. username and password. -/
structure Credential where
  user : Text
  password : Text

/-- Represents the configuration required for starting a session. -/
structure SessionStartConfig where
  serverId : Text
  machineConfig : MachineConfig
  credential : Option Credential
  traceabilityOpcUa : TraceabilityCommonOpcUaConfig

/-- The handler to be initialised. -/
def SessionStartConfig.handler (config : SessionStartConfig) : TraceabilityHandler Unit :=
  ⟨config.serverId, config.traceabilityOpcUa, config.machineConfig.traceability, ()⟩

/-! ### Effects -/

structure EndpointDescription where
  endpointUrl : Text
  securityPolicy : SecurityPolicy
  securityMode : MessageSecurityMode
  deriving DecidableEq

inductive IdentityToken
  | anonymous
  | userName (user password : Text)

/-- An item created in a subscription: the node to monitor and the status. -/
structure CreatedItem where
  node : NodeId
  status : StatusCode

/-- What the start of a session asks of the client, of the session and of the runtime. -/
inductive SessionEffect
  | getServerEndpointsFromUrl (url : Text)
  | connectToMatchingEndpoint (endpoints : List EndpointDescription) (endpoint : EndpointDescription)
      (userIdentityToken : IdentityToken)
  | build
  | disableReconnects
  | spawnEventLoop
  | waitForConnection
  | handler (e : HandlerEffect)
  | createSubscription (publishingInterval : ℕ)
  | publishingInterval (subscription : ℕ)
  | deleteSubscription (subscription : ℕ)
  | createMonitoredItems (subscription : ℕ) (node : NodeId)
  | spawnHeartbeat (node : NodeId)
  | spawnRequests (h : TraceabilityHandler TraceabilityContext)
  | detachEventLoop
  | insert (serverId : Text)

abbrev SessionEffect.Reply : SessionEffect → Type
  | .getServerEndpointsFromUrl _ => Except SessionError (List EndpointDescription)
  | .connectToMatchingEndpoint .. => Except SessionError Unit
  | .build => Except SessionError Unit
  | .waitForConnection => Bool
  | .handler e => e.Reply
  | .createSubscription _ => Except SessionError ℕ
  | .publishingInterval _ => Option ℕ
  | .deleteSubscription _ => Except SessionError Unit
  | .createMonitoredItems .. => Except SessionError (List CreatedItem)
  | _ => Unit

abbrev sessionSignature : Signature := ⟨SessionEffect, SessionEffect.Reply⟩

abbrev SessionProg := Prog sessionSignature

def sessionCall {ε : Type} (e : SessionEffect) : SessionProg ε e.Reply :=
  Prog.perform (S := sessionSignature) e

/-- The attempt waits for the reply, and can be given up before it comes. -/
def SessionEffect.Awaits : SessionEffect → Prop
  | .getServerEndpointsFromUrl _ | .waitForConnection | .handler _ | .createSubscription _
  | .deleteSubscription _ | .createMonitoredItems .. => True
  | _ => False

/-- The handler works on the session of the attempt. -/
def handlerEmbedding : handlerSignature.Embedding sessionSignature where
  effect := .handler
  reply _ := Equiv.refl _

/-! ### The program -/

/-- Errors that can be encountered during traceability handler installation. -/
inductive TraceabilityInstallError
  | createSubscription (e : SessionError)
  | publishIntervalRaised (requested got : ℕ)
  | createMonitoredItems (e : SessionError)
  | monitoredItem (node : NodeId) (status : StatusCode)

/-- Errors that can occur during session creation. -/
inductive CreateSessionError
  | getServerEndpoints (e : SessionError)
  | addEndpointToSessionBuilder (e : SessionError)
  | sessionBuild (e : SessionError)
  | sessionConnect
  | traceabilityInitialize (e : TraceabilityInitializeError)
  | traceabilityInstall (e : TraceabilityInstallError)

section Program

variable (F : RowFormat) (config : SessionStartConfig)

def connectToMatchingEndpoint (endpoint : EndpointDescription) (userIdentityToken : IdentityToken) :
    SessionProg CreateSessionError Unit := do
  let endpoints ← Prog.attempt .getServerEndpoints
    (← sessionCall (.getServerEndpointsFromUrl endpoint.endpointUrl))
  Prog.attempt .addEndpointToSessionBuilder
    (← sessionCall (.connectToMatchingEndpoint endpoints endpoint userIdentityToken))
  Prog.attempt .sessionBuild (← sessionCall .build)

/-- Spawn the tasks of the handler, unless an item monitored is not healthy. -/
def spawnTasks (h : TraceabilityHandler TraceabilityContext) (created : List CreatedItem) :
    SessionProg TraceabilityInstallError Unit :=
  match created.find? fun item => !item.status.isGood with
  | some failedItem => Prog.fail (.monitoredItem failedItem.node failedItem.status)
  | none => do
    sessionCall (.spawnHeartbeat h.state.protocol.heartbeat)
    sessionCall (.spawnRequests h)

/-- Monitor the request variable, unless the server has raised the publishing interval. -/
def monitorRequest (h : TraceabilityHandler TraceabilityContext)
    (subscription revisedPublishingInterval : ℕ) : SessionProg TraceabilityInstallError Unit :=
  if h.machineConfig.publishInterval < revisedPublishingInterval then do
    let _ ← sessionCall (.deleteSubscription subscription)
    Prog.fail (.publishIntervalRaised h.machineConfig.publishInterval revisedPublishingInterval)
  else do
    let created ← Prog.attempt .createMonitoredItems
      (← sessionCall (.createMonitoredItems subscription h.state.protocol.request))
    spawnTasks h created

/-- Install the handler to allow it to handle requests. -/
def install (h : TraceabilityHandler TraceabilityContext) :
    SessionProg TraceabilityInstallError Unit := do
  let subscription ← Prog.attempt .createSubscription
    (← sessionCall (.createSubscription h.machineConfig.publishInterval))
  let revised ← Prog.expect "getting successfully created subscription should not fail"
    (← sessionCall (.publishingInterval subscription))
  monitorRequest h subscription revised

def userIdentityToken : Option Credential → IdentityToken
  | none => .anonymous
  | some cred => .userName cred.user cred.password

/-- Initialize and install the handler on the connected session, and register the session. -/
def startHandler : SessionProg CreateSessionError Unit := do
  let h ← ((traceabilityInitialize F config.handler).embed handlerEmbedding).mapErr
    .traceabilityInitialize
  (install h).mapErr .traceabilityInstall
  sessionCall .detachEventLoop
  sessionCall (.insert config.serverId)

/-- Create and start an OPC-UA session, spawning its runtime event loop. -/
def startSession : SessionProg CreateSessionError Unit := do
  let server := config.machineConfig.opcUaServer
  connectToMatchingEndpoint ⟨server.url, server.securityPolicy, server.securityMode⟩
    (userIdentityToken config.credential)
  sessionCall .disableReconnects
  sessionCall .spawnEventLoop
  if !(← sessionCall .waitForConnection) then Prog.fail .sessionConnect
  else startHandler F config

end Program

/-! ### How far an attempt has come -/

/-- A subscription in which the request variable is monitored. -/
structure Subscription where
  id : ℕ
  publishingInterval : ℕ
  request : NodeId
  created : List CreatedItem

/-- What the effect brings about remains when the attempt goes on; but for the event loop,
it remains when the attempt is over. -/
def SessionEffect.Lasting : SessionEffect → Bool
  | .spawnEventLoop | .spawnHeartbeat _ | .spawnRequests _ | .detachEventLoop | .insert _ => true
  | _ => false

/-- The lasting effects of a trace, in order. -/
def lastingEffects (t : List (Event sessionSignature)) : List SessionEffect :=
  (t.filter fun e => e.1.Lasting).map Sigma.fst

/-- What an attempt has brought about. From `running` on, both tasks are spawned. A lasting
effect out of its place leads to `misplaced`, and so does any effect after the registration. -/
inductive StartPhase
  | connecting
  | connected
  | subscribed (id : ℕ)
  | checked (id publishingInterval : ℕ)
  | monitoring (s : Subscription)
  | beating (s : Subscription) (heartbeat : NodeId)
  | running (s : Subscription) (heartbeat : NodeId) (h : TraceabilityHandler TraceabilityContext)
  | detached (s : Subscription) (heartbeat : NodeId) (h : TraceabilityHandler TraceabilityContext)
  | registered (s : Subscription) (heartbeat : NodeId) (h : TraceabilityHandler TraceabilityContext)
  | misplaced

namespace StartPhase

/-- Nothing but the event loop has been spawned, and nothing is registered. -/
def Idle : StartPhase → Prop
  | .connecting | .connected | .subscribed _ | .checked .. => True
  | _ => False

def next : StartPhase → (e : SessionEffect) → e.Reply → StartPhase
  | .connecting, .spawnEventLoop, _ => .connected
  | .connected, .createSubscription _, .ok id => .subscribed id
  | .subscribed id, .publishingInterval _, some revised => .checked id revised
  | .checked id revised, .createMonitoredItems _ node, .ok created =>
    if created.all fun item => item.status.isGood then .monitoring ⟨id, revised, node, created⟩
    else .checked id revised
  | .monitoring s, .spawnHeartbeat node, _ => .beating s node
  | .beating s heartbeat, .spawnRequests h, _ => .running s heartbeat h
  | .running s heartbeat h, .detachEventLoop, _ => .detached s heartbeat h
  | .detached s heartbeat h, .insert id, _ =>
    if id = h.serverId then .registered s heartbeat h else .misplaced
  | .registered .., _, _ => .misplaced
  | m, e, _ => if e.Lasting then .misplaced else m

def Registered : StartPhase → Prop
  | .registered .. => True
  | _ => False

/-- The lasting effects that lead to the phase. -/
def lasting : StartPhase → List SessionEffect
  | .connecting | .misplaced => []
  | .connected | .subscribed _ | .checked .. | .monitoring _ => [.spawnEventLoop]
  | .beating _ heartbeat => [.spawnEventLoop, .spawnHeartbeat heartbeat]
  | .running _ heartbeat h => [.spawnEventLoop, .spawnHeartbeat heartbeat, .spawnRequests h]
  | .detached _ heartbeat h =>
    [.spawnEventLoop, .spawnHeartbeat heartbeat, .spawnRequests h, .detachEventLoop]
  | .registered _ heartbeat h => [.spawnEventLoop, .spawnHeartbeat heartbeat, .spawnRequests h,
      .detachEventLoop, .insert h.serverId]

section Steps

variable {m : StartPhase} {e : SessionEffect} {r : e.Reply}

/-- Only the insertion, in its place, registers a session. -/
theorem next_registered {s : Subscription} {heartbeat : NodeId}
    {h : TraceabilityHandler TraceabilityContext} (hnext : m.next e r = .registered s heartbeat h) :
    m = .detached s heartbeat h ∧ e = .insert h.serverId := by
  unfold next at hnext
  split at hnext
  case h_4 => split_ifs at hnext
  case h_8 =>
    split_ifs at hnext with hid
    cases hnext
    exact ⟨rfl, congrArg _ hid⟩
  case h_10 hregistered _ _ _ _ _ _ _ _ =>
    split_ifs at hnext
    exact absurd hnext (hregistered _ _ _)
  all_goals cases hnext

theorem not_registered_next (he : ∀ id, e ≠ .insert id) : ¬ (m.next e r).Registered := by
  intro hregistered
  cases hnext : m.next e r with
  | registered s heartbeat h => exact he _ (next_registered hnext).2
  | _ => rw [hnext] at hregistered; exact hregistered

/-- An effect adds itself to the lasting ones, if it is one. -/
theorem lasting_next (hnext : m.next e r ≠ .misplaced) :
    (m.next e r).lasting = m.lasting ++ [e].filter SessionEffect.Lasting := by
  unfold next at hnext ⊢
  split at hnext
  case h_4 => split_ifs <;> rfl
  case h_8 =>
    split_ifs at hnext ⊢ with hid
    · rw [hid]
      rfl
    · exact absurd rfl hnext
  case h_9 => exact absurd rfl hnext
  case h_10 =>
    split_ifs at hnext ⊢ with hlasting
    · exact absurd rfl hnext
    · simp [hlasting]
  all_goals rfl

theorem next_misplaced : next .misplaced e r = .misplaced := by simp [next]

end Steps

/-- The phase after a trace. -/
def after (m : StartPhase) (t : List (Event sessionSignature)) : StartPhase :=
  t.foldl (fun m e => m.next e.1 e.2) m

theorem after_misplaced (t : List (Event sessionSignature)) : after .misplaced t = .misplaced := by
  induction t with
  | nil => rfl
  | cons e t ih => exact (congrArg (after · t) next_misplaced).trans ih

/-- The lasting effects of a trace in which all are in their place can be read off its phase. -/
theorem lasting_after {m : StartPhase} {t : List (Event sessionSignature)}
    (hafter : m.after t ≠ .misplaced) : (m.after t).lasting = m.lasting ++ lastingEffects t := by
  induction t generalizing m with
  | nil => exact (List.append_nil _).symm
  | cons e t ih =>
    have hnext : m.next e.1 e.2 ≠ .misplaced := by
      intro hmis
      exact hafter ((congrArg (after · t) hmis).trans (after_misplaced t))
    have hcons : lastingEffects (e :: t) =
        [e.1].filter SessionEffect.Lasting ++ lastingEffects t := by
      unfold lastingEffects
      cases hlasting : e.1.Lasting <;> simp [hlasting]
    rw [hcons, ← List.append_assoc, ← lasting_next hnext]
    exact ih hafter

end StartPhase

section Phases

variable (F : RowFormat) (config : SessionStartConfig)

/-- The handler is what its initialisation has returned. -/
def SessionStartConfig.Initializes (h : TraceabilityHandler TraceabilityContext) : Prop :=
  ∃ t, Yields (traceabilityInitialize F config.handler) t (.returned h)

/-- The session of the handler is in order: its request variable is monitored, every item
created is good, and the interval is not above the one asked for. -/
structure SessionStartConfig.InOrder (s : Subscription) (heartbeat : NodeId)
    (h : TraceabilityHandler TraceabilityContext) : Prop where
  initialized : config.Initializes F h
  interval : s.publishingInterval ≤ config.machineConfig.traceability.publishInterval
  request : s.request = h.state.protocol.request
  heartbeat : heartbeat = h.state.protocol.heartbeat
  created : ∀ item ∈ s.created, item.status.isGood

theorem SessionStartConfig.Initializes.machineConfig {F : RowFormat} {config : SessionStartConfig}
    {h : TraceabilityHandler TraceabilityContext} (hinit : config.Initializes F h) :
    h.machineConfig = config.machineConfig.traceability := by
  obtain ⟨t, hy⟩ := hinit
  obtain ⟨state, rfl⟩ := (traceabilityInitialize_returned hy).1
  rfl

/-- The handler is that of the machine. -/
theorem SessionStartConfig.InOrder.serverId {F : RowFormat} {config : SessionStartConfig}
    {s : Subscription} {heartbeat : NodeId} {h : TraceabilityHandler TraceabilityContext}
    (horder : config.InOrder F s heartbeat h) : h.serverId = config.serverId := by
  obtain ⟨t, hy⟩ := horder.initialized
  obtain ⟨state, rfl⟩ := (traceabilityInitialize_returned hy).1
  rfl

/-- Where each effect has its place. -/
def startProtocol : Protocol sessionSignature StartPhase where
  allowed
    | m, .getServerEndpointsFromUrl _ | m, .connectToMatchingEndpoint .. | m, .build
    | m, .disableReconnects | m, .spawnEventLoop => m = .connecting
    | m, .waitForConnection | m, .handler _ => m = .connected
    | m, .createSubscription i =>
      m = .connected ∧ i = config.machineConfig.traceability.publishInterval
    | m, .publishingInterval id => m = .subscribed id
    | m, .deleteSubscription id =>
      ∃ revised, m = .checked id revised ∧
        config.machineConfig.traceability.publishInterval < revised
    | m, .createMonitoredItems id _ =>
      ∃ revised, m = .checked id revised ∧
        revised ≤ config.machineConfig.traceability.publishInterval
    | m, .spawnHeartbeat _ => ∃ s, m = .monitoring s
    | m, .spawnRequests h => ∃ s heartbeat, m = .beating s heartbeat ∧ config.InOrder F s heartbeat h
    | m, .detachEventLoop => ∃ s heartbeat h, m = .running s heartbeat h
    | m, .insert id => ∃ s heartbeat h, m = .detached s heartbeat h ∧ h.serverId = id ∧
      config.InOrder F s heartbeat h
  next := StartPhase.next

/-- The session is registered in order, or the attempt is idle where it ends. -/
def Started {ε α : Type} : Outcome ε α → StartPhase → Prop
  | .returned _, m => ∃ s heartbeat h, m = .registered s heartbeat h ∧ config.InOrder F s heartbeat h
  | _, m => m.Idle

end Phases

section Guarantee

variable {F : RowFormat} {config : SessionStartConfig} {h : TraceabilityHandler TraceabilityContext}

/-- The attempt is connected, and the handler returned is initialised. -/
def Connected {ε : Type} (F : RowFormat) (config : SessionStartConfig) :
    Outcome ε (TraceabilityHandler TraceabilityContext) → StartPhase → Prop
  | .returned h, m => m = .connected ∧ config.Initializes F h
  | _, m => m = .connected

/-- The handler is initialised while the attempt is connected. -/
theorem initialize_meets : ((traceabilityInitialize F config.handler).embed handlerEmbedding).Meets
    (startProtocol F config) (Connected F config) .connected := by
  refine .embed (.of_still (fun e => rfl) (fun e r => rfl) fun t o hy => ?_)
  cases o with
  | returned h => exact ⟨rfl, t, hy⟩
  | failed e => rfl
  | panicked m => rfl

/-- The tasks of the handler are running, or the attempt is idle where it ends. -/
def Installed {ε : Type} (F : RowFormat) (config : SessionStartConfig)
    (h : TraceabilityHandler TraceabilityContext) : Outcome ε Unit → StartPhase → Prop
  | .returned _, m => ∃ s heartbeat, m = .running s heartbeat h ∧ config.InOrder F s heartbeat h
  | _, m => m.Idle

theorem spawnTasks_meets (hinit : config.Initializes F h) {id revised : ℕ} {created : List CreatedItem}
    (hle : revised ≤ config.machineConfig.traceability.publishInterval) :
    (spawnTasks h created).Meets (startProtocol F config) (Installed F config h)
      ((StartPhase.checked id revised).next (.createMonitoredItems id h.state.protocol.request)
        (.ok created)) := by
  unfold spawnTasks StartPhase.next
  cases hfind : created.find? fun item => !item.status.isGood with
  | some item =>
    have hbad : ¬ created.all fun item => item.status.isGood := by
      intro hall
      have hgood := List.all_eq_true.mp hall item (List.mem_of_find?_eq_some hfind)
      have hnot := List.find?_some hfind
      simp [hgood] at hnot
    simp only [hbad]
    trivial
  | none =>
    have hgood : ∀ item ∈ created, item.status.isGood := by
      intro item hmem
      have hnot := List.find?_eq_none.mp hfind item hmem
      simpa using hnot
    have hall : created.all fun item => item.status.isGood := List.all_eq_true.mpr hgood
    simp only [hall, if_true]
    refine .call ⟨_, rfl⟩ fun _ => .call ⟨_, _, rfl, ?_⟩ fun _ => ⟨_, _, rfl, ?_⟩
    all_goals exact ⟨hinit, hle, rfl, rfl, hgood⟩

theorem monitorRequest_meets (hinit : config.Initializes F h) (id revised : ℕ) :
    (monitorRequest h id revised).Meets (startProtocol F config) (Installed F config h)
      (.checked id revised) := by
  unfold monitorRequest
  rw [hinit.machineConfig]
  split
  · next hlt => exact .call ⟨revised, rfl, hlt⟩ fun _ => trivial
  · next hle =>
    have hle' := Nat.le_of_not_lt hle
    refine .call ⟨revised, rfl, hle'⟩ fun r => ?_
    cases r with
    | error e => trivial
    | ok created =>
      show (spawnTasks h created).Meets _ _ _
      exact spawnTasks_meets hinit hle'

theorem install_meets (hinit : config.Initializes F h) :
    (install h).Meets (startProtocol F config) (Installed F config h) .connected := by
  have hinterval := congrArg TraceabilityMachineConfig.publishInterval hinit.machineConfig
  refine .call ⟨rfl, hinterval⟩ fun r => ?_
  cases r with
  | error e => trivial
  | ok id =>
    refine .call rfl fun r => ?_
    cases r with
    | none => trivial
    | some revised =>
      show (monitorRequest h id revised).Meets _ _ (StartPhase.checked id revised)
      exact monitorRequest_meets hinit id revised

theorem startHandler_meets :
    (startHandler F config).Meets (startProtocol F config) (Started F config) .connected := by
  refine .bind (Q := Connected F config) (.mapErr initialize_meets ?_ ?_ ?_) ?_ ?_ ?_
  · exact fun h m hm => hm
  · exact fun e m hm => hm
  · exact fun s m hm => hm
  · rintro h m ⟨rfl, hinit⟩
    refine .bind (Q := Installed F config h) (.mapErr (install_meets hinit) ?_ ?_ ?_) ?_ ?_ ?_
    · exact fun u m hm => hm
    · exact fun e m hm => hm
    · exact fun s m hm => hm
    · rintro u m ⟨s, heartbeat, rfl, horder⟩
      refine .call ⟨s, heartbeat, h, rfl⟩ fun _ => ?_
      refine .call ⟨s, heartbeat, h, rfl, horder.serverId, horder⟩ fun _ => ?_
      exact ⟨s, heartbeat, h, if_pos horder.serverId.symm, horder⟩
    · exact fun e m hm => hm
    · exact fun s m hm => hm
  · rintro e m rfl
    trivial
  · rintro s m rfl
    trivial

theorem startSession_meets :
    (startSession F config).Meets (startProtocol F config) (Started F config) .connecting := by
  refine .call rfl fun r => ?_
  cases r with
  | error e => trivial
  | ok endpoints =>
    refine .call rfl fun r => ?_
    cases r with
    | error e => trivial
    | ok u =>
      refine .call rfl fun r => ?_
      cases r with
      | error e => trivial
      | ok u =>
        refine .call rfl fun _ => .call rfl fun _ => .call rfl fun connected => ?_
        cases connected with
        | false => trivial
        | true =>
          show (startHandler F config).Meets _ _ StartPhase.connected
          exact startHandler_meets

/-- Wherever an attempt can be given up, it is idle. -/
theorem idle_of_awaits {m : StartPhase} {e : SessionEffect}
    (hallowed : (startProtocol F config).allowed m e) (he : e.Awaits) : m.Idle := by
  cases e with
  | getServerEndpointsFromUrl url | waitForConnection | handler e =>
    cases (show m = _ from hallowed)
    trivial
  | createSubscription i =>
    cases hallowed.1
    trivial
  | deleteSubscription id | createMonitoredItems id node =>
    obtain ⟨revised, rfl, -⟩ := hallowed
    trivial
  | _ => exact he.elim

end Guarantee

/-- The attempt has ended, or waits, so that it may be given up. -/
def Stoppable {ε α : Type} : SessionProg ε α → Prop
  | .call e _ => e.Awaits
  | _ => True

/-- An attempt that is idle has at most its event loop. -/
theorem lastingEffects_of_idle {t : List (Event sessionSignature)}
    (hidle : (StartPhase.after .connecting t).Idle) :
    lastingEffects t = [] ∨ lastingEffects t = [.spawnEventLoop] := by
  have hmisplaced : StartPhase.after .connecting t ≠ .misplaced := by
    intro hmis
    rw [hmis] at hidle
    exact hidle
  have hlasting : (StartPhase.after .connecting t).lasting = lastingEffects t :=
    StartPhase.lasting_after hmisplaced
  rw [← hlasting]
  cases hm : StartPhase.after .connecting t with
  | connecting => exact .inl rfl
  | connected | subscribed id | checked id revised => exact .inr rfl
  | _ => rw [hm] at hidle; exact hidle.elim

def sampleStart : SessionStartConfig where
  serverId := "MAC1".toList
  machineConfig := ⟨⟨"opc.tcp://machine".toList, .none, .none⟩, sampleInitial.machineConfig⟩
  credential := none
  traceabilityOpcUa := sampleInitial.commonOpcuaConfig

/-- An attempt that has everything granted comes to its last effect. -/
theorem sampleStart_inserting : ∃ t, (∀ e ∈ t, ∀ id, e.1 ≠ SessionEffect.insert id) ∧
    (startSession epochFormat sampleStart).After t (sessionCall (.insert sampleStart.serverId)) := by
  obtain ⟨h, t₀, hinit, -⟩ := sampleInitial_returned
  have hconnect : (startSession epochFormat sampleStart).After
      [⟨.getServerEndpointsFromUrl "opc.tcp://machine".toList, .ok []⟩,
        ⟨.connectToMatchingEndpoint [] ⟨"opc.tcp://machine".toList, .none, .none⟩ .anonymous, .ok ()⟩,
        ⟨.build, .ok ()⟩, ⟨.disableReconnects, ()⟩, ⟨.spawnEventLoop, ()⟩, ⟨.waitForConnection, true⟩]
      (startHandler epochFormat sampleStart) :=
    .call _ <| .call _ <| .call _ <| .call _ <| .call _ <| .call _ .start
  have hhandler := (Prog.After.of_returned hinit).embed (ι := handlerEmbedding)
  have hinstall : (install h).After
      [⟨.createSubscription h.machineConfig.publishInterval, .ok 1⟩, ⟨.publishingInterval 1, some 0⟩,
        ⟨.createMonitoredItems 1 h.state.protocol.request, .ok []⟩,
        ⟨.spawnHeartbeat h.state.protocol.heartbeat, ()⟩, ⟨.spawnRequests h, ()⟩] (.ret ()) :=
    .call _ <| .call _ <| .call _ <| .call _ <| .call _ .start
  have hrest : (startHandler epochFormat sampleStart).After _
      (sessionCall (.insert sampleStart.serverId)) :=
    .bind hhandler.mapErr (.bind hinstall.mapErr (.call () .start))
  refine ⟨_, ?_, hconnect.trans hrest⟩
  intro e he id
  simp only [List.mem_cons, List.mem_append, List.mem_map, List.not_mem_nil, or_false] at he
  rcases he with (rfl | rfl | rfl | rfl | rfl | rfl) | ⟨e', -, rfl⟩ |
    (rfl | rfl | rfl | rfl | rfl) | rfl
  all_goals exact SessionEffect.noConfusion

end LineGateway

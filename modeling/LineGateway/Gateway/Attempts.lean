import LineGateway.Gateway.StartSession
import LineGateway.Gateway.Startup
import LineGateway.Traceability.Replies

/-! The gateway with its attempts at sessions run step by step. An attempt is a task that
goes through `startSession`, with a timeout that gives it up wherever it waits; it registers
its session at its last effect. The gateway with attempts refines the gateway in which a
session registers at once. So every session that is ever registered has a handler that its
initialisation has returned, and only a reply that breaks the protocol of the server can end
the task of its requests. -/

namespace LineGateway

open Foundation Config Opcua Traceability

/-- What the attempts are configured with. -/
structure LineConfig where
  machines : Table Text MachineConfig
  credentials : Table Text Credential
  traceabilityOpcUa : TraceabilityCommonOpcUaConfig

namespace LineConfig

variable (c : LineConfig)

/-- The identifiers of the machines. -/
def servers : List Text := c.machines.keys

/-- What the attempt at the session of a machine is given. -/
def sessionStartConfig (id : Text) : Option SessionStartConfig :=
  (c.machines.get id).map fun config => ⟨id, config, c.credentials.get id, c.traceabilityOpcUa⟩

end LineConfig

/-- An attempt on its way: the replies so far, and what is left to run. -/
structure StartAttempt where
  config : SessionStartConfig
  trace : List (Event sessionSignature)
  rest : SessionProg CreateSessionError Unit

namespace StartAttempt

variable (F : RowFormat)

def spawn (config : SessionStartConfig) : StartAttempt := ⟨config, [], startSession F config⟩

/-- Go on with the reply to an effect. -/
def reply (a : StartAttempt) (e : SessionEffect) (k : e.Reply → SessionProg CreateSessionError Unit)
    (r : e.Reply) : StartAttempt := { a with trace := a.trace ++ [⟨e, r⟩], rest := k r }

/-- The attempt has come where its trace says. -/
def Reached (a : StartAttempt) : Prop := (startSession F a.config).After a.trace a.rest

/-- What the attempt has brought about. -/
def phase (a : StartAttempt) : StartPhase := (startProtocol F a.config).after .connecting a.trace

theorem phase_reply (a : StartAttempt) (e : SessionEffect)
    (k : e.Reply → SessionProg CreateSessionError Unit) (r : e.Reply) :
    (a.reply e k r).phase F = (a.phase F).next e r := Protocol.after_append _ _ _ _

/-- The attempt has failed. -/
def Failed (a : StartAttempt) : Prop := (∃ e, a.rest = .fail e) ∨ ∃ m, a.rest = .panic m

end StartAttempt

/-- The gateway with the attempts, in the order of the manager. -/
structure GatewayAttempts where
  gateway : Gateway
  starts : List StartAttempt

namespace GatewayAttempts

def initial : GatewayAttempts := ⟨.initial, []⟩

inductive Label (V : VariantCodec)
  | gateway (l : Gateway.Label V)
  | perform (n : ℕ) (e : Event sessionSignature)
  | register (n : ℕ) (h : TraceabilityHandler TraceabilityContext)
  | fail (n : ℕ)
  | timeout (n : ℕ)

/-- The steps of the gateway that the attempts have no part in. -/
def Independent {V : VariantCodec} (l : Gateway.Label V) : Prop :=
  ¬ l.Ends ∧ l.manager ≠ some .spawn ∧ (∀ n, l.manager ≠ some (.register n)) ∧
    ∀ n, l.manager ≠ some (.fail n)

/-- Store the session of an attempt in the registry, with its tasks. -/
def registerSession (g : Gateway) (n : ℕ) (serverId : Text)
    (h : TraceabilityHandler TraceabilityContext) : Gateway :=
  { g with
    manager := g.manager.register n serverId
    sessions := Gateway.dropSessions g.sessions (g.manager.registry.get serverId).toList ++
      [HandlerTasks.install h] }

/-- An attempt is over without a session. -/
def removeAttempt (g : Gateway) (n : ℕ) : Gateway :=
  { g with manager := { g.manager with attempts := g.manager.attempts.eraseIdx n } }

variable {V : VariantCodec} (D : DecimalClass) (db : TraceabilityDatabase) (F : RowFormat)
  (queuesThreshold : ℕ) (c : LineConfig)

inductive Step : GatewayAttempts → Label V → GatewayAttempts → Prop
  | gateway (s : GatewayAttempts) (l : Gateway.Label V) (g : Gateway) (hl : Independent l)
      (hs : Gateway.Step D db F queuesThreshold c.servers s.gateway l g) :
      Step s (.gateway l) { s with gateway := g }
  | spawn (s : GatewayAttempts) (id : Text) (rest : List Text) (config : SessionStartConfig)
      (hmain : s.gateway.main = .managing) (hphase : s.gateway.manager.phase = .spawning (id :: rest))
      (hconfig : c.sessionStartConfig id = some config) :
      Step s (.gateway (.manage .spawn))
        { gateway :=
            { s.gateway with
              manager :=
                { s.gateway.manager with
                  attempts := s.gateway.manager.attempts ++ [id]
                  phase := .spawning rest } }
          starts := s.starts ++ [.spawn F config] }
  | perform (s : GatewayAttempts) (n : ℕ) (a : StartAttempt) (e : SessionEffect)
      (k : e.Reply → SessionProg CreateSessionError Unit) (r : e.Reply) (hn : s.starts[n]? = some a)
      (hrest : a.rest = .call e k) (hinsert : ∀ id, e ≠ .insert id) :
      Step s (.perform n ⟨e, r⟩) { s with starts := s.starts.set n (a.reply e k r) }
  -- The last effect of an attempt, with the handler whose tasks it has spawned.
  | register (s : GatewayAttempts) (n : ℕ) (a : StartAttempt) (id : Text)
      (k : Unit → SessionProg CreateSessionError Unit) (subscription : Subscription)
      (heartbeat : NodeId) (h : TraceabilityHandler TraceabilityContext)
      (hn : s.starts[n]? = some a) (hrest : a.rest = .call (.insert id) k)
      (hphase : a.phase F = .detached subscription heartbeat h) :
      Step s (.register n h) ⟨registerSession s.gateway n id h, s.starts.eraseIdx n⟩
  | fail (s : GatewayAttempts) (n : ℕ) (a : StartAttempt) (hn : s.starts[n]? = some a)
      (hfailed : a.Failed) :
      Step s (.fail n) ⟨removeAttempt s.gateway n, s.starts.eraseIdx n⟩
  | timeout (s : GatewayAttempts) (n : ℕ) (a : StartAttempt) (e : SessionEffect)
      (k : e.Reply → SessionProg CreateSessionError Unit) (hn : s.starts[n]? = some a)
      (hrest : a.rest = .call e k) (hawaits : e.Awaits) :
      Step s (.timeout n) ⟨removeAttempt s.gateway n, s.starts.eraseIdx n⟩
  -- The attempts end with the process.
  | ends (s : GatewayAttempts) (l : Gateway.Label V) (g : Gateway) (hl : l.Ends)
      (hs : Gateway.Step D db F queuesThreshold c.servers s.gateway l g) :
      Step s (.gateway l) ⟨g, []⟩

/-- What a step is for the gateway. -/
def Label.toGateway : Label V → Option (Gateway.Label V)
  | .gateway l => some l
  | .perform .. => none
  | .register n h => some (.register n h)
  | .fail n | .timeout n => some (.manage (.fail n))

/-! ### The invariant -/

/-- A handler that the initialisation for a configured machine has returned. -/
def Initialized (F : RowFormat) (c : LineConfig) (h : TraceabilityHandler TraceabilityContext) :
    Prop := ∃ config, c.sessionStartConfig h.serverId = some config ∧ config.Initializes F h

structure Inv (s : GatewayAttempts) : Prop where
  aligned : s.starts.map (fun a => a.config.serverId) = s.gateway.manager.attempts
  configured : ∀ a ∈ s.starts, c.sessionStartConfig a.config.serverId = some a.config
  reached : ∀ a ∈ s.starts, a.Reached F
  unregistered : ∀ a ∈ s.starts, ¬ (a.phase F).Registered
  initialized : ∀ t ∈ s.gateway.sessions, Initialized F c t.handler

section Invariant

variable {D db F queuesThreshold c} {s s' : GatewayAttempts} {l : Label V} {g g' : Gateway}
  {ls : List (Label V)} {n : ℕ} {a : StartAttempt}

theorem sessionStartConfig_serverId {id : Text} {config : SessionStartConfig}
    (h : c.sessionStartConfig id = some config) : config.serverId = id := by
  obtain ⟨machine, -, rfl⟩ := Option.map_eq_some_iff.mp h
  rfl

/-- The attempts of the manager are left alone. -/
theorem attempts_eq {l : Gateway.Label V} (hl : Independent l)
    (hs : Gateway.Step D db F queuesThreshold c.servers g l g') :
    g'.manager.attempts = g.manager.attempts := by
  obtain ⟨hends, hspawn, hregister, hfail⟩ := hl
  have hstep := hs.manager_step hends
  cases hm : l.manager with
  | none =>
    rw [hm] at hstep
    exact congrArg SessionsManager.attempts hstep
  | some m =>
    rw [hm] at hstep hspawn hregister hfail
    change SessionsManager.Step c.servers g.manager m g'.manager at hstep
    generalize g'.manager = m' at hstep
    cases hstep with
    | spawn => exact absurd rfl hspawn
    | register n => exact absurd rfl (hregister n)
    | fail n => exact absurd rfl (hfail n)
    | _ => rfl

/-- Only a registration brings a handler that no session had. -/
theorem handlers_of_set {P : TraceabilityHandler TraceabilityContext → Prop}
    {sessions : List HandlerTasks} {t t' : HandlerTasks} (h : ∀ s ∈ sessions, P s.handler)
    (hn : sessions[n]? = some t) (hsame : t'.handler = t.handler) :
    ∀ s ∈ sessions.set n t', P s.handler := by
  intro s hs
  rcases List.mem_or_eq_of_mem_set hs with hs | rfl
  · exact h s hs
  · exact hsame ▸ h t (List.mem_of_getElem? hn)

theorem handlers_of_drop {P : TraceabilityHandler TraceabilityContext → Prop}
    {sessions : List HandlerTasks} (numbers : List ℕ) (h : ∀ s ∈ sessions, P s.handler) :
    ∀ s ∈ Gateway.dropSessions sessions numbers, P s.handler := by
  intro s hs
  obtain ⟨i, hi, rfl⟩ := List.mem_mapIdx.mp hs
  have hP := h _ (List.getElem_mem hi)
  split_ifs <;> exact hP

theorem handlers_of_step {P : TraceabilityHandler TraceabilityContext → Prop} {l : Gateway.Label V}
    (hs : Gateway.Step D db F queuesThreshold c.servers g l g') (hl : ∀ n h, l ≠ .register n h)
    (h : ∀ s ∈ g.sessions, P s.handler) : ∀ s ∈ g'.sessions, P s.handler := by
  cases hs with
  | endDrain htask hend =>
    rw [(Gateway.endDrain_fields g).2.2.1]
    exact h
  | managerTick m hmain hs => exact handlers_of_drop _ h
  | register n v hn => exact absurd rfl (hl n v)
  | cancel n rest s hmain hphase hs => exact handlers_of_set h hs rfl
  | notify n value s hs hlive =>
    exact handlers_of_set h hs (HandlerTasks.Step.notify (D := D) s value).handler_eq
  | task n l s s' hl hs hstep => exact handlers_of_set h hs hstep.handler_eq
  | perform n s hd e k i hs hrun hcurrent hrest => exact handlers_of_set h hs rfl
  | exit ok applied hmain => exact fun s hs => nomatch hs
  | kill applied => exact fun s hs => nomatch hs
  | _ => exact h

/-- What an attempt whose last effect is due has brought about. -/
theorem Inv.inserted (h : s.Inv F c) (hn : s.starts[n]? = some a) {id : Text}
    {k : Unit → SessionProg CreateSessionError Unit} {subscription : Subscription}
    {heartbeat : NodeId} {v : TraceabilityHandler TraceabilityContext}
    (hrest : a.rest = .call (.insert id) k) (hphase : a.phase F = .detached subscription heartbeat v) :
    v.serverId = id ∧ v.serverId = a.config.serverId ∧ a.config.InOrder F subscription heartbeat v := by
  have hreached := h.reached a (List.mem_of_getElem? hn)
  rw [StartAttempt.Reached, hrest] at hreached
  obtain ⟨subscription', heartbeat', v', hphase', hid, horder⟩ := (startSession_meets.after hreached).1
  rw [StartAttempt.phase, hphase'] at hphase
  cases hphase
  exact ⟨hid, horder.serverId, horder⟩

theorem Inv.attempt (h : s.Inv F c) (hn : s.starts[n]? = some a) :
    s.gateway.manager.attempts[n]? = some a.config.serverId := by
  rw [← h.aligned, List.getElem?_map, hn]
  rfl

/-- A step of the gateway with attempts is a step of the gateway or none. -/
theorem Step.toGateway (h : s.Inv F c) (hs : Step D db F queuesThreshold c s l s') :
    Run.OptStep (Gateway.Step D db F queuesThreshold c.servers) s.gateway l.toGateway s'.gateway := by
  cases hs with
  | gateway l g hl hs => exact hs
  | spawn id rest config hmain hphase hconfig =>
    exact .manage _ .spawn _ trivial (fun _ => hmain) (.spawn _ id rest hphase)
  | perform n a e k r hn hrest hinsert => rfl
  | register n a id k subscription heartbeat v hn hrest hphase =>
    obtain ⟨rfl, hserver, -⟩ := h.inserted hn hrest hphase
    exact .register _ n v (hserver ▸ h.attempt hn)
  | fail n a hn hfailed => exact .manage _ (.fail n) _ trivial nofun (.fail _ n)
  | timeout n a e k hn hrest hawaits => exact .manage _ (.fail n) _ trivial nofun (.fail _ n)
  | ends l g hl hs => exact hs

theorem Inv.erase (h : s.Inv F c) (n : ℕ) :
    (s.starts.eraseIdx n).map (fun a => a.config.serverId) = s.gateway.manager.attempts.eraseIdx n := by
  rw [← h.aligned, List.eraseIdx_map]

theorem Inv.step (h : s.Inv F c) (hs : Step D db F queuesThreshold c s l s') : s'.Inv F c := by
  have hstep := hs.toGateway h
  cases hs with
  | gateway l g hl hs =>
    refine ⟨?_, h.configured, h.reached, h.unregistered, ?_⟩
    · rw [attempts_eq hl hs]
      exact h.aligned
    · refine handlers_of_step hs ?_ h.initialized
      rintro n v rfl
      exact hl.2.2.1 n rfl
  | spawn id rest config hmain hphase hconfig =>
    have hid := sessionStartConfig_serverId hconfig
    refine ⟨?_, ?_, ?_, ?_, h.initialized⟩
    · simp [h.aligned, StartAttempt.spawn, hid]
    · intro a ha
      rcases List.mem_append.mp ha with ha | ha
      · exact h.configured a ha
      · rw [List.mem_singleton.mp ha]
        exact hid.symm ▸ hconfig
    · intro a ha
      rcases List.mem_append.mp ha with ha | ha
      · exact h.reached a ha
      · rw [List.mem_singleton.mp ha]
        exact .start
    · intro a ha
      rcases List.mem_append.mp ha with ha | ha
      · exact h.unregistered a ha
      · rw [List.mem_singleton.mp ha]
        exact fun hregistered => hregistered
  | perform n a e k r hn hrest hinsert =>
    have hmem := List.mem_of_getElem? hn
    refine ⟨?_, ?_, ?_, ?_, h.initialized⟩
    · have hserver := h.attempt hn
      rw [← h.aligned] at hserver ⊢
      obtain ⟨hlt, hget⟩ := List.getElem?_eq_some_iff.mp hserver
      rw [List.map_set]
      show (s.starts.map fun a => a.config.serverId).set n a.config.serverId = _
      rw [← hget, List.set_getElem_self]
    · intro b hb
      rcases List.mem_or_eq_of_mem_set hb with hb | rfl
      · exact h.configured b hb
      · exact h.configured a hmem
    · intro b hb
      rcases List.mem_or_eq_of_mem_set hb with hb | rfl
      · exact h.reached b hb
      · have hreached := h.reached a hmem
        rw [StartAttempt.Reached, hrest] at hreached
        exact .reply hreached r
    · intro b hb
      rcases List.mem_or_eq_of_mem_set hb with hb | rfl
      · exact h.unregistered b hb
      · rw [StartAttempt.phase_reply]
        exact StartPhase.not_registered_next hinsert
  | register n a id k subscription heartbeat v hn hrest hphase =>
    obtain ⟨hid, hserver, horder⟩ := h.inserted hn hrest hphase
    have hmem := List.mem_of_getElem? hn
    refine ⟨h.erase n, fun b hb => h.configured b (List.mem_of_mem_eraseIdx hb),
      fun b hb => h.reached b (List.mem_of_mem_eraseIdx hb),
      fun b hb => h.unregistered b (List.mem_of_mem_eraseIdx hb), fun t ht => ?_⟩
    rcases List.mem_append.mp ht with ht | ht
    · exact handlers_of_drop _ h.initialized t ht
    · rw [List.mem_singleton.mp ht]
      exact ⟨a.config, hserver ▸ h.configured a hmem, horder.initialized⟩
  | fail n a hn hfailed =>
    exact ⟨h.erase n, fun b hb => h.configured b (List.mem_of_mem_eraseIdx hb),
      fun b hb => h.reached b (List.mem_of_mem_eraseIdx hb),
      fun b hb => h.unregistered b (List.mem_of_mem_eraseIdx hb), h.initialized⟩
  | timeout n a e k hn hrest hawaits =>
    exact ⟨h.erase n, fun b hb => h.configured b (List.mem_of_mem_eraseIdx hb),
      fun b hb => h.reached b (List.mem_of_mem_eraseIdx hb),
      fun b hb => h.unregistered b (List.mem_of_mem_eraseIdx hb), h.initialized⟩
  | ends l g hl hs =>
    refine ⟨?_, fun a ha => (nomatch ha), fun a ha => (nomatch ha), fun a ha => (nomatch ha), ?_⟩
    · cases hs with
      | exit | kill => rfl
      | _ => exact hl.elim
    · cases hs with
      | exit | kill => exact fun s hs => nomatch hs
      | _ => exact hl.elim

theorem initial_inv : initial.Inv F c where
  aligned := rfl
  configured _ ha := nomatch ha
  reached _ ha := nomatch ha
  unregistered _ ha := nomatch ha
  initialized _ ht := nomatch ht

theorem run_inv (hr : Run (Step D db F queuesThreshold c) initial ls s) : s.Inv F c :=
  hr.invariant (fun _ _ _ h hs => h.step hs) initial_inv

theorem run_toGateway (hr : Run (Step D db F queuesThreshold c) initial ls s) :
    Run (Gateway.Step D db F queuesThreshold c.servers) .initial (ls.filterMap Label.toGateway)
      s.gateway :=
  (hr.strengthen (fun _ _ _ h hs => h.step hs) initial_inv).filterMap gateway Label.toGateway
    fun _ _ _ hs => hs.1.toGateway hs.2

/-- Wherever an attempt can end without a session, it is idle. -/
theorem Inv.idle (h : s.Inv F c) (ha : a ∈ s.starts) (hstop : Stoppable a.rest) :
    (a.phase F).Idle := by
  have hmeets := startSession_meets.after (h.reached a ha)
  cases hrest : a.rest with
  | ret u =>
    rw [hrest] at hmeets
    obtain ⟨_, _, _, hphase, -⟩ := hmeets
    refine absurd ?_ (h.unregistered a ha)
    rw [StartAttempt.phase, hphase]
    trivial
  | call e k =>
    rw [hrest] at hmeets hstop
    exact idle_of_awaits hmeets.1 hstop
  | fail e | panic m =>
    rw [hrest] at hmeets
    exact hmeets

/-- The gateway with attempts refines the gateway, and its attempts are those of the manager.
Every session registered, in any process, has a handler that the initialisation for a
configured machine has returned. Where an attempt can end without a session it has spawned its
event loop at most, which is bound to it: no task, no detaching and no registration. -/
theorem sessions_initialized (hr : Run (Step D db F queuesThreshold c) initial ls s) :
    Run (Gateway.Step D db F queuesThreshold c.servers) .initial (ls.filterMap Label.toGateway)
        s.gateway ∧
      (∀ t ∈ s.gateway.sessions, Initialized F c t.handler) ∧
      s.starts.map (fun a => a.config.serverId) = s.gateway.manager.attempts ∧
      ∀ a ∈ s.starts, Stoppable a.rest → (a.phase F).Idle ∧
        (lastingEffects a.trace = [] ∨ lastingEffects a.trace = [.spawnEventLoop]) := by
  have hinv := run_inv hr
  refine ⟨run_toGateway hr, hinv.initialized, hinv.aligned, fun a ha hstop => ?_⟩
  have hidle := hinv.idle ha hstop
  exact ⟨hidle, lastingEffects_of_idle hidle⟩

/-- The rest of the gateway goes on as it may without the attempts. -/
theorem run_independent {ls : List (Gateway.Label V)} (starts : List StartAttempt)
    (hls : ∀ l ∈ ls, Independent l)
    (hr : Run (Gateway.Step D db F queuesThreshold c.servers) g ls g') :
    Run (Step D db F queuesThreshold c) ⟨g, starts⟩ (ls.map .gateway) ⟨g', starts⟩ := by
  induction hr with
  | nil => exact .nil _
  | cons head _ ih =>
    refine .cons (.gateway _ _ _ (hls _ List.mem_cons_self) head) (ih fun l hl => ?_)
    exact hls l (List.mem_cons_of_mem _ hl)

/-- An attempt goes on as its program may. -/
theorem run_perform (g : Gateway) (a : StartAttempt) {t : List (Event sessionSignature)}
    {rest : SessionProg CreateSessionError Unit} (hrest : a.rest.After t rest)
    (ht : ∀ e ∈ t, ∀ id, e.1 ≠ SessionEffect.insert id) :
    Run (Step (V := V) D db F queuesThreshold c) ⟨g, [a]⟩ (t.map (.perform 0))
      ⟨g, [{ a with trace := a.trace ++ t, rest }]⟩ := by
  induction hrest with
  | start =>
    rw [List.append_nil]
    exact .nil _
  | @reply t e k h r ih =>
    have hrun := ih fun e he => ht e (List.mem_append_left _ he)
    rw [List.map_append, ← List.append_assoc]
    have he := ht ⟨e, r⟩ (List.mem_append_right _ (List.mem_singleton_self _))
    exact hrun.snoc (.perform ⟨g, [⟨a.config, a.trace ++ t, .call e k⟩]⟩ 0 _ e k r rfl rfl he)

end Invariant

/-- A line with one machine. -/
def sampleLine : LineConfig where
  machines := Table.empty.insert "MAC1".toList sampleStart.machineConfig
  credentials := .empty
  traceabilityOpcUa := sampleStart.traceabilityOpcUa

abbrev SampleStep : GatewayAttempts → Label plainCodec → GatewayAttempts → Prop :=
  Step asciiDecimal sampleDatabase epochFormat 10 sampleLine

/-- The machine of the line is connected to. -/
theorem sampleLine_run : ∃ a ls h, Run SampleStep initial ls
    ⟨registerSession (Gateway.managing a Gateway.attempting []) 0 "MAC1".toList h, []⟩ := by
  obtain ⟨a, htick, -⟩ := Gateway.tickLabels_run 10
  obtain ⟨t, ht, hafter⟩ := sampleStart_inserting
  obtain ⟨subscription, heartbeat, h, hphase, -⟩ := (startSession_meets.after hafter).1
  have hindependent : ∀ l ∈ Gateway.tickLabels, Independent l := by
    simp [Gateway.tickLabels, Independent, Gateway.Label.Ends, Gateway.Label.manager]
  have hstart : Run SampleStep initial (Gateway.tickLabels.map .gateway)
      ⟨Gateway.managing a Gateway.ticked [], []⟩ := run_independent [] hindependent htick.of_guarded
  have hspawn : SampleStep ⟨Gateway.managing a Gateway.ticked [], []⟩ (.gateway (.manage .spawn))
      ⟨Gateway.managing a Gateway.attempting [], [.spawn epochFormat sampleStart]⟩ :=
    .spawn _ "MAC1".toList [] sampleStart rfl rfl rfl
  have hperform : Run SampleStep
      ⟨Gateway.managing a Gateway.attempting [], [.spawn epochFormat sampleStart]⟩
      (t.map (.perform 0))
      ⟨Gateway.managing a Gateway.attempting [], [⟨sampleStart, t, sessionCall (.insert "MAC1".toList)⟩]⟩ :=
    run_perform _ (.spawn epochFormat sampleStart) hafter ht
  have hregister : SampleStep
      ⟨Gateway.managing a Gateway.attempting [], [⟨sampleStart, t, sessionCall (.insert "MAC1".toList)⟩]⟩
      (.register 0 h)
      ⟨registerSession (Gateway.managing a Gateway.attempting []) 0 "MAC1".toList h, []⟩ :=
    .register _ 0 _ "MAC1".toList _ subscription heartbeat h rfl rfl hphase
  exact ⟨a, _, h, (hstart.snoc hspawn).append (hperform.snoc hregister)⟩

theorem sessions_initialized_registered : ∃ (s : GatewayAttempts) (ls : List (Label plainCodec))
    (t : HandlerTasks), Run SampleStep initial ls s ∧ s.gateway.sessions = [t] ∧
      Initialized epochFormat sampleLine t.handler := by
  obtain ⟨a, ls, h, hr⟩ := sampleLine_run
  exact ⟨_, ls, _, hr, rfl, (sessions_initialized hr).2.1 _ (List.mem_singleton_self _)⟩

end GatewayAttempts

end LineGateway

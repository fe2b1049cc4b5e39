import LineGateway.Gateway.RunMain
import LineGateway.Traceability.ArchiveDelivery

/-! The components of the gateway. What a step of the gateway does to the store and the
database is a step of the archive or none; what it does to the manager is a step of the
manager or none, and the tasks of every session have run from their installation. So what
holds of every run of a component holds of it in every run of the gateway. -/

namespace LineGateway

open Foundation Config Opcua Traceability

namespace Gateway

variable {V : VariantCodec} {D : DecimalClass} {db : TraceabilityDatabase} {F : RowFormat}
  {queuesThreshold : ℕ} {servers : List Text} {g g' : Gateway} {l : Label V}
  {ls : List (Label V)}

/-! ### The labels of the components -/

/-- What an effect of a request is for the archive. -/
def effectLabel : (e : HandlerEffect) → HandlerInput V e → Option (Archive.Label V)
  | .savePartSheets machineId partId general operation, .ok (faults, context, now) =>
    some (.save ⟨machineId, partId, general, operation, context, now⟩ faults)
  | .nextSerial date, .ok faults => some (.nextSerial date faults)
  | _, _ => none

/-- What a step of the gateway is for the archive. -/
def Label.archive : Label V → Option (Archive.Label V)
  | .drainTick => some .tick
  | .drain q i => some (.drain q i)
  | .perform _ e i => effectLabel e i
  | .exit applied | .kill applied => some (.crash applied)
  | _ => none

/-- What a step of the gateway is for the manager. -/
def Label.manager : Label V → Option SessionsManager.Label
  | .manage l => some l
  | .register n _ => some (.register n)
  | _ => none

/-- An effect of a request is a step of the archive or none. -/
theorem serve_step (a : Archive) (e : HandlerEffect) (i : HandlerInput V e) :
    Run.OptStep (Archive.Step db F) a (effectLabel e i) (serve F queuesThreshold a e i) := by
  have hsame : ∀ {a' : Archive}, a' = { a with saved := fun q => a.saved q ++ [] } → a' = a := by
    rintro _ rfl
    simp
  cases e with
  | savePartSheets machineId partId general operation =>
    cases i with
    | error e => exact hsame rfl
    | ok i => exact .save a ⟨machineId, partId, general, operation, i.2.1, i.2.2⟩ i.1
  | nextSerial date =>
    cases i with
    | error e => exact hsame rfl
    | ok faults =>
      have hstep := @Archive.Step.nextSerial V db F a date faults
      simpa [Run.OptStep, effectLabel, serve, committedRows, performHandler, Archive.nextSerial]
        using hstep
  | getGeneralPartSheet partId =>
    cases i with
    | error e => exact hsame rfl
    | ok i => exact hsame rfl
  | _ => exact hsame rfl

/-! ### The process -/

/-- The draining task goes on, or has ended with the shutdown. -/
def DrainTask.Live (task : DrainTask) : Prop :=
  task = .waiting ∨ task = .draining ∨ task = .terminated

/-- The main function has not gone on with the status, or has returned with an error. -/
def MainPhase.Unmanaged (main : MainPhase) : Prop :=
  main = .awaitingFirstDrain ∨ main = .returned false

/-- The phases of the main function, of the draining task and of its channel that go
together. -/
inductive Phases : MainPhase → DrainTask → FirstDrainStatus → Prop
  | opening : Phases .opening .unstarted .pending
  | unopened : Phases (.returned false) .unstarted .pending
  | firstWaiting : Phases .awaitingFirstDrain .waiting .pending
  | firstDraining : Phases .awaitingFirstDrain .draining .pending
  | closed {main : MainPhase} (hmain : MainPhase.Unmanaged main) : Phases main .terminated .closed
  | reported {main : MainPhase} {task : DrainTask} (successful : Bool)
      (hmain : MainPhase.Unmanaged main) (htask : DrainTask.Live task) :
      Phases main task (.sent successful)
  | managed {main : MainPhase} {task : DrainTask} (hmain : main = .managing ∨ main = .joining)
      (htask : DrainTask.Live task) : Phases main task (.sent true)
  | joined : Phases (.returned true) .terminated (.sent true)

namespace Phases

variable {main : MainPhase} {task task' : DrainTask} {status : FirstDrainStatus}

theorem opening_inv (h : Phases .opening task status) : task = .unstarted ∧ status = .pending := by
  cases h with
  | opening => exact ⟨rfl, rfl⟩
  | closed hmain | reported _ hmain => rcases hmain with h | h <;> cases h
  | managed hmain => rcases hmain with h | h <;> cases h

theorem not_panicked (h : Phases main .panicked status) : False := by
  cases h with
  | reported _ _ htask | managed _ htask => rcases htask with h | h | h <;> cases h

/-- Once the main function has gone on, the first run has been successful. -/
theorem status_eq (h : Phases main task status)
    (hmain : main = .managing ∨ main = .joining ∨ main = .returned true) : status = .sent true := by
  cases h with
  | managed | joined => rfl
  | closed h | reported _ h =>
    rcases h with rfl | rfl <;> rcases hmain with h | h | h <;> cases h
  | _ => rcases hmain with h | h | h <;> cases h

theorem returned_inv (h : Phases (.returned true) task status) : task = .terminated := by
  cases h with
  | joined => rfl
  | closed h | reported _ h => rcases h with h | h <;> cases h
  | managed h => rcases h with h | h <;> cases h

theorem closed_inv (h : Phases main task .closed) : task = .terminated := by
  cases h
  rfl

theorem drainTick (h : Phases main .waiting status) : Phases main .draining status := by
  cases h with
  | firstWaiting => exact .firstDraining
  | reported successful hmain _ => exact .reported successful hmain (.inr (.inl rfl))
  | managed hmain _ => exact .managed hmain (.inr (.inl rfl))

/-- The first run of a process ends while the main function waits for its status. -/
theorem awaiting_of_pending (h : Phases main .draining .pending) : main = .awaitingFirstDrain := by
  cases h
  rfl

/-- Once the status has been sent, the draining task goes on in any way. -/
theorem later {successful : Bool} (h : Phases main task (.sent successful))
    (htask : DrainTask.Live task') (hmain : main ≠ .returned true) :
    Phases main task' (.sent successful) := by
  cases h with
  | reported _ h _ => exact .reported _ h htask
  | managed h _ => exact .managed h htask
  | joined => exact absurd rfl hmain

theorem endDrainTask (h : Phases main .waiting status) : Phases main .terminated status.close := by
  have hlive : DrainTask.Live .terminated := .inr (.inr rfl)
  cases h with
  | firstWaiting => exact .closed (.inl rfl)
  | reported successful hmain _ => exact .reported successful hmain hlive
  | managed hmain _ => exact .managed hmain hlive

theorem receiveStatus {successful clientCreated : Bool}
    (h : Phases .awaitingFirstDrain task (.sent successful)) :
    Phases (afterFirstDrain successful clientCreated) task (.sent successful) := by
  have htask : DrainTask.Live task := by
    cases h with
    | reported _ _ htask => exact htask
    | managed hmain => rcases hmain with h | h <;> cases h
  unfold afterFirstDrain
  cases successful with
  | false => exact .reported false (.inr rfl) htask
  | true =>
    cases clientCreated with
    | false => exact .reported true (.inr rfl) htask
    | true => exact .managed (.inl rfl) htask

theorem leaveManager (h : Phases .managing task status) : Phases .joining task status := by
  cases h with
  | managed _ htask => exact .managed (.inr rfl) htask
  | closed h | reported _ h => rcases h with h | h <;> cases h

theorem join (h : Phases .joining .terminated status) :
    Phases (.returned true) .terminated status := by
  rw [h.status_eq (.inr (.inl rfl))]
  exact .joined

end Phases

/-- What holds of every process, whatever the store it has started on. -/
structure Inv (g : Gateway) : Prop where
  phases : Phases g.main g.task g.status
  idle : g.task ≠ .draining → ∀ q, Finished (g.archive.drain q)
  terminated : g.task = .terminated → g.manager.shutdown = true
  started : g.manager.attempts ≠ [] ∨ g.sessions ≠ [] → g.status = .sent true
  numbered : g.sessions.length = g.manager.registered

theorem boot_inv {a : Archive} (h : ∀ q, Finished (a.drain q)) : (boot a).Inv where
  phases := .opening
  idle _ := h
  terminated := nofun
  started := by simp [boot, SessionsManager.initial]
  numbered := rfl

theorem finish_inv (applied : QueueTable → Bool) : (g.finish applied).Inv :=
  boot_inv fun _ => trivial

@[simp] theorem length_dropSessions (sessions : List HandlerTasks) (numbers : List ℕ) :
    (dropSessions sessions numbers).length = sessions.length := by
  simp [dropSessions]

theorem set_ne_nil {α : Type*} {xs : List α} {n : ℕ} {x : α} (h : xs.set n x ≠ []) : xs ≠ [] := by
  rintro rfl
  exact h rfl

/-- The end of a run leaves the store and the manager alone. -/
theorem endDrain_fields (g : Gateway) : g.endDrain.archive = g.archive ∧
    g.endDrain.manager = g.manager ∧ g.endDrain.sessions = g.sessions ∧
      g.endDrain.main = g.main := by
  unfold endDrain
  cases g.status with
  | pending =>
    dsimp only
    split_ifs <;> exact ⟨rfl, rfl, rfl, rfl⟩
  | sent successful => exact ⟨rfl, rfl, rfl, rfl⟩
  | closed => exact ⟨rfl, rfl, rfl, rfl⟩

/-- The first status is sent to a main function that waits for it. -/
theorem Inv.endDrain_cases (h : g.Inv) (htask : g.task = .draining) :
    g.endDrain.task = .waiting ∧ (g.status = .pending ∧ g.main = .awaitingFirstDrain ∧
      g.endDrain.status = .sent (drained (g.archive.drain .general) &&
        drained (g.archive.drain .operation)) ∨
      g.endDrain.status = g.status ∧ ∃ successful, g.status = .sent successful) := by
  have hphases := h.phases
  rw [htask] at hphases
  unfold endDrain
  cases hstatus : g.status with
  | pending =>
    rw [hstatus] at hphases
    have hmain := hphases.awaiting_of_pending
    simp [hmain]
  | sent successful => simp
  | closed =>
    rw [hstatus] at hphases
    cases hphases.closed_inv

theorem Inv.endDrain (h : g.Inv) (htask : g.task = .draining)
    (hend : ∀ q, Finished (g.archive.drain q)) : g.endDrain.Inv := by
  obtain ⟨harchive, hmanager, hsessions, hmain⟩ := endDrain_fields g
  obtain ⟨hwaiting, hcases⟩ := h.endDrain_cases htask
  have hphases := h.phases
  have hlive : DrainTask.Live .waiting := .inl rfl
  constructor
  · rw [hmain, hwaiting]
    rcases hcases with ⟨-, hawait, hsent⟩ | ⟨hsame, successful, hsent⟩
    · rw [hawait, hsent]
      exact .reported _ (.inl rfl) hlive
    · rw [hsame, hsent]
      rw [hsent] at hphases
      refine hphases.later hlive fun hret => ?_
      rw [hret] at hphases
      cases htask.symm.trans hphases.returned_inv
  · rw [harchive]
    exact fun _ => hend
  · rw [hwaiting]
    exact nofun
  · rw [hmanager, hsessions]
    intro hstarted
    rcases hcases with ⟨hpending, -⟩ | ⟨hsame, -⟩
    · cases hpending.symm.trans (h.started hstarted)
    · exact hsame.trans (h.started hstarted)
  · rw [hmanager, hsessions]
    exact h.numbered

/-- A shutdown is not withdrawn. -/
theorem manager_shutdown {m m' : SessionsManager} {l : SessionsManager.Label}
    (hs : SessionsManager.Step servers m l m') (h : m.shutdown = true) : m'.shutdown = true := by
  cases hs with
  | shutdown => rfl
  | _ => exact h

/-- Only the loop of the manager makes attempts, and only an attempt registers a session. -/
theorem manager_only {m m' : SessionsManager} {l : SessionsManager.Label}
    (hs : SessionsManager.Step servers m l m') (hl : ManagerOnly l) :
    m'.registered = m.registered ∧ (m'.attempts ≠ [] → InManager l ∨ m.attempts ≠ []) := by
  cases hs with
  | tick | register | stop => exact hl.elim
  | fail n =>
    refine ⟨rfl, fun hne => .inr fun hnil => hne ?_⟩
    show m.attempts.eraseIdx n = []
    rw [hnil]
    rfl
  | spawn | endTick | take | finish => exact ⟨rfl, fun _ => .inl trivial⟩
  | die | shutdown => exact ⟨rfl, .inr⟩

theorem Inv.status_of_managing (h : g.Inv) (hmain : g.main = .managing) : g.status = .sent true :=
  h.phases.status_eq (.inl hmain)

theorem Inv.manage (h : g.Inv) {m : SessionsManager} {l : SessionsManager.Label} (hl : ManagerOnly l)
    (hmain : InManager l → g.main = .managing) (hs : SessionsManager.Step servers g.manager l m) :
    Inv { g with manager := m } where
  phases := h.phases
  idle := h.idle
  terminated hterm := manager_shutdown hs (h.terminated hterm)
  started := by
    rintro (hattempts | hsessions)
    · rcases (manager_only hs hl).2 hattempts with hin | hold
      · exact h.status_of_managing (hmain hin)
      · exact h.started (.inl hold)
    · exact h.started (.inr hsessions)
  numbered := h.numbered.trans (manager_only hs hl).1.symm

theorem Inv.register (h : g.Inv) {n : ℕ} {v : TraceabilityHandler TraceabilityContext}
    (hn : g.manager.attempts[n]? = some v.serverId) (numbers : List ℕ) :
    Inv { g with
      manager := g.manager.register n v.serverId
      sessions := dropSessions g.sessions numbers ++ [HandlerTasks.install v] } where
  phases := h.phases
  idle := h.idle
  terminated := h.terminated
  started _ := h.started (.inl fun hnil => by simp [hnil] at hn)
  numbered := by simp [SessionsManager.register, h.numbered]

/-- A step of the tasks of a session concerns nothing but them. -/
theorem Inv.setSession (h : g.Inv) (n : ℕ) (s : HandlerTasks) :
    Inv { g with sessions := g.sessions.set n s } where
  phases := h.phases
  idle := h.idle
  terminated := h.terminated
  started hstarted := h.started (hstarted.imp id set_ne_nil)
  numbered := (List.length_set ..).trans h.numbered

/-- A step of the main function that goes on from the status of the first run. -/
theorem Inv.setMain (h : g.Inv) {main : MainPhase} (hphases : Phases main g.task g.status) :
    Inv { g with main } where
  phases := hphases
  idle := h.idle
  terminated := h.terminated
  started := h.started
  numbered := h.numbered

theorem Inv.step (h : g.Inv) (hs : Step D db F queuesThreshold servers g l g') : g'.Inv := by
  have hphases := h.phases
  cases hs with
  | openCache hmain =>
    rw [hmain] at hphases
    obtain ⟨htask, hstatus⟩ := hphases.opening_inv
    refine ⟨?_, fun _ => h.idle (by simp [htask]), nofun, h.started, h.numbered⟩
    show Phases .awaitingFirstDrain .waiting g.status
    rw [hstatus]
    exact .firstWaiting
  | openCacheFails hmain =>
    rw [hmain] at hphases
    obtain ⟨htask, hstatus⟩ := hphases.opening_inv
    refine h.setMain ?_
    rw [htask, hstatus]
    exact .unopened
  | drainTick htask hrun =>
    rw [htask] at hphases
    exact ⟨hphases.drainTick, fun hne => absurd rfl hne, nofun, h.started, h.numbered⟩
  | drain q i e k htask hcall =>
    exact ⟨hphases, fun hne => absurd htask hne, h.terminated, h.started, h.numbered⟩
  | endDrain htask hend => exact h.endDrain htask hend
  | endDrainTask htask hshutdown =>
    rw [htask] at hphases
    refine ⟨hphases.endDrainTask, fun _ => h.idle (by simp [htask]), fun _ => hshutdown, ?_,
      h.numbered⟩
    intro hstarted
    show g.status.close = .sent true
    rw [h.started hstarted]
    rfl
  | receiveStatus successful clientCreated hmain hstatus =>
    refine h.setMain ?_
    rw [hmain, hstatus] at hphases
    rw [hstatus]
    exact hphases.receiveStatus
  | receiveClosed hmain hstatus =>
    refine h.setMain ?_
    rw [hstatus] at hphases ⊢
    rw [hphases.closed_inv]
    exact .closed (.inr rfl)
  | managerTick m hmain hs =>
    cases hs
    exact ⟨hphases, h.idle, h.terminated, fun _ => h.status_of_managing hmain,
      (length_dropSessions ..).trans h.numbered⟩
  | manage l m hl hmain hs => exact h.manage hl hmain hs
  | register n v hn => exact h.register hn _
  | cancel n rest s hmain hphase hs => exact h.setSession n _
  | stop n rest s m hmain hphase hs hcancel hj hstop =>
    cases hstop
    exact ⟨hphases, h.idle, h.terminated, h.started, h.numbered⟩
  | notify n value s hs hlive => exact h.setSession n _
  | task n l s s' hl hs hstep => exact h.setSession n _
  | perform n s hd e k i hs hrun hcurrent hrest =>
    have h' := h.setSession n (s.reply hd e k (replyTo F queuesThreshold g.archive e i))
    exact ⟨h'.phases, h'.idle, h'.terminated, h'.started, h'.numbered⟩
  | leaveManager hmain hret =>
    rw [hmain] at hphases
    exact h.setMain hphases.leaveManager
  | join hmain htask =>
    rcases htask with htask | htask
    · refine h.setMain ?_
      rw [hmain, htask] at hphases
      rw [htask]
      exact hphases.join
    · rw [htask] at hphases
      exact hphases.not_panicked.elim
  | exit ok applied hmain => exact finish_inv applied
  | kill applied => exact finish_inv applied

theorem run_inv (hr : Run (Step D db F queuesThreshold servers) g ls g') (h : g.Inv) : g'.Inv :=
  hr.invariant (fun _ _ _ h hs => h.step hs) h

theorem initial_inv : initial.Inv := boot_inv fun _ => trivial

/-! ### Runs of the components -/

/-- A step of the gateway is a step of the archive or none. -/
theorem Inv.archive_step (h : g.Inv) (hs : Step D db F queuesThreshold servers g l g') :
    Run.OptStep (Archive.Step db F) g.archive l.archive g'.archive := by
  cases hs with
  | drainTick htask hrun => exact .tick _ (h.idle (by simp [htask]))
  | drain q i e k htask hcall => exact .drain _ q i e k hcall
  | endDrain htask hend => exact (endDrain_fields g).1
  | perform n s hd e k i hs hrun hcurrent hrest => exact serve_step _ e i
  | exit ok applied hmain => exact .crash _ applied
  | kill applied => exact .crash _ applied
  | _ => rfl

/-- A run of the gateway is a run of the archive; conditions on the steps carry over. -/
theorem run_archive {okG : Gateway → Label V → Prop} {okA : Archive → Archive.Label V → Prop}
    (hok : ∀ g l m, g.Inv → okG g l → l.archive = some m → okA g.archive m)
    (hr : Run (guarded (Step D db F queuesThreshold servers) okG) g ls g') (h : g.Inv) :
    Run (guarded (Archive.Step db F) okA) g.archive (ls.filterMap Label.archive) g'.archive := by
  have hr' := hr.strengthen (I := Inv) (fun _ _ _ h hs => h.step hs.1) h
  refine hr'.filterMap archive Label.archive fun g l g' hs => ?_
  have hstep := hs.2.archive_step hs.1.1
  cases hl : l.archive with
  | none => rwa [hl] at hstep
  | some m =>
    rw [hl] at hstep
    exact ⟨hstep, hok g l m hs.2 hs.1.2 hl⟩

/-- Each queue of the gateway is an outbox. -/
theorem run_outbox (hr : Run (Step D db F queuesThreshold servers) initial ls g) {q : QueueTable}
    (hb : (g.archive.saved q).length ≤ 2 ^ 63) :
    ∃ o, Refines db q g.archive o ∧ Outbox.Inv o := by
  have hr' : Run (guarded (Step D db F queuesThreshold servers) fun _ _ => True) initial ls g :=
    hr.mono fun _ _ _ hs => ⟨hs, trivial⟩
  have harchive : Run (guarded (Archive.Step db F) fun _ _ => True) .initial _ g.archive :=
    run_archive (fun _ _ _ _ _ _ => trivial) hr' initial_inv
  exact reachable_refines harchive.of_guarded hb

/-- Within a process, a step of the gateway is a step of the manager or none. -/
theorem Step.manager_step (hs : Step D db F queuesThreshold servers g l g') (hl : ¬ l.Ends) :
    Run.OptStep (SessionsManager.Step servers) g.manager l.manager g'.manager := by
  cases hs with
  | endDrain htask hend => exact (endDrain_fields g).2.1
  | managerTick m hmain hs => exact hs
  | manage l m hl hmain hs => exact hs
  | register n v hn => exact .register _ n v.serverId hn
  | stop n rest s m hmain hphase hs hcancel hj hstop => exact hstop
  | exit ok applied hmain => exact absurd trivial hl
  | kill applied => exact absurd trivial hl
  | _ => rfl

/-- A run of the gateway within a process is a run of the manager; conditions carry over. -/
theorem run_manager {okG : Gateway → Label V → Prop}
    {okM : SessionsManager → SessionsManager.Label → Prop} (hends : ∀ g l, okG g l → ¬ l.Ends)
    (hok : ∀ g l m, okG g l → l.manager = some m → okM g.manager m)
    (hr : Run (guarded (Step D db F queuesThreshold servers) okG) g ls g') :
    Run (guarded (SessionsManager.Step servers) okM) g.manager (ls.filterMap Label.manager)
      g'.manager := by
  refine hr.filterMap manager Label.manager fun g l g' hs => ?_
  have hstep := hs.1.manager_step (hends g l hs.2)
  cases hl : l.manager with
  | none => rwa [hl] at hstep
  | some m =>
    rw [hl] at hstep
    exact ⟨hstep, hok g l m hs.2 hl⟩

/-- The tasks of every session have run from their installation. -/
def Installed (D : DecimalClass) (g : Gateway) : Prop :=
  ∀ s ∈ g.sessions, ∃ ls, Run (HandlerTasks.Step D) (HandlerTasks.install s.handler) ls s

theorem Installed.set (h : g.Installed D) {n : ℕ} {s s' : HandlerTasks} {l : HandlerTasks.Label}
    (hs : g.sessions[n]? = some s) (hstep : HandlerTasks.Step D s l s') :
    ∀ t ∈ g.sessions.set n s',
      ∃ ls, Run (HandlerTasks.Step D) (HandlerTasks.install t.handler) ls t := by
  intro t ht
  rcases List.mem_or_eq_of_mem_set ht with ht | rfl
  · exact h t ht
  · obtain ⟨ls, hr⟩ := h s (List.mem_of_getElem? hs)
    exact ⟨ls ++ [l], hstep.handler_eq ▸ hr.snoc hstep⟩

/-- Dropped sessions have taken the step that drops them. -/
theorem Installed.drop (h : g.Installed D) (numbers : List ℕ) :
    ∀ t ∈ dropSessions g.sessions numbers,
      ∃ ls, Run (HandlerTasks.Step D) (HandlerTasks.install t.handler) ls t := by
  intro t ht
  obtain ⟨n, hn, rfl⟩ := List.mem_mapIdx.mp ht
  obtain ⟨ls, hr⟩ := h _ (List.getElem_mem hn)
  split_ifs
  · exact ⟨ls ++ [.drop], hr.snoc (.drop _)⟩
  · exact ⟨ls, hr⟩

theorem Installed.step (h : g.Installed D) (hs : Step D db F queuesThreshold servers g l g') :
    g'.Installed D := by
  cases hs with
  | endDrain htask hend =>
    intro s hs
    rw [(endDrain_fields g).2.2.1] at hs
    exact h s hs
  | managerTick m hmain hs => exact h.drop _
  | register n v hn =>
    intro s hs
    rcases List.mem_append.mp hs with hs | hs
    · exact h.drop _ s hs
    · cases List.mem_singleton.mp hs
      exact ⟨[], .nil _⟩
  | cancel n rest s hmain hphase hs => exact h.set hs (.cancel s)
  | notify n value s hs hlive => exact h.set hs (.notify s value)
  | task n l s s' hl hs hstep => exact h.set hs hstep
  | perform n s hd e k i hs hrun hcurrent hrest => exact h.set hs (.reply s hd e k _ hrun hcurrent hrest)
  | exit ok applied hmain => exact fun s hs => nomatch hs
  | kill applied => exact fun s hs => nomatch hs
  | _ => exact h

theorem run_installed (hr : Run (Step D db F queuesThreshold servers) g ls g')
    (h : g.Installed D) : g'.Installed D :=
  hr.invariant (fun _ _ _ h hs => h.step hs) h

/-- The manager of the process has run from its start. -/
theorem run_manager_reachable (hr : Run (Step D db F queuesThreshold servers) g ls g')
    (h : Reachable (SessionsManager.Step servers) .initial g.manager) :
    Reachable (SessionsManager.Step servers) .initial g'.manager := by
  refine hr.invariant (I := fun g => Reachable (SessionsManager.Step servers) .initial g.manager)
    (fun g l g' h hs => ?_) h
  by_cases hl : l.Ends
  · have hmanager : g'.manager = .initial := by
      cases hs with
      | exit | kill => rfl
      | _ => exact hl.elim
    rw [hmanager]
    exact ⟨[], .nil _⟩
  · obtain ⟨ms, hms⟩ := h
    have hstep := hs.manager_step hl
    cases hm : l.manager with
    | none =>
      rw [hm] at hstep
      have hsame : g'.manager = g.manager := hstep
      exact ⟨ms, hsame ▸ hms⟩
    | some m =>
      rw [hm] at hstep
      exact ⟨ms ++ [m], hms.snoc hstep⟩

/-! ### Conditions on steps -/

/-- Acknowledgements tell the truth and removals succeed; a process that does not end with a
successful return ends neither in between the two nor with an insertion that is applied. -/
def Graceful (g : Gateway) : Label V → Prop
  | .drain q i => Archive.Clean g.archive (.drain q i : Archive.Label V)
  | .exit applied =>
    g.main = .returned true ∨ Archive.Clean g.archive (.crash applied : Archive.Label V)
  | .kill applied => Archive.Clean g.archive (.crash applied : Archive.Label V)
  | _ => True

/-- The steps of a process whose attempts register in time. -/
def InTime (g : Gateway) (l : Label V) : Prop :=
  ¬ l.Ends ∧ ∀ m, l.manager = some m → g.manager.InTime m

/-! ### The start of a process -/

/-- The start of a process up to the first tick of the manager. -/
def tickLabels : List (Label plainCodec) :=
  [.openCache, .drainTick, .drain .general faultless, .drain .operation faultless,
    .drain .operation faultless, .drain .general faultless, .drain .general faultless,
    .drain .operation faultless, .endDrain, .receiveStatus true, .manage .tick]

/-- The start of a process up to the first attempt of a session. -/
def startLabels : List (Label plainCodec) := tickLabels ++ [.manage .spawn]

/-- A process whose manager runs, between two runs of the draining task. -/
def managing (a : Archive) (m : SessionsManager) (sessions : List HandlerTasks) : Gateway :=
  ⟨a, .managing, .waiting, .sent true, m, sessions⟩

/-- The manager with one attempt to be spawned. -/
def ticked : SessionsManager :=
  { SessionsManager.initial with phase := .spawning ["MAC1".toList] }

/-- The manager with one attempt on its way. -/
def attempting : SessionsManager :=
  { SessionsManager.initial with attempts := ["MAC1".toList], phase := .spawning [] }

variable (queuesThreshold) in
theorem tickLabels_run : ∃ a, Run (guarded (Step asciiDecimal sampleDatabase epochFormat
    queuesThreshold ["MAC1".toList]) fun g l => Graceful g l ∧ InTime g l) initial tickLabels
        (managing a ticked []) ∧ a.store.total = 0 ∧ ∀ q, a.saved q = [] := by
  have hnone : ∀ {g : Gateway} {l : Label plainCodec}, ¬ l.Ends → l.manager = none → InTime g l :=
    fun hl hm => ⟨hl, fun m h => nomatch hm.symm.trans h⟩
  exact ⟨_, .cons ⟨.openCache _ rfl, trivial, hnone id rfl⟩ <|
    .cons ⟨.drainTick _ rfl rfl, trivial, hnone id rfl⟩ <|
    .cons ⟨.drain _ .general _ _ _ rfl rfl, trivial, hnone id rfl⟩ <|
    .cons ⟨.drain _ .operation _ _ _ rfl rfl, trivial, hnone id rfl⟩ <|
    .cons ⟨.drain _ .operation _ _ _ rfl rfl, .inl rfl, hnone id rfl⟩ <|
    .cons ⟨.drain _ .general _ _ _ rfl rfl, .inl rfl, hnone id rfl⟩ <|
    .cons ⟨.drain _ .general _ _ _ rfl rfl, rfl, hnone id rfl⟩ <|
    .cons ⟨.drain _ .operation _ _ _ rfl rfl, rfl, hnone id rfl⟩ <|
    .cons ⟨.endDrain _ rfl (by rintro (_ | _) <;> trivial), trivial, hnone id rfl⟩ <|
    .cons ⟨.receiveStatus _ true true rfl rfl, trivial, hnone id rfl⟩ <|
    .cons ⟨.managerTick _ _ rfl (.tick _ rfl rfl), trivial, id, by rintro m ⟨⟩; trivial⟩ <|
    .nil _, rfl, fun _ => rfl⟩

variable (queuesThreshold) in
theorem startLabels_run : ∃ a, Run (guarded (Step asciiDecimal sampleDatabase epochFormat
    queuesThreshold ["MAC1".toList]) fun g l => Graceful g l ∧ InTime g l) initial startLabels
        (managing a attempting []) ∧ a.store.total = 0 ∧ ∀ q, a.saved q = [] := by
  obtain ⟨a, hr, ha⟩ := tickLabels_run queuesThreshold
  refine ⟨a, hr.snoc ⟨.manage _ .spawn _ trivial (fun _ => rfl) (.spawn _ _ _ rfl), trivial, id, ?_⟩,
    ha⟩
  rintro m ⟨⟩
  trivial

/-! ### The components of a run -/

/-- Every run of the gateway is, for the store and the database, the run of the archive with
the labels it maps to; its manager has run from its start, and the tasks of each session from
their installation. -/
theorem components_run (hr : Run (Step D db F queuesThreshold servers) initial ls g) :
    Run (Archive.Step db F) .initial (ls.filterMap Label.archive) g.archive ∧
      Reachable (SessionsManager.Step servers) .initial g.manager ∧
        ∀ s ∈ g.sessions, Reachable (HandlerTasks.Step D) (.install s.handler) s := by
  have hr' : Run (guarded (Step D db F queuesThreshold servers) fun _ _ => True) initial ls g :=
    hr.mono fun _ _ _ hs => ⟨hs, trivial⟩
  have harchive : Run (guarded (Archive.Step db F) fun _ _ => True) .initial
      (ls.filterMap Label.archive) g.archive :=
    run_archive (fun _ _ _ _ _ _ => trivial) hr' initial_inv
  exact ⟨harchive.of_guarded, run_manager_reachable hr ⟨[], .nil _⟩,
    run_installed hr fun s hs => nomatch hs⟩

/-- A session registers, and begins to handle its first notification. -/
def handlingLabels : List (Label plainCodec) :=
  startLabels ++ [.register 0 Creations.sampleHandler, .notify 0 ⟨some (.byte 3), none⟩,
    .task 0 .next]

/-- The process is killed with a session at work. -/
theorem components_run_killed : ∃ (g g' : Gateway) (s : HandlerTasks),
    Run (Step asciiDecimal sampleDatabase epochFormat 10 ["MAC1".toList]) initial handlingLabels g ∧
      g.sessions = [s] ∧ s.current.isSome ∧
      Reachable (HandlerTasks.Step asciiDecimal) (.install s.handler) s ∧
      g.manager.registry.entries = [("MAC1".toList, 0)] ∧
      Reachable (SessionsManager.Step ["MAC1".toList]) .initial g.manager ∧
      Run (Step asciiDecimal sampleDatabase epochFormat 10 ["MAC1".toList]) g
        [(.kill fun _ => true : Label plainCodec)] g' ∧
      Run (Archive.Step (V := plainCodec) sampleDatabase epochFormat) .initial
        [.tick, .drain .general faultless, .drain .operation faultless,
          .drain .operation faultless, .drain .general faultless, .drain .general faultless,
          .drain .operation faultless, .crash fun _ => true] g'.archive := by
  obtain ⟨a, hstart, -⟩ := startLabels_run 10
  have hrest : ∃ (g : Gateway) (s : HandlerTasks), Run (Step asciiDecimal sampleDatabase epochFormat
      10 ["MAC1".toList]) (managing a attempting [])
        [.register 0 Creations.sampleHandler, .notify 0 ⟨some (.byte 3), none⟩,
          (.task 0 .next : Label plainCodec)] g ∧
        g.sessions = [s] ∧ s.current.isSome ∧ g.manager.registry.entries = [("MAC1".toList, 0)] :=
    ⟨_, _, .cons (.register _ 0 _ rfl) <| .cons (.notify _ 0 _ _ rfl rfl) <|
      .cons (.task _ 0 .next _ _ trivial rfl (.next _ _ _ rfl rfl rfl rfl)) <| .nil _,
      rfl, rfl, rfl⟩
  obtain ⟨g, s, hrest, hsessions, hcurrent, hregistry⟩ := hrest
  have hr := hstart.of_guarded.append hrest
  have hkill : Run (Step asciiDecimal sampleDatabase epochFormat 10 ["MAC1".toList]) g
      [(.kill fun _ => true : Label plainCodec)] _ := .cons (.kill g _) (.nil _)
  obtain ⟨-, hmanager, htasks⟩ := components_run hr
  exact ⟨g, _, s, hr, hsessions, hcurrent, htasks s (hsessions ▸ List.mem_singleton_self s),
    hregistry, hmanager, hkill, (components_run (hr.append hkill)).1⟩

end Gateway

end LineGateway

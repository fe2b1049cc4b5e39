import LineGateway.Gateway.Durability

/-! The end of a process. The draining task looks at the shutdown between two runs only, and
the main function joins it: so when the main function returns successfully no batch is on its
way, and processes that end so deliver every row exactly once. The manager stops the sessions
before: their requests are answered to the end, unless a session was dropped as dead. -/

namespace LineGateway

open Foundation Config Opcua Traceability

namespace Gateway

variable {V : VariantCodec} {D : DecimalClass} {db : TraceabilityDatabase} {F : RowFormat}
  {queuesThreshold : ℕ} {servers : List Text} {g g' : Gateway} {l : Label V}
  {ls : List (Label V)} {a : Archive} {q : QueueTable}

/-! ### Delivery -/

/-- Nothing is in flight when the drains rest. -/
theorem crash_of_finished (h : ∀ q, Finished (a.drain q)) (applied applied' : QueueTable → Bool) :
    a.crash applied = a.crash applied' := by
  have hnone : ∀ q, inFlight (a.drain q) = none := by
    intro q
    have hq := h q
    cases hp : a.drain q with
    | call e k => rw [hp] at hq; exact hq.elim
    | _ => rfl
  simp [Archive.crash, hnone]

theorem clean_of_finished (h : ∀ q, Finished (a.drain q)) :
    Archive.Clean a (.crash fun _ => false : Archive.Label V) := by
  intro q
  refine ⟨rfl, fun hremoving => ?_⟩
  have hq := h q
  cases hp : a.drain q with
  | call e k => rw [hp] at hq; exact hq
  | _ => rw [hp] at hremoving; exact hremoving

theorem clean_of_effect {e : HandlerEffect} {i : HandlerInput V e} {m : Archive.Label V}
    (h : effectLabel e i = some m) : a.Clean m := by
  unfold effectLabel at h
  split at h <;> cases h <;> trivial

/-- When the main function has returned successfully, the drains rest. -/
theorem Inv.finished_of_returned (h : g.Inv) (hmain : g.main = .returned true) (q : QueueTable) :
    Finished (g.archive.drain q) := by
  have hphases := h.phases
  rw [hmain] at hphases
  exact h.idle (by rw [hphases.returned_inv]; exact nofun) q

/-- What a graceful step is for the archive: nothing is applied at the end of a process. -/
def Label.graceful : Label V → Option (Archive.Label V)
  | .exit _ | .kill _ => some (.crash fun _ => false)
  | l => l.archive

/-- The end of a process comes between an acknowledgement and its removal in no case. -/
theorem Inv.crash_clean (h : g.Inv) {applied : QueueTable → Bool}
    (hl : g.main = .returned true ∨ Archive.Clean g.archive (.crash applied : Archive.Label V)) :
    guarded (Archive.Step (V := V) db F) Archive.Clean g.archive (.crash fun _ => false)
      (g.finish applied).archive := by
  rcases hl with hmain | hclean
  · have hfin := h.finished_of_returned hmain
    have hsame : (g.finish applied).archive = g.archive.crash fun _ => false :=
      crash_of_finished hfin _ _
    rw [hsame]
    exact ⟨.crash _ _, clean_of_finished hfin⟩
  · have hfalse : applied = fun _ => false := funext fun q => (hclean q).1
    rw [hfalse] at hclean ⊢
    exact ⟨.crash _ _, hclean⟩

/-- A graceful step is a clean step of the archive or none. -/
theorem Inv.graceful_step (h : g.Inv) (hs : Step D db F queuesThreshold servers g l g')
    (hl : Graceful g l) : Run.OptStep (guarded (Archive.Step (V := V) db F) Archive.Clean) g.archive
      l.graceful g'.archive := by
  have hstep := h.archive_step hs
  cases l with
  | exit applied =>
    cases hs
    exact h.crash_clean hl
  | kill applied =>
    cases hs
    exact h.crash_clean (.inr hl)
  | drain q i => exact ⟨hstep, hl⟩
  | drainTick => exact ⟨hstep, trivial⟩
  | perform n e i =>
    have heffect : Run.OptStep (Archive.Step (V := V) db F) g.archive (effectLabel e i) g'.archive :=
      hstep
    show Run.OptStep _ g.archive (effectLabel e i) g'.archive
    cases hm : effectLabel e i with
    | none => rwa [hm] at heffect
    | some m =>
      rw [hm] at heffect
      exact ⟨heffect, clean_of_effect hm⟩
  | _ => exact hstep

theorem run_graceful (hr : Run (guarded (Step D db F queuesThreshold servers) Graceful) g ls g')
    (h : g.Inv) : Run (guarded (Archive.Step db F) Archive.Clean) g.archive
      (ls.filterMap Label.graceful) g'.archive := by
  have hr' := hr.strengthen (I := Inv) (fun _ _ _ h hs => h.step hs.1) h
  exact hr'.filterMap archive Label.graceful fun g l g' hs => hs.2.graceful_step hs.1.1 hs.1.2

/-- Across any number of processes that end gracefully, whatever else they do, every row is
delivered exactly once; and when a main function has returned successfully, no row is
acknowledged and still queued. -/
theorem graceful_delivery
    (hr : Run (guarded (Step D db F queuesThreshold servers) Graceful) initial ls g)
    (hb : ∀ q, (g.archive.saved q).length ≤ 2 ^ 63) :
    ∀ q, ExactlyOnce g.archive q ∧
      (g.main = .returned true → ∃ batches : List (List Text),
        g.archive.acknowledged q = batches.map Text.framed ∧
          g.archive.applied q = g.archive.acknowledged q ∧
            batches.flatten ++ (g.archive.store.rows q).values = g.archive.saved q) := by
  intro q
  obtain ⟨es, o, hrun, href, -⟩ := run_refines Outbox.Clean
    (fun a l o e hok hc _ => hc hok) (run_graceful hr initial_inv) (initial_refines db q)
      Outbox.initial_inv (hb q)
  have hexact := href.exactlyOnce (Outbox.run_exact hrun Outbox.initial_exact)
  refine ⟨hexact, fun hmain => ?_⟩
  have hfin := (run_inv hr.of_guarded initial_inv).finished_of_returned hmain q
  have hnone : awaitingRemoval (g.archive.drain q) = 0 := by
    cases hp : g.archive.drain q with
    | call e k => rw [hp] at hfin; exact hfin.elim
    | _ => rfl
  obtain ⟨batches, hack, happ, hflat⟩ := hexact
  rw [hnone, List.drop_zero] at hflat
  exact ⟨batches, hack, happ, hflat⟩

/-! ### The sessions -/

/-- A session stopped has been joined, one whose tasks are dropped is dropped as dead, and the
manager has returned before the main function. -/
structure Stopped (g : Gateway) : Prop where
  joined : ∀ n ∈ g.manager.stopped, ∃ s, g.sessions[n]? = some s ∧ s.Joined
  dropped : ∀ n s, g.sessions[n]? = some s → s.dropped = true → n ∈ g.manager.droppedDead
  returned : g.main = .joining ∨ g.main = .returned true → g.manager.phase = .returned

theorem getElem?_dropSessions (sessions : List HandlerTasks) (numbers : List ℕ) (n : ℕ) :
    (dropSessions sessions numbers)[n]? = sessions[n]?.map fun s =>
      if n ∈ numbers then { s with dropped := true } else s := by
  simp [dropSessions]

/-- Dropping tasks does not bring back those that are over. -/
theorem joined_dropSessions {sessions : List HandlerTasks} {n : ℕ} (numbers : List ℕ)
    (h : ∃ s, sessions[n]? = some s ∧ s.Joined) :
    ∃ s, (dropSessions sessions numbers)[n]? = some s ∧ s.Joined := by
  obtain ⟨s, hs, hj⟩ := h
  rw [getElem?_dropSessions, hs]
  refine ⟨_, rfl, ?_⟩
  split_ifs <;> exact hj

/-- A session whose tasks are dropped had been so before, or is dropped now. -/
theorem dropped_dropSessions {sessions : List HandlerTasks} {numbers : List ℕ} {n : ℕ}
    {s : HandlerTasks} (hs : (dropSessions sessions numbers)[n]? = some s)
    (hdropped : s.dropped = true) :
    n ∈ numbers ∨ ∃ s', sessions[n]? = some s' ∧ s'.dropped = true := by
  rw [getElem?_dropSessions] at hs
  obtain ⟨s', hs', rfl⟩ := Option.map_eq_some_iff.mp hs
  by_cases hmem : n ∈ numbers
  · exact .inl hmem
  · rw [if_neg hmem] at hdropped
    exact .inr ⟨s', hs', hdropped⟩

/-- A step of the tasks of a session. -/
theorem Stopped.set (h : g.Stopped) {n : ℕ} {s s' : HandlerTasks} {l : HandlerTasks.Label}
    (hs : g.sessions[n]? = some s) (hstep : HandlerTasks.Step D s l s') (hl : l ≠ .drop) :
    Stopped { g with sessions := g.sessions.set n s' } where
  joined m hm := by
    obtain ⟨t, ht, hj⟩ := h.joined m hm
    by_cases hmn : n = m
    · subst hmn
      have hlt : n < g.sessions.length := (List.getElem?_eq_some_iff.mp hs).1
      cases hs.symm.trans ht
      exact ⟨s', by simp [hlt], (hstep.of_joined hj).1⟩
    · exact ⟨t, by simpa [List.getElem?_set_ne hmn] using ht, hj⟩
  dropped m t ht hdropped := by
    by_cases hmn : n = m
    · subst hmn
      have hlt : n < g.sessions.length := (List.getElem?_eq_some_iff.mp hs).1
      have hts : s' = t := by simpa [hlt] using ht
      subst hts
      exact h.dropped n s hs ((hstep.dropped_eq hl).symm.trans hdropped)
    · exact h.dropped m t (by simpa [List.getElem?_set_ne hmn] using ht) hdropped
  returned := h.returned

theorem Stopped.tick (h : g.Stopped) (hmain : g.main = .managing) :
    Stopped { g with
      manager := g.manager.tick servers
      sessions := dropSessions g.sessions
        (g.manager.registry.values.filter g.manager.isFinished) } where
  joined m hm := joined_dropSessions _ (h.joined m hm)
  dropped m t ht hdropped := by
    rcases dropped_dropSessions ht hdropped with hnow | ⟨s, hs, hbefore⟩
    · exact List.mem_append_right _ hnow
    · exact List.mem_append_left _ (h.dropped m s hs hbefore)
  returned hret := by
    rw [hmain] at hret
    rcases hret with h | h <;> cases h

/-- A session that registers in time replaces a dead one at most. -/
theorem Stopped.register (h : g.Stopped) {n : ℕ} {v : TraceabilityHandler TraceabilityContext}
    (hdead : ∀ session, g.manager.registry.get v.serverId = some session →
      g.manager.isFinished session) :
    Stopped { g with
      manager := g.manager.register n v.serverId
      sessions := dropSessions g.sessions (g.manager.registry.get v.serverId).toList ++
        [HandlerTasks.install v] } where
  joined m hm := by
    obtain ⟨s, hs, hj⟩ := joined_dropSessions (g.manager.registry.get v.serverId).toList
      (h.joined m hm)
    have hlt := (List.getElem?_eq_some_iff.mp hs).1
    exact ⟨s, by rwa [List.getElem?_append_left hlt], hj⟩
  dropped m t ht hdropped := by
    rw [List.getElem?_append] at ht
    split_ifs at ht with hlt
    · rcases dropped_dropSessions ht hdropped with hnow | ⟨s, hs, hbefore⟩
      · refine List.mem_append_right _ (List.mem_filter.mpr ⟨hnow, ?_⟩)
        exact hdead m (Option.mem_toList.mp hnow)
      · exact List.mem_append_left _ (h.dropped m s hs hbefore)
    · cases List.mem_singleton.mp (List.mem_of_getElem? ht)
      cases hdropped
  returned := h.returned

/-- A step that concerns neither the manager nor a session. -/
theorem Stopped.congr (h : g.Stopped) (hmanager : g'.manager = g.manager)
    (hsessions : g'.sessions = g.sessions)
    (hmain : g'.main = .joining ∨ g'.main = .returned true → g'.main = g.main) : g'.Stopped where
  joined n hn := by
    rw [hmanager] at hn
    rw [hsessions]
    exact h.joined n hn
  dropped n s hs hdropped := by
    rw [hsessions] at hs
    rw [hmanager]
    exact h.dropped n s hs hdropped
  returned hret := by
    rw [hmanager]
    have hsame := hmain hret
    rw [hsame] at hret
    exact h.returned hret

theorem Stopped.manage (h : g.Stopped) {m : SessionsManager} {l : SessionsManager.Label}
    (hl : ManagerOnly l) (hmain : InManager l → g.main = .managing)
    (hs : SessionsManager.Step servers g.manager l m) : Stopped { g with manager := m } := by
  have hnot : g.main = .managing → ¬ (g.main = .joining ∨ g.main = .returned true) := by
    intro hm hor
    rw [hm] at hor
    rcases hor with h | h <;> cases h
  cases hs with
  | tick | register | stop => exact hl.elim
  | spawn | endTick | take | finish =>
    exact ⟨h.joined, h.dropped, fun hret => absurd hret (hnot (hmain trivial))⟩
  | fail | die | shutdown => exact ⟨h.joined, h.dropped, h.returned⟩

/-- A session is stopped once its tasks have been joined. -/
theorem Stopped.stop (h : g.Stopped) {n : ℕ} {rest : List ℕ} {s : HandlerTasks}
    {m : SessionsManager} (hphase : g.manager.phase = .stopping (n :: rest))
    (hmain : g.main = .managing) (hs : g.sessions[n]? = some s) (hj : s.Joined)
    (hstop : SessionsManager.Step servers g.manager .stop m) :
    Stopped { g with manager := m } := by
  cases hstop with
  | stop session rest' hphase' =>
    cases hphase.symm.trans hphase'
    refine ⟨fun k hk => ?_, h.dropped, fun hret => ?_⟩
    · rcases List.mem_append.mp hk with hk | hk
      · exact h.joined k hk
      · cases List.mem_singleton.mp hk
        exact ⟨s, hs, hj⟩
    · rw [hmain] at hret
      rcases hret with h | h <;> cases h

theorem Stopped.step (h : g.Stopped) (hl : InTime g l)
    (hs : Step D db F queuesThreshold servers g l g') : g'.Stopped := by
  cases hs with
  | managerTick m hmain hs =>
    cases hs
    exact h.tick hmain
  | manage l m hlm hmain hs => exact h.manage hlm hmain hs
  | register n v hn => exact h.register ((hl.2 _ rfl).2 v.serverId · hn)
  | cancel n rest s hmain hphase hs => exact h.set hs (HandlerTasks.Step.cancel (D := D) s) nofun
  | stop n rest s m hmain hphase hs hcancel hj hstop => exact h.stop hphase hmain hs hj hstop
  | notify n value s hs hlive => exact h.set hs (HandlerTasks.Step.notify (D := D) s value) nofun
  | task n l s s' hlt hs hstep => exact h.set hs hstep (by rintro rfl; exact hlt)
  | perform n s hd e k i hs hrun hcurrent hrest =>
    have h' := h.set hs (HandlerTasks.Step.reply (D := D) s hd e k
      (replyTo F queuesThreshold g.archive e i) hrun hcurrent hrest) nofun
    exact ⟨h'.joined, h'.dropped, h'.returned⟩
  | leaveManager hmain hret => exact ⟨h.joined, h.dropped, fun _ => hret⟩
  | join hmain htask => exact ⟨h.joined, h.dropped, fun _ => h.returned (.inl hmain)⟩
  | exit ok applied hmain => exact absurd trivial hl.1
  | kill applied => exact absurd trivial hl.1
  | endDrain htask hend =>
    obtain ⟨-, hmanager, hsessions, hmain⟩ := endDrain_fields g
    exact h.congr hmanager hsessions fun _ => hmain
  | openCache | openCacheFails | receiveClosed =>
    refine h.congr rfl rfl fun hret => ?_
    rcases hret with h | h <;> cases h
  | receiveStatus successful clientCreated hmain hstatus =>
    refine h.congr rfl rfl fun hret => ?_
    cases successful <;> cases clientCreated <;> rcases hret with h | h <;> cases h
  | drainTick | drain | endDrainTask => exact h.congr rfl rfl fun _ => rfl

theorem boot_stopped : (boot a).Stopped where
  joined := by simp [boot, SessionsManager.initial]
  dropped := by simp [boot]
  returned := by
    rintro (h | h) <;> cases h

theorem run_stopped (hr : Run (guarded (Step D db F queuesThreshold servers) InTime) (boot a) ls g) :
    g.Stopped :=
  hr.invariant (fun _ _ _ h hs => h.step hs.2 hs.1) boot_stopped

/-- When the main function returns successfully, in a process whose attempts register in time,
every session has been dropped as dead or its tasks have been joined, with every notification
begun handled to the end. -/
theorem returned_completed
    (hr : Run (guarded (Step D db F queuesThreshold servers) InTime) (boot a) ls g)
    (hrest : ∀ q, Finished (a.drain q)) (hmain : g.main = .returned true) :
    ∀ n s, g.sessions[n]? = some s → n ∈ g.manager.droppedDead ∨ s.Joined ∧
      s.Completed D s.handler ∧
        ∀ hd ∈ s.handled, hd.Ended D s.handler (.returned ()) := by
  intro n s hs
  have hstopped := run_stopped hr
  have hinv : g.Inv := run_inv hr.of_guarded (boot_inv hrest)
  obtain ⟨ls', hr'⟩ := run_installed hr.of_guarded (g := boot a) (fun s hs => nomatch hs) s
    (List.mem_of_getElem? hs)
  obtain ⟨hrequest, -⟩ := HandlerTasks.run_inv hr'
  obtain ⟨haccounted, hclosed⟩ := SessionsManager.run_accounted
    (run_manager (fun _ _ h => h.1) (fun _ _ m h => h.2 m) hr)
  have hphase := hstopped.returned (.inr hmain)
  by_cases hdead : n ∈ g.manager.droppedDead
  · exact .inl hdead
  · right
    have hlt : n < g.manager.registered :=
      hinv.numbered ▸ (List.getElem?_eq_some_iff.mp hs).1
    have hn : n ∈ g.manager.stopped := by
      have hn := haccounted n hlt
      rw [hclosed.empty (SessionsManager.not_beforeTake (.inl hphase)), hphase] at hn
      rcases hn with hn | hn | hn | hn
      · exact hn
      · exact absurd hn hdead
      · cases hn
      · cases hn
    obtain ⟨t, ht, hj⟩ := hstopped.joined n hn
    cases hs.symm.trans ht
    have hdropped : s.dropped = false := by
      by_contra hne
      exact hdead (hstopped.dropped n s hs (by simpa using hne))
    exact ⟨hj, hrequest.completed hj hdropped, fun hd hmem => hrequest.ended hmem⟩

/-- A session registers and answers a reset; then comes the shutdown. The draining task and the
manager end, with the session stopped, and the main function returns. -/
def stoppingLabels : List (Label plainCodec) :=
  [.register 0 Creations.sampleHandler, .manage .endTick, .notify 0 ⟨some (.byte 0), none⟩,
    .task 0 .next, .manage .shutdown, .endDrainTask, .manage .take, .cancel,
    .perform 0 (.write [⟨.new 1 2, .byte 0⟩]) (.ok [.good]), .task 0 .finish, .task 0 .endRequests,
    .task 0 .endBeats, .manage .stop, .manage .finish, .leaveManager, .join]

theorem stoppingLabels_run (a : Archive) : ∃ g', Run (guarded (Step asciiDecimal sampleDatabase
    epochFormat 10 ["MAC1".toList]) fun g l => Graceful g l ∧ InTime g l) (managing a attempting [])
      stoppingLabels g' ∧ g'.main = .returned true ∧ g'.manager.droppedDead = [] ∧
        ∃ s, g'.sessions[0]? = some s ∧ s.handled.length = 1 := by
  have hnone : ∀ {g : Gateway} {l : Label plainCodec}, ¬ l.Ends → l.manager = none → InTime g l :=
    fun hl hm => ⟨hl, fun m h => nomatch hm.symm.trans h⟩
  refine ⟨_, .cons ⟨.register _ 0 _ rfl, trivial, id, ?_⟩ <|
    .cons ⟨.manage _ .endTick _ trivial (fun _ => rfl) (.endTick _ rfl), trivial, id,
      by rintro m ⟨⟩; trivial⟩ <|
    .cons ⟨.notify _ 0 _ _ rfl rfl, trivial, hnone id rfl⟩ <|
    .cons ⟨.task _ 0 .next _ _ trivial rfl (.next _ _ _ rfl rfl rfl rfl), trivial, hnone id rfl⟩ <|
    .cons ⟨.manage _ .shutdown _ trivial nofun (.shutdown _), trivial, id,
      by rintro m ⟨⟩; trivial⟩ <|
    .cons ⟨.endDrainTask _ rfl rfl, trivial, hnone id rfl⟩ <|
    .cons ⟨.manage _ .take _ trivial (fun _ => rfl) (.take _ rfl rfl), trivial, id,
      by rintro m ⟨⟩; trivial⟩ <|
    .cons ⟨.cancel _ 0 _ _ rfl rfl rfl, trivial, hnone id rfl⟩ <|
    .cons ⟨.perform _ 0 _ _ _ _ _ rfl rfl rfl rfl, trivial, hnone id rfl⟩ <|
    .cons ⟨.task _ 0 .finish _ _ trivial rfl (.finish _ _ rfl rfl rfl), trivial, hnone id rfl⟩ <|
    .cons ⟨.task _ 0 .endRequests _ _ trivial rfl (.endRequests _ rfl rfl rfl), trivial,
      hnone id rfl⟩ <|
    .cons ⟨.task _ 0 .endBeats _ _ trivial rfl (.endBeats _ rfl rfl rfl), trivial,
      hnone id rfl⟩ <|
    .cons ⟨.stop _ 0 _ _ _ rfl rfl rfl rfl ⟨nofun, nofun⟩ (.stop _ _ _ rfl), trivial, id,
      by rintro m ⟨⟩; trivial⟩ <|
    .cons ⟨.manage _ .finish _ trivial (fun _ => rfl) (.finish _ rfl), trivial, id,
      by rintro m ⟨⟩; rfl⟩ <|
    .cons ⟨.leaveManager _ rfl rfl, trivial, hnone id rfl⟩ <|
    .cons ⟨.join _ rfl (.inl rfl), trivial, hnone id rfl⟩ <| .nil _, rfl, rfl, _, rfl, rfl⟩
  rintro m ⟨⟩
  exact ⟨.inr ⟨_, rfl⟩, fun id session hid hget => by cases hget⟩

/-- A whole process that ends gracefully. -/
theorem returned_run : ∃ g, Run (guarded (Step asciiDecimal sampleDatabase epochFormat 10
    ["MAC1".toList]) fun g l => Graceful g l ∧ InTime g l) initial (startLabels ++ stoppingLabels) g ∧
      g.main = .returned true ∧ g.manager.droppedDead = [] ∧
        ∃ s, g.sessions[0]? = some s ∧ s.handled.length = 1 := by
  obtain ⟨a, hstart, -⟩ := startLabels_run 10
  obtain ⟨g, hstop, hg⟩ := stoppingLabels_run a
  exact ⟨g, hstart.append hstop, hg⟩

/-- Clean steps of the drains are graceful steps of a draining task at work. -/
theorem run_drains {g : Gateway} {a' : Archive} (inputs : List (QueueTable × DrainInput))
    (htask : g.task = .draining)
    (hr : Run (guarded (Archive.Step (V := V) db F) Archive.Clean) g.archive
      (inputs.map fun d => .drain d.1 d.2) a') :
    Run (guarded (Step (V := V) D db F queuesThreshold servers) Graceful) g
      (inputs.map fun d => .drain d.1 d.2) { g with archive := a' } := by
  induction inputs generalizing g with
  | nil =>
    cases hr
    exact .nil _
  | cons d inputs ih =>
    rw [List.map_cons] at hr ⊢
    cases hr with
    | cons head tail =>
      obtain ⟨hstep, hclean⟩ := head
      cases hstep with
      | drain q i e k hcall =>
        exact .cons ⟨.drain g d.1 d.2 e k htask hcall, hclean⟩
          (ih (g := { g with archive := g.archive.step d.1 d.2 e k }) htask tail)

/-- A run of the draining task in which nothing fails. -/
def deliveringLabels : List (Label V) :=
  .drainTick :: ([(.general, faultless), (.general, faultless), (.general, faultless),
    (.operation, faultless), (.operation, faultless), (.operation, faultless)].map
      fun d => .drain d.1 d.2) ++ [.endDrain]

variable (D db F queuesThreshold servers) in
/-- It delivers all rows of both queues. -/
theorem deliveringLabels_run {m : SessionsManager} (sessions : List HandlerTasks)
    (hm : m.shutdown = false) (hne : ∀ q, (a.store.rows q).entries ≠ []) : ∃ a',
      Run (guarded (Step (V := V) D db F queuesThreshold servers) Graceful) (managing a m sessions)
          deliveringLabels (managing a' m sessions) ∧ a'.saved = a.saved ∧
        ∀ q, (a'.store.rows q).entries = [] ∧ drained (a'.drain q) = true := by
  obtain ⟨b, hgeneral, hreturned, hempty, -, hsaved, hframe⟩ :=
    faultless_run (V := V) (F := F) (a := a.tick db) (q := .general) rfl (hne .general)
  obtain ⟨hdrain, hrows⟩ := hframe .operation nofun
  obtain ⟨c, hoperation, hreturned', hempty', -, hsaved', hframe'⟩ :=
    faultless_run (V := V) (F := F) (a := b) hdrain (by rw [hrows]; exact hne .operation)
  obtain ⟨hdrain', hrows'⟩ := hframe' .general nofun
  have htick : guarded (Step (V := V) D db F queuesThreshold servers) Graceful
      (managing a m sessions) .drainTick
        { managing a m sessions with task := .draining, archive := a.tick db } :=
    ⟨.drainTick _ rfl hm, trivial⟩
  have hdone : ∀ q, c.drain q = .ret () := by
    intro q
    cases q with
    | general => exact hdrain'.trans hreturned
    | operation => exact hreturned'
  have hend : guarded (Step (V := V) D db F queuesThreshold servers) Graceful
      { managing a m sessions with task := .draining, archive := c } .endDrain
        (managing c m sessions) :=
    ⟨.endDrain _ rfl fun q => (congrArg Finished (hdone q)).mpr trivial, trivial⟩
  refine ⟨c, .cons htick ((run_drains _ rfl (hgeneral.append hoperation)).append (.single hend)),
    hsaved'.trans hsaved, fun q => ⟨?_, by rw [hdone q]; rfl⟩⟩
  cases q with
  | general => rw [hrows', hempty]
  | operation => exact hempty'

/-- The shutdown, with a session that has answered a save request. -/
def savedLabels : List (Label plainCodec) :=
  [.manage .endTick, .manage .shutdown, .endDrainTask, .manage .take, .cancel, .task 0 .finish,
    .task 0 .endRequests, .task 0 .endBeats, .manage .stop, .manage .finish, .leaveManager, .join]

theorem savedLabels_run (a : Archive) (t : List (Event handlerSignature)) : ∃ g', Run (guarded
    (Step asciiDecimal sampleDatabase epochFormat 10 ["MAC1".toList]) Graceful)
      (managing a (attempting.register 0 "MAC1".toList) [saving t (.ret ())]) savedLabels g' ∧
        g'.main = .returned true ∧ g'.archive = a :=
  ⟨_, .cons ⟨.manage _ .endTick _ trivial (fun _ => rfl) (.endTick _ rfl), trivial⟩ <|
    .cons ⟨.manage _ .shutdown _ trivial nofun (.shutdown _), trivial⟩ <|
    .cons ⟨.endDrainTask _ rfl rfl, trivial⟩ <|
    .cons ⟨.manage _ .take _ trivial (fun _ => rfl) (.take _ rfl rfl), trivial⟩ <|
    .cons ⟨.cancel _ 0 _ _ rfl rfl rfl, trivial⟩ <|
    .cons ⟨.task _ 0 .finish _ _ trivial rfl (.finish _ _ rfl rfl rfl), trivial⟩ <|
    .cons ⟨.task _ 0 .endRequests _ _ trivial rfl (.endRequests _ rfl rfl rfl), trivial⟩ <|
    .cons ⟨.task _ 0 .endBeats _ _ trivial rfl (.endBeats _ rfl rfl rfl), trivial⟩ <|
    .cons ⟨.stop _ 0 _ _ _ rfl rfl rfl rfl ⟨nofun, nofun⟩ (.stop _ _ _ rfl), trivial⟩ <|
    .cons ⟨.manage _ .finish _ trivial (fun _ => rfl) (.finish _ rfl), trivial⟩ <|
    .cons ⟨.leaveManager _ rfl rfl, trivial⟩ <| .cons ⟨.join _ rfl (.inl rfl), trivial⟩ <| .nil _,
    rfl, rfl⟩

/-- A session saves a row in each queue, and the process delivers them and returns. -/
theorem graceful_delivery_returned : ∃ (g : Gateway) (ls : List (Label plainCodec)),
    Run (guarded (Step asciiDecimal sampleDatabase epochFormat 10 ["MAC1".toList]) Graceful) initial
        ls g ∧ g.main = .returned true ∧
      ∀ q, (g.archive.saved q).length = 1 ∧ ∃ batches : List (List Text),
        g.archive.acknowledged q = batches.map Text.framed ∧
          g.archive.applied q = g.archive.acknowledged q ∧ batches.flatten = g.archive.saved q := by
  obtain ⟨a, hstart, htotal, hnone⟩ := startLabels_run 10
  obtain ⟨a₁, t, hsaving, -, hqueued⟩ := savingLabels_run (htotal ▸ Nat.zero_lt_succ 9)
  obtain ⟨a₂, hdelivering, hsame, hempty⟩ := deliveringLabels_run (V := plainCodec) asciiDecimal
    sampleDatabase epochFormat 10 ["MAC1".toList] (m := attempting.register 0 "MAC1".toList)
      [saving t (.ret ())] rfl fun q => (hqueued q).2
  obtain ⟨g, hstopping, hmain, harchive⟩ := savedLabels_run a₂ t
  have hr := ((hstart.mono fun _ _ _ hs => ⟨hs.1, hs.2.1⟩).append hsaving).append
    (hdelivering.append hstopping)
  have hlength : ∀ q, (g.archive.saved q).length = 1 := by
    intro q
    rw [harchive, hsame, (hqueued q).1, hnone q, List.length_nil]
  refine ⟨g, _, hr, hmain, fun q => ⟨hlength q, ?_⟩⟩
  obtain ⟨batches, hack, happ, hflat⟩ := (graceful_delivery hr (fun q => by
    rw [hlength q]
    decide) q).2 hmain
  have hvalues : (g.archive.store.rows q).values = [] := by
    rw [harchive, Table.values, (hempty q).1, List.map_nil]
  rw [hvalues, List.append_nil] at hflat
  exact ⟨batches, hack, happ, hflat⟩

theorem returned_completed_stopped : ∃ (g : Gateway) (s : HandlerTasks),
    Run (guarded (Step asciiDecimal sampleDatabase epochFormat 10 ["MAC1".toList]) InTime) initial
        (startLabels ++ stoppingLabels) g ∧ g.sessions[0]? = some s ∧ s.handled.length = 1 ∧
      s.Completed asciiDecimal s.handler := by
  obtain ⟨g, hrun, hmain, hdropped, s, hs, hhandled⟩ := returned_run
  have hr : Run (guarded (Step asciiDecimal sampleDatabase epochFormat 10 ["MAC1".toList]) InTime)
      (boot .initial) (startLabels ++ stoppingLabels) g := hrun.mono fun _ _ _ hs => ⟨hs.1, hs.2.2⟩
  rcases returned_completed hr (fun _ => trivial) hmain 0 s hs with hdead | ⟨-, hcompleted, -⟩
  · rw [hdropped] at hdead
    cases hdead
  · exact ⟨g, s, hr, hs, hhandled, hcompleted⟩

end Gateway

end LineGateway

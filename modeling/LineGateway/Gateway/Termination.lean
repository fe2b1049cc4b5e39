import LineGateway.Gateway.Remaining

/-! The end of a process is reached. Once a shutdown is requested, the gateway is never stuck:
until its main function has returned, a step of its own is possible, of the main function, of
the draining task or of the tasks of the session being stopped. The number of these steps is
bounded, so an execution in which they go on comes to the end. -/

namespace LineGateway

open Foundation Config Opcua Traceability

namespace Gateway

variable {V : VariantCodec} {D : DecimalClass} {db : TraceabilityDatabase} {F : RowFormat}
  {queuesThreshold : ℕ} {servers : List Text} {g g' : Gateway} {l : Label V}
  {ls : List (Label V)} {s s' : HandlerTasks}

/-! ### No deadlock -/

theorem own_not_ends (h : Own g l) : ¬ l.Ends := by
  cases l with
  | exit | kill => exact h.elim
  | _ => exact id

/-- The world can answer every effect of a request. -/
theorem exists_input (V : VariantCodec) (e : HandlerEffect) : Nonempty (HandlerInput V e) := by
  cases e with
  | getNamespaceIndex | read | write => exact ⟨.error ⟨.good⟩⟩
  | browse => exact ⟨[]⟩
  | nowZoned => exact ⟨Creations.sampleDate⟩
  | checkEnqueuingAllowed => exact ⟨noFaults⟩
  | nextSerial | getGeneralPartSheet | savePartSheets => exact ⟨.error (.panic "")⟩

section Enabled

variable (V db F queuesThreshold servers)

/-- A step of the gateway's own is possible. -/
def CanStep (D : DecimalClass) (g : Gateway) : Prop :=
  ∃ (l : Label V) (g' : Gateway), Step D db F queuesThreshold servers g l g' ∧ Own g l

variable {V db F queuesThreshold servers}

theorem canStep_of_drainTask (hshutdown : g.manager.shutdown = true)
    (htask : g.task = .waiting ∨ g.task = .draining) :
    CanStep V db F queuesThreshold servers D g := by
  rcases htask with htask | htask
  · exact ⟨.endDrainTask, _, .endDrainTask g htask hshutdown, trivial⟩
  · by_cases hend : ∀ q, Finished (g.archive.drain q)
    · exact ⟨.endDrain, _, .endDrain g htask hend, trivial⟩
    · obtain ⟨q, hq⟩ := not_forall.mp hend
      cases hcall : g.archive.drain q with
      | call e k => exact ⟨.drain q faultless, _, .drain g q faultless e k htask hcall, trivial⟩
      | _ => exact absurd (by rw [hcall]; trivial) hq

/-- The tasks of a cancelled session that are not over go on to their end. -/
theorem canStep_of_session {n : ℕ} {rest : List ℕ}
    (hphase : g.manager.phase = .stopping (n :: rest)) (hs : g.sessions[n]? = some s)
    (hcancel : s.cancelled = true) (hj : ¬ s.Joined) :
    CanStep V db F queuesThreshold servers D g := by
  have hown : ∃ rest s, g.manager.phase = .stopping (n :: rest) ∧ g.sessions[n]? = some s ∧
      s.cancelled = true := ⟨rest, s, hphase, hs, hcancel⟩
  by_cases hrequest : s.requestTask = .running
  · cases hcurrent : s.current with
    | none => exact ⟨.task n .endRequests, _, .task g n _ s _ trivial hs (.endRequests s hrequest
        hcurrent hcancel), hown⟩
    | some hd =>
      cases hrest : hd.rest with
      | ret u => exact ⟨.task n .finish, _, .task g n _ s _ trivial hs (.finish s hd hrequest
          hcurrent hrest), hown⟩
      | fail e => exact e.elim
      | panic m => exact ⟨.task n .panic, _, .task g n _ s _ trivial hs (.panic s hd m hrequest
          hcurrent hrest), hown⟩
      | call e k =>
        obtain ⟨i⟩ := exists_input V e
        exact ⟨.perform n e i, _, .perform g n s hd e k i hs hrequest hcurrent hrest, hown⟩
  · have hbeat : s.heartbeatTask = .running := by
      by_contra hbeat
      exact hj ⟨hrequest, hbeat⟩
    cases hbeating : s.beating with
    | true => exact ⟨.task n (.beatReply (.ok [])), _, .task g n _ s _ trivial hs (.beatReply s _ hbeat
        hbeating), hown⟩
    | false => exact ⟨.task n .endBeats, _, .task g n _ s _ trivial hs (.endBeats s hbeat hbeating
        hcancel), hown⟩

theorem canStep_of_managing (h : g.Bounded D) (hshutdown : g.manager.shutdown = true)
    (hmain : g.main = .managing) : CanStep V db F queuesThreshold servers D g := by
  cases hphase : g.manager.phase with
  | ticking =>
    exact ⟨.manage .take, _, .manage g .take _ trivial (fun _ => hmain) (.take _ hphase hshutdown),
      trivial⟩
  | spawning pending =>
    cases pending with
    | nil => exact ⟨.manage .endTick, _, .manage g .endTick _ trivial (fun _ => hmain)
        (.endTick _ hphase), trivial⟩
    | cons id rest => exact ⟨.manage .spawn, _, .manage g .spawn _ trivial (fun _ => hmain)
        (.spawn _ id rest hphase), trivial⟩
  | stopping numbers =>
    cases numbers with
    | nil => exact ⟨.manage .finish, _, .manage g .finish _ trivial (fun _ => hmain)
        (.finish _ hphase), trivial⟩
    | cons n rest =>
      have hlt : n < g.sessions.length := by
        rw [h.inv.numbered]
        exact h.numbered.taken n (hphase ▸ List.mem_cons_self)
      have hs : g.sessions[n]? = some g.sessions[n] := List.getElem?_eq_getElem hlt
      cases hcancel : g.sessions[n].cancelled with
      | false => exact ⟨.cancel, _, .cancel g n rest _ hmain hphase hs, n, rest, _, hphase, hs,
          hcancel⟩
      | true =>
        by_cases hj : g.sessions[n].Joined
        · exact ⟨.manage .stop, _, .stop g n rest _ _ hmain hphase hs hcancel hj
            (.stop _ n rest hphase), trivial⟩
        · exact canStep_of_session hphase hs hcancel hj
  | returned => exact ⟨.leaveManager, _, .leaveManager g hmain hphase, trivial⟩

theorem Phases.awaiting_cases {task : DrainTask} {status : FirstDrainStatus}
    (h : Phases .awaitingFirstDrain task status) : (task = .waiting ∨ task = .draining) ∨
      status = .closed ∨ ∃ successful, status = .sent successful := by
  cases h with
  | firstWaiting => exact .inl (.inl rfl)
  | firstDraining => exact .inl (.inr rfl)
  | closed hmain => exact .inr (.inl rfl)
  | reported successful => exact .inr (.inr ⟨successful, rfl⟩)
  | managed hmain => exact .inr (.inr ⟨true, rfl⟩)

theorem Phases.joining_live {task : DrainTask} {status : FirstDrainStatus}
    (h : Phases .joining task status) : DrainTask.Live task := by
  cases h with
  | closed hmain => rcases hmain with h | h <;> cases h
  | reported successful hmain htask => exact htask
  | managed hmain htask => exact htask

/-- Until the main function has returned, the gateway is not stuck. -/
theorem Bounded.canStep (h : g.Bounded D) (hshutdown : g.manager.shutdown = true)
    (hreturned : ¬ Returned g) : CanStep V db F queuesThreshold servers D g := by
  have hphases := h.inv.phases
  cases hmain : g.main with
  | opening => exact ⟨.openCache, _, .openCache g hmain, trivial⟩
  | managing => exact canStep_of_managing h hshutdown hmain
  | returned ok => exact absurd ⟨ok, hmain⟩ hreturned
  | awaitingFirstDrain =>
    rw [hmain] at hphases
    rcases hphases.awaiting_cases with htask | hclosed | ⟨successful, hsent⟩
    · exact canStep_of_drainTask hshutdown htask
    · exact ⟨.receiveClosed, _, .receiveClosed g hmain hclosed, trivial⟩
    · exact ⟨.receiveStatus true, _, .receiveStatus g successful true hmain hsent, trivial⟩
  | joining =>
    rw [hmain] at hphases
    rcases hphases.joining_live with htask | htask | htask
    · exact canStep_of_drainTask hshutdown (.inl htask)
    · exact canStep_of_drainTask hshutdown (.inr htask)
    · exact ⟨.join, _, .join g hmain (.inl htask), trivial⟩

end Enabled

/-! ### The end -/

/-- The sessions that may have to be stopped before the end. -/
def sessionsToStop (m : SessionsManager) : ℕ :=
  match m.phase with
  | .ticking => sessionsAhead m
  | .spawning rest => rest.length + sessionsAhead m
  | .stopping numbers => numbers.length
  | .returned => 0

theorem mainLeft_le (main : MainPhase) : mainLeft main ≤ 5 := by
  cases main <;> simp [mainLeft]

theorem drainLeft_le {a : Archive} (h : ∀ q, (a.drain q).Within 3) (task : DrainTask) :
    drainLeft a task ≤ 8 := by
  have hgeneral := Prog.effort_le (h .general)
  have hoperation := Prog.effort_le (h .operation)
  cases task with
  | draining =>
    simp only [drainLeft]
    omega
  | _ => simp [drainLeft]

theorem Bounded.managerLeft_le (h : g.Bounded D) :
    managerLeft g.manager g.sessions ≤ 4 + 13 * sessionsToStop g.manager := by
  unfold managerLeft sessionsToStop
  cases g.manager.phase with
  | ticking | spawning | returned =>
    dsimp only
    omega
  | stopping numbers =>
    have hle := List.sum_le_card_nsmul (numbers.map (leftAt g.sessions)) 12
      (by simpa using fun n _ => h.leftAt_le n)
    simp only [List.length_map, smul_eq_mul] at hle
    dsimp only
    omega

/-- What is left of a process with a shutdown requested. -/
noncomputable def variant (V : VariantCodec) (D : DecimalClass) (db : TraceabilityDatabase)
    (F : RowFormat) (queuesThreshold : ℕ) (servers : List Text) :
    Variant (guarded (Step (V := V) D db F queuesThreshold servers) fun _ l => ¬ l.Ends) Own
      Returned where
  inv g := g.Bounded D ∧ g.manager.shutdown = true
  left := left
  inv_step := by
    intro g l g' h hs
    refine ⟨h.1.step hs.1, ?_⟩
    have hmanager := hs.1.manager_step hs.2
    cases hm : l.manager with
    | none =>
      rw [hm] at hmanager
      have hsame : g'.manager = g.manager := hmanager
      exact hsame ▸ h.2
    | some m =>
      rw [hm] at hmanager
      exact manager_shutdown hmanager h.2
  left_le h hs := (h.1.left_step h.2 hs.2 hs.1).1
  left_lt h hs ho := (h.1.left_step h.2 hs.2 hs.1).2 ho
  enabled := by
    intro g h hreturned
    obtain ⟨l, g', hs, ho⟩ : ∃ (l : Label V) (g' : Gateway),
        Step D db F queuesThreshold servers g l g' ∧ Own g l := h.1.canStep h.2 hreturned
    exact ⟨l, g', ⟨hs, own_not_ends ho⟩, ho⟩

/-- From any state of any run in which a shutdown has been requested, the gateway is not stuck
until its main function has returned, the number of its own steps is bounded, whatever steps
come in between, and it returns in every execution in which its own steps go on. -/
theorem shutdown_returns (hr : Run (Step D db F queuesThreshold servers) initial ls g)
    (hshutdown : g.manager.shutdown = true) :
    (¬ Returned g → ∃ (l : Label V) (g' : Gateway),
        Step D db F queuesThreshold servers g l g' ∧ Own g l) ∧
      (∀ ls' g', Run (marked (guarded (Step (V := V) D db F queuesThreshold servers)
          fun _ l => ¬ l.Ends) Own) g ls' g' →
        ls'.countP Prod.snd ≤ 17 + 13 * sessionsToStop g.manager) ∧
      ∀ (x : ℕ → Gateway) (l : ℕ → Label V), x 0 = g →
        (∀ i, Step D db F queuesThreshold servers (x i) (l i) (x (i + 1)) ∧ ¬ (l i).Ends) →
        (∀ i, ∃ j, i ≤ j ∧ (Returned (x j) ∨ Own (x j) (l j))) → ∃ j, Returned (x j) := by
  have hbounded := run_bounded hr
  let v := variant V D db F queuesThreshold servers
  refine ⟨hbounded.canStep hshutdown, fun ls' g' hr' => ?_, fun x l hx hsteps hfair => ?_⟩
  · have hcount := v.count_le ⟨hbounded, hshutdown⟩ hr'
    have hmain := mainLeft_le g.main
    have hdrain := drainLeft_le hbounded.drains g.task
    have hmanager := hbounded.managerLeft_le
    have hleft : v.left g = mainLeft g.main + drainLeft g.archive g.task +
        managerLeft g.manager g.sessions := rfl
    omega
  · exact v.reaches hsteps hfair (hx ▸ ⟨hbounded, hshutdown⟩)

/-- The shutdown comes when a session has been registered. -/
theorem shutdown_returns_registered : ∃ g : Gateway,
    Run (Step asciiDecimal sampleDatabase epochFormat 10 ["MAC1".toList]) initial
        (startLabels ++ [.register 0 Creations.sampleHandler, .manage .shutdown]) g ∧
      sessionsToStop g.manager = 1 ∧ (∃ (l : Label plainCodec) (g' : Gateway),
        Step asciiDecimal sampleDatabase epochFormat 10 ["MAC1".toList] g l g' ∧ Own g l) ∧
      ∀ (ls' : List (Label plainCodec × Bool)) g', Run (marked (guarded (Step asciiDecimal
        sampleDatabase epochFormat 10 ["MAC1".toList]) fun _ l => ¬ l.Ends) Own) g ls' g' →
          ls'.countP Prod.snd ≤ 30 := by
  obtain ⟨a, hstart, -⟩ := startLabels_run 10
  have hrest : ∃ g, Run (Step asciiDecimal sampleDatabase epochFormat 10 ["MAC1".toList])
      (managing a attempting [])
      [.register 0 Creations.sampleHandler, (.manage .shutdown : Label plainCodec)] g ∧
        g.manager.shutdown = true ∧ sessionsToStop g.manager = 1 ∧ ¬ Returned g :=
    ⟨_, .cons (.register _ 0 _ rfl) <|
      .cons (.manage _ .shutdown _ trivial (fun h => h.elim) (.shutdown _)) <| .nil _, rfl, rfl,
      fun h => nomatch h.choose_spec⟩
  obtain ⟨g, hrest, hshutdown, hstop, hrunning⟩ := hrest
  have hr := hstart.of_guarded.append hrest
  obtain ⟨henabled, hcount, -⟩ := shutdown_returns hr hshutdown
  rw [hstop] at hcount
  exact ⟨g, hr, hstop, henabled hrunning, hcount⟩

end Gateway

end LineGateway

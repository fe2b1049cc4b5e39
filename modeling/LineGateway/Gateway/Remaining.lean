import LineGateway.Gateway.Shutdown
import LineGateway.Traceability.Lengths

/-! What is left of a process once a shutdown is requested. The steps left to the main function,
to the draining task and to the sessions to be stopped are counted. Nothing that goes on around
them, notifications, attempts that end or register, lost sessions, leaves more of them, and
each of them leaves less. -/

namespace LineGateway

open Foundation Config Opcua Traceability

namespace Opcua.SessionsManager

variable {servers : List Text} {m m' : SessionsManager} {l : Label}

/-- The sessions in the registry and those taken have been registered. -/
structure Numbered (m : SessionsManager) : Prop where
  registry : ∀ n ∈ m.registry.values, n < m.registered
  taken : ∀ n ∈ m.phase.taken, n < m.registered

theorem Numbered.step (h : m.Numbered) (hs : Step servers m l m') : m'.Numbered := by
  obtain ⟨hregistry, htaken⟩ := h
  cases hs with
  | tick hphase hrun =>
    refine ⟨fun n hn => ?_, fun n hn => nomatch hn⟩
    obtain ⟨e, he, rfl⟩ := List.mem_map.mp hn
    exact hregistry _ (List.mem_map_of_mem (List.mem_filter.mp he).1)
  | spawn id rest hphase => exact ⟨hregistry, fun n hn => nomatch hn⟩
  | endTick hphase => exact ⟨hregistry, fun n hn => nomatch hn⟩
  | register n id hn =>
    refine ⟨fun k hk => ?_, fun k hk => Nat.lt_succ_of_lt (htaken k hk)⟩
    obtain ⟨e, he, rfl⟩ := List.mem_map.mp hk
    rcases Table.mem_insert.mp he with rfl | ⟨he, -⟩
    · exact Nat.lt_succ_self _
    · exact Nat.lt_succ_of_lt (hregistry _ (List.mem_map_of_mem he))
  | take hphase hshutdown => exact ⟨fun n hn => (nomatch hn), hregistry⟩
  | stop session rest hphase =>
    rw [hphase] at htaken
    exact ⟨hregistry, fun n hn => htaken n (List.mem_cons_of_mem _ hn)⟩
  | finish hphase => exact ⟨hregistry, fun n hn => nomatch hn⟩
  | fail | die | shutdown => exact ⟨hregistry, htaken⟩

theorem initial_numbered : initial.Numbered := ⟨fun _ hn => (nomatch hn), fun _ hn => nomatch hn⟩

end Opcua.SessionsManager

namespace Gateway

variable {V : VariantCodec} {D : DecimalClass} {db : TraceabilityDatabase} {F : RowFormat}
  {queuesThreshold : ℕ} {servers : List Text} {g g' : Gateway} {l : Label V}
  {ls : List (Label V)} {s s' : HandlerTasks}

/-! ### What is left -/

/-- The main function has returned. -/
def Returned (g : Gateway) : Prop := ∃ ok, g.main = .returned ok

/-- The steps of the gateway itself towards its end. Of the sessions, only the one being
stopped brings the end closer, once it is cancelled. -/
def Own (g : Gateway) : Label V → Prop
  | .openCache | .openCacheFails | .drain .. | .endDrain | .endDrainTask | .receiveStatus _
  | .receiveClosed | .leaveManager | .join => True
  | .manage .spawn | .manage .endTick | .manage .take | .manage .stop | .manage .finish => True
  | .cancel => ∃ n rest s, g.manager.phase = .stopping (n :: rest) ∧ g.sessions[n]? = some s ∧
      s.cancelled = false
  | .task n _ | .perform n _ _ => ∃ rest s, g.manager.phase = .stopping (n :: rest) ∧
      g.sessions[n]? = some s ∧ s.cancelled = true
  | _ => False

def mainLeft : MainPhase → ℕ
  | .opening => 5
  | .awaitingFirstDrain => 3
  | .managing => 2
  | .joining => 1
  | .returned _ => 0

noncomputable def drainLeft (a : Archive) : DrainTask → ℕ
  | .waiting => 1
  | .draining => 2 + ((a.drain .general).effort + (a.drain .operation).effort)
  | _ => 0

noncomputable def requestLeft (s : HandlerTasks) : ℕ :=
  if s.requestTask = .running then 1 + (s.current.map fun hd => 1 + hd.rest.effort).getD 0 else 0

def beatLeft (s : HandlerTasks) : ℕ :=
  if s.heartbeatTask = .running then if s.beating then 2 else 1 else 0

/-- What is left of a session to be stopped. -/
noncomputable def sessionLeft (s : HandlerTasks) : ℕ :=
  1 + if s.cancelled then requestLeft s + beatLeft s else 11

noncomputable def leftAt (sessions : List HandlerTasks) (n : ℕ) : ℕ :=
  (sessions[n]?.map sessionLeft).getD 12

/-- The sessions that are, or may still come to be, in the registry when it is taken. -/
def sessionsAhead (m : SessionsManager) : ℕ := m.registry.len + m.attempts.length

noncomputable def managerLeft (m : SessionsManager) (sessions : List HandlerTasks) : ℕ :=
  match m.phase with
  | .ticking => 3 + 12 * sessionsAhead m
  | .spawning rest => 4 + 13 * rest.length + 12 * sessionsAhead m
  | .stopping numbers => 2 + (numbers.map (leftAt sessions)).sum
  | .returned => 0

noncomputable def left (g : Gateway) : ℕ :=
  mainLeft g.main + drainLeft g.archive g.task + managerLeft g.manager g.sessions

/-- What holds in every run: the programs are bounded, and the sessions of the manager are
there. -/
structure Bounded (D : DecimalClass) (g : Gateway) : Prop where
  inv : g.Inv
  installed : g.Installed D
  drains : ∀ q, (g.archive.drain q).Within 3
  numbered : g.manager.Numbered

/-! ### The sessions -/

theorem requestLeft_le (h : HandlerTasks.RequestInv D s) : requestLeft s ≤ 8 := by
  unfold requestLeft
  split
  · cases hcurrent : s.current with
    | none => simp
    | some hd =>
      have hreached := h.reached hd (by simp [HandlerTasks.begun, hcurrent])
      have hle := Prog.effort_le ((onNotification_within D s.handler _ _).after hreached)
      simp only [Option.map_some, Option.getD_some]
      omega
  · exact Nat.zero_le 8

theorem beatLeft_le (s : HandlerTasks) : beatLeft s ≤ 2 := by
  unfold beatLeft
  split_ifs <;> decide

theorem sessionLeft_le (h : HandlerTasks.RequestInv D s) : sessionLeft s ≤ 12 := by
  have hrequest := requestLeft_le h
  have hbeat := beatLeft_le s
  unfold sessionLeft
  split <;> omega

theorem sessionLeft_of_not_cancelled (h : s.cancelled = false) : sessionLeft s = 12 := by
  simp [sessionLeft, h]

theorem sessionLeft_of_cancelled (h : s.cancelled = true) :
    sessionLeft s = 1 + (requestLeft s + beatLeft s) := by
  simp [sessionLeft, h]

/-- Cancelling a session leaves only what its tasks have begun. -/
theorem sessionLeft_cancel (h : HandlerTasks.RequestInv D s) :
    sessionLeft { s with cancelled := true } ≤ sessionLeft s ∧
      (s.cancelled = false → sessionLeft { s with cancelled := true } < sessionLeft s) := by
  have hsame : sessionLeft { s with cancelled := true } = 1 + (requestLeft s + beatLeft s) := rfl
  have hrequest := requestLeft_le h
  have hbeat := beatLeft_le s
  rw [hsame]
  cases hc : s.cancelled with
  | true =>
    rw [sessionLeft_of_cancelled hc]
    exact ⟨le_rfl, fun hfalse => absurd hfalse (by decide)⟩
  | false =>
    rw [sessionLeft_of_not_cancelled hc]
    exact ⟨by omega, fun _ => by omega⟩

theorem step_cancelled {l : HandlerTasks.Label} (hl : TaskOnly l) (hs : HandlerTasks.Step D s l s') :
    s'.cancelled = s.cancelled := by
  cases hs with
  | notify | cancel | drop | reply => exact hl.elim
  | _ => rfl

/-- A step of the tasks of a cancelled session leaves less to them. -/
theorem tasksLeft_lt {l : HandlerTasks.Label} (hl : TaskOnly l) (hs : HandlerTasks.Step D s l s')
    (hcancel : s.cancelled = true) :
    requestLeft s' + beatLeft s' < requestLeft s + beatLeft s := by
  cases hs with
  | notify | cancel | drop | reply => exact hl.elim
  | next value rest hrun hidle hlive => cases hlive.symm.trans hcancel
  | beat hrun hidle hlive => cases hlive.symm.trans hcancel
  | finish hd hrun hcurrent hrest =>
    simp [requestLeft, beatLeft, hrun, hcurrent]
  | panic hd m hrun hcurrent hrest => simp [requestLeft, beatLeft, hrun]
  | endRequests hrun hidle hc => simp [requestLeft, beatLeft, hrun]
  | abortRequests hdropped hrun => simp [requestLeft, beatLeft, hrun]
  | beatReply r hrun hbeating =>
    have hold : beatLeft s = 2 := by simp [beatLeft, hrun, hbeating]
    have hnew : beatLeft (s.beatReply r) ≤ 1 := by
      unfold beatLeft
      split
      · exact le_rfl
      · exact Nat.zero_le 1
    have hrequest : requestLeft (s.beatReply r) = requestLeft s := rfl
    omega
  | endBeats hrun hidle hc => simp [requestLeft, beatLeft, hrun, hidle]
  | abortBeats hdropped hrun =>
    have hpos : 0 < beatLeft s := by
      simp only [beatLeft, hrun, if_true]
      split_ifs <;> decide
    simpa [requestLeft, beatLeft, hrun] using hpos

theorem sessionLeft_task {l : HandlerTasks.Label} (hl : TaskOnly l)
    (hs : HandlerTasks.Step D s l s') : sessionLeft s' ≤ sessionLeft s ∧
      (s.cancelled = true → sessionLeft s' < sessionLeft s) := by
  have hsame := step_cancelled hl hs
  cases hc : s.cancelled with
  | true =>
    have hlt := tasksLeft_lt hl hs hc
    rw [sessionLeft_of_cancelled hc, sessionLeft_of_cancelled (hsame.trans hc)]
    exact ⟨by omega, fun _ => by omega⟩
  | false =>
    rw [sessionLeft_of_not_cancelled hc, sessionLeft_of_not_cancelled (hsame.trans hc)]
    exact ⟨le_rfl, fun hfalse => absurd hfalse (by decide)⟩

/-- So does the reply to an effect of its request. -/
theorem sessionLeft_reply (h : HandlerTasks.RequestInv D s) {hd : Handling} {e : HandlerEffect}
    {k : e.Reply → HandlerProg Empty Unit} (r : e.Reply) (hrun : s.requestTask = .running)
    (hcurrent : s.current = some hd) (hrest : hd.rest = .call e k) :
    sessionLeft (s.reply hd e k r) ≤ sessionLeft s ∧
      (s.cancelled = true → sessionLeft (s.reply hd e k r) < sessionLeft s) := by
  have hreached := h.reached hd (by simp [HandlerTasks.begun, hcurrent])
  have hwithin := (onNotification_within D s.handler _ _).after hreached
  rw [hrest] at hwithin
  have hlt := Prog.effort_lt hwithin r
  have hrequest : requestLeft (s.reply hd e k r) < requestLeft s := by
    simp only [requestLeft, HandlerTasks.reply, hrun, hcurrent, if_true, Option.map_some,
      Option.getD_some, hrest]
    omega
  have hbeat : beatLeft (s.reply hd e k r) = beatLeft s := rfl
  have hsame : (s.reply hd e k r).cancelled = s.cancelled := rfl
  cases hc : s.cancelled with
  | true =>
    rw [sessionLeft_of_cancelled hc, sessionLeft_of_cancelled (hsame.trans hc)]
    exact ⟨by omega, fun _ => by omega⟩
  | false =>
    rw [sessionLeft_of_not_cancelled hc, sessionLeft_of_not_cancelled (hsame.trans hc)]
    exact ⟨le_rfl, fun hfalse => absurd hfalse (by decide)⟩

/-! ### The manager -/

theorem leftAt_set {sessions : List HandlerTasks} {n : ℕ} (hs : sessions[n]? = some s)
    (hle : sessionLeft s' ≤ sessionLeft s) (m : ℕ) :
    leftAt (sessions.set n s') m ≤ leftAt sessions m := by
  obtain ⟨hlt, hget⟩ := List.getElem?_eq_some_iff.mp hs
  by_cases hmn : n = m
  · subst hmn
    simpa [leftAt, hlt, hget] using hle
  · simp [leftAt, List.getElem?_set_ne hmn]

theorem leftAt_set_self {sessions : List HandlerTasks} {n : ℕ} (hs : sessions[n]? = some s)
    (hlt : sessionLeft s' < sessionLeft s) :
    leftAt (sessions.set n s') n < leftAt sessions n := by
  obtain ⟨hn, hget⟩ := List.getElem?_eq_some_iff.mp hs
  simpa [leftAt, hn, hget] using hlt

/-- A session that has less left brings the end closer when it is the one being stopped. -/
theorem managerLeft_set {m : SessionsManager} {sessions : List HandlerTasks} {n : ℕ}
    (hs : sessions[n]? = some s) (hle : sessionLeft s' ≤ sessionLeft s) :
    managerLeft m (sessions.set n s') ≤ managerLeft m sessions ∧
      (∀ rest, m.phase = .stopping (n :: rest) → sessionLeft s' < sessionLeft s →
        managerLeft m (sessions.set n s') < managerLeft m sessions) := by
  have hsum (numbers : List ℕ) : (numbers.map (leftAt (sessions.set n s'))).sum ≤
      (numbers.map (leftAt sessions)).sum := List.sum_le_sum fun m _ => leftAt_set hs hle m
  constructor
  · unfold managerLeft
    cases m.phase with
    | stopping numbers => exact Nat.add_le_add_left (hsum numbers) 2
    | _ => exact le_rfl
  · intro rest hphase hlt
    have hself := leftAt_set_self hs hlt
    have hrest := hsum rest
    simp only [managerLeft, hphase, List.map_cons, List.sum_cons]
    omega

theorem Bounded.leftAt_le (h : g.Bounded D) (n : ℕ) : leftAt g.sessions n ≤ 12 := by
  unfold leftAt
  cases hs : g.sessions[n]? with
  | none => exact le_rfl
  | some s =>
    obtain ⟨ls, hr⟩ := h.installed s (List.mem_of_getElem? hs)
    exact sessionLeft_le (HandlerTasks.run_inv hr).1

/-- The sessions that were there are left as they were, dropped or not. -/
theorem leftAt_register (sessions : List HandlerTasks) (numbers : List ℕ) {n : ℕ}
    (hn : n < sessions.length) :
    leftAt (dropSessions sessions numbers ++ [s]) n = leftAt sessions n := by
  have hlt : n < (dropSessions sessions numbers).length := by
    rwa [length_dropSessions]
  unfold leftAt
  rw [List.getElem?_append_left hlt, getElem?_dropSessions, Option.map_map]
  refine congrArg (Option.getD · 12) (congrArg (Option.map · sessions[n]?) ?_)
  funext t
  show sessionLeft (if n ∈ numbers then { t with dropped := true } else t) = _
  split_ifs <;> rfl

theorem sessionsAhead_register (m : SessionsManager) {n : ℕ} {id : Text}
    (hn : m.attempts[n]? = some id) : sessionsAhead (m.register n id) ≤ sessionsAhead m := by
  have hlen := m.registry.len_insert_le id m.registered
  have hlt := (List.getElem?_eq_some_iff.mp hn).1
  have herase := List.length_eraseIdx_of_lt hlt
  simp only [sessionsAhead, SessionsManager.register]
  omega

/-- A registration takes an attempt for a session, and touches none that is being stopped. -/
theorem Bounded.managerLeft_register (h : g.Bounded D) {n : ℕ} {id : Text}
    (hn : g.manager.attempts[n]? = some id) (numbers : List ℕ) (s : HandlerTasks) :
    managerLeft (g.manager.register n id) (dropSessions g.sessions numbers ++ [s]) ≤
      managerLeft g.manager g.sessions := by
  have hahead := sessionsAhead_register g.manager hn
  have hsame : (g.manager.register n id).phase = g.manager.phase := rfl
  unfold managerLeft
  rw [hsame]
  cases hphase : g.manager.phase with
  | ticking => exact Nat.add_le_add_left (Nat.mul_le_mul_left 12 hahead) 3
  | spawning rest => exact Nat.add_le_add_left (Nat.mul_le_mul_left 12 hahead) _
  | returned => exact le_rfl
  | stopping taken =>
    refine Nat.add_le_add_left (List.sum_le_sum fun m hm => ?_) 2
    have hlt : m < g.manager.registered := h.numbered.taken m (hphase ▸ hm)
    exact (leftAt_register _ _ (h.inv.numbered ▸ hlt)).le

theorem sessionsAhead_fail (m : SessionsManager) (n : ℕ) :
    sessionsAhead { m with attempts := m.attempts.eraseIdx n } ≤ sessionsAhead m :=
  Nat.add_le_add_left (List.length_eraseIdx_le m.attempts n) _

/-- The steps of the loop of the manager bring the end closer, and so may the end of an
attempt. -/
theorem Bounded.managerLeft_manage (h : g.Bounded D) {l : SessionsManager.Label}
    {m : SessionsManager} (hl : ManagerOnly l) (hs : SessionsManager.Step servers g.manager l m) :
    managerLeft m g.sessions ≤ managerLeft g.manager g.sessions ∧
      (InManager l → managerLeft m g.sessions < managerLeft g.manager g.sessions) := by
  cases hs with
  | tick | register | stop => exact hl.elim
  | spawn id rest hphase =>
    have hlt : managerLeft { g.manager with attempts := g.manager.attempts ++ [id]
                                            phase := .spawning rest } g.sessions <
        managerLeft g.manager g.sessions := by
      simp only [managerLeft, hphase, sessionsAhead, List.length_append, List.length_cons,
        List.length_nil]
      omega
    exact ⟨hlt.le, fun _ => hlt⟩
  | endTick hphase =>
    have hlt : managerLeft { g.manager with phase := .ticking } g.sessions <
        managerLeft g.manager g.sessions := by
      simp only [managerLeft, hphase, sessionsAhead, List.length_nil]
      omega
    exact ⟨hlt.le, fun _ => hlt⟩
  | take hphase hshutdown =>
    have hsum : (g.manager.registry.values.map (leftAt g.sessions)).sum ≤
        12 * g.manager.registry.len := by
      have hle := List.sum_le_card_nsmul (g.manager.registry.values.map (leftAt g.sessions)) 12
        (by simpa using fun n _ => h.leftAt_le n)
      simp only [List.length_map, Table.values, smul_eq_mul] at hle
      rw [Nat.mul_comm]
      exact hle
    have hlt : managerLeft { g.manager with phase := .stopping g.manager.registry.values
                                            registry := .empty } g.sessions <
        managerLeft g.manager g.sessions := by
      simp only [managerLeft, hphase, sessionsAhead]
      omega
    exact ⟨hlt.le, fun _ => hlt⟩
  | finish hphase =>
    have hlt : managerLeft { g.manager with phase := .returned } g.sessions <
        managerLeft g.manager g.sessions := by
      simp only [managerLeft, hphase, List.map_nil, List.sum_nil]
      omega
    exact ⟨hlt.le, fun _ => hlt⟩
  | fail n =>
    refine ⟨?_, fun hin => hin.elim⟩
    have hahead := sessionsAhead_fail g.manager n
    unfold managerLeft
    dsimp only
    cases g.manager.phase with
    | ticking => exact Nat.add_le_add_left (Nat.mul_le_mul_left 12 hahead) 3
    | spawning rest => exact Nat.add_le_add_left (Nat.mul_le_mul_left 12 hahead) _
    | _ => exact le_rfl
  | die | shutdown => exact ⟨le_rfl, fun hin => hin.elim⟩

/-! ### Runs -/

theorem drains_step {a a' : Archive} {l : Archive.Label V} (h : ∀ q, (a.drain q).Within 3)
    (hs : Archive.Step db F a l a') : ∀ q, (a'.drain q).Within 3 := by
  cases hs with
  | save | nextSerial => exact h
  | tick hfin => exact fun q => drainPartSheetQueue_within db q _
  | crash applied => exact fun q => .ret _ 3
  | drain q i e k hcall =>
    intro q'
    by_cases hq : q' = q
    · subst hq
      have hwithin := h q'
      rw [hcall] at hwithin
      simp only [Archive.step, Function.update_self]
      exact Prog.Within.after hwithin (.reply .start _)
    · simpa [Archive.step, hq] using h q'

theorem Bounded.step (h : g.Bounded D) (hs : Step D db F queuesThreshold servers g l g') :
    g'.Bounded D := by
  refine ⟨h.inv.step hs, h.installed.step hs, ?_, ?_⟩
  · have harchive := h.inv.archive_step hs
    cases hl : l.archive with
    | none =>
      rw [hl] at harchive
      have hsame : g'.archive = g.archive := harchive
      exact hsame ▸ h.drains
    | some m =>
      rw [hl] at harchive
      exact drains_step h.drains harchive
  · by_cases hl : l.Ends
    · cases hs with
      | exit | kill => exact SessionsManager.initial_numbered
      | _ => exact hl.elim
    · have hmanager := hs.manager_step hl
      cases hm : l.manager with
      | none =>
        rw [hm] at hmanager
        have hsame : g'.manager = g.manager := hmanager
        exact hsame ▸ h.numbered
      | some m =>
        rw [hm] at hmanager
        exact h.numbered.step hmanager

theorem run_bounded (hr : Run (Step D db F queuesThreshold servers) initial ls g) : g.Bounded D :=
  hr.invariant (fun _ _ _ h hs => h.step hs)
    ⟨initial_inv, fun _ hs => (nomatch hs), fun _ => .ret _ 3, SessionsManager.initial_numbered⟩

theorem drainLeft_lt {a : Archive} (h : ∀ q, (a.drain q).Within 3) {q : QueueTable} {i : DrainInput}
    {e : DrainEffect} {k : e.Reply → DrainProg} (hcall : a.drain q = .call e k) :
    drainLeft (a.step q i e k) .draining < drainLeft a .draining := by
  have hwithin := h q
  rw [hcall] at hwithin
  have hlt := Prog.effort_lt hwithin (performDrain e i a.toDelivery).1
  cases q with
  | general =>
    simp only [drainLeft, Archive.step, Function.update_self, hcall, ne_eq, reduceCtorEq,
      not_false_eq_true, Function.update_of_ne]
    omega
  | operation =>
    simp only [drainLeft, Archive.step, Function.update_self, hcall, ne_eq, reduceCtorEq,
      not_false_eq_true, Function.update_of_ne]
    omega

theorem drainLeft_live (a : Archive) {task : DrainTask} (h : task = .waiting ∨ task = .panicked) :
    drainLeft a task < drainLeft a .draining := by
  rcases h with rfl | rfl
  all_goals
    simp only [drainLeft]
    omega

theorem left_lt_of_main {main : MainPhase} (h : mainLeft main < mainLeft g.main) :
    left { g with main } < left g := by
  unfold left
  dsimp only
  omega

theorem left_setSession {archive : Archive} {n : ℕ} (hs : g.sessions[n]? = some s)
    (hdrain : archive.drain = g.archive.drain) (hle : sessionLeft s' ≤ sessionLeft s) :
    left { g with archive, sessions := g.sessions.set n s' } ≤ left g ∧
      (∀ rest, g.manager.phase = .stopping (n :: rest) → sessionLeft s' < sessionLeft s →
        left { g with archive, sessions := g.sessions.set n s' } < left g) := by
  have hsame : drainLeft archive g.task = drainLeft g.archive g.task := by
    unfold drainLeft
    rw [hdrain]
  obtain ⟨hmanager, hlt⟩ := managerLeft_set (m := g.manager) hs hle
  unfold left
  dsimp only
  rw [hsame]
  refine ⟨Nat.add_le_add_left hmanager _, fun rest hphase hless => ?_⟩
  exact Nat.add_lt_add_left (hlt rest hphase hless) _

/-- What a step leaves of a session counts when it is the one being stopped, and cancelled. -/
theorem left_stepSession {archive : Archive} {n : ℕ} (hs : g.sessions[n]? = some s)
    (hdrain : archive.drain = g.archive.drain)
    (h : sessionLeft s' ≤ sessionLeft s ∧ (s.cancelled = true → sessionLeft s' < sessionLeft s)) :
    left { g with archive, sessions := g.sessions.set n s' } ≤ left g ∧
      ((∃ rest s, g.manager.phase = .stopping (n :: rest) ∧ g.sessions[n]? = some s ∧
        s.cancelled = true) → left { g with archive, sessions := g.sessions.set n s' } < left g) := by
  obtain ⟨hle, hlt⟩ := left_setSession hs hdrain h.1
  refine ⟨hle, ?_⟩
  rintro ⟨rest, t, hphase, ht, hcancel⟩
  cases hs.symm.trans ht
  exact hlt rest hphase (h.2 hcancel)

theorem leftAt_pos (sessions : List HandlerTasks) (n : ℕ) : 0 < leftAt sessions n := by
  unfold leftAt
  cases sessions[n]? with
  | none => decide
  | some s =>
    show 0 < sessionLeft s
    unfold sessionLeft
    omega

/-- No step takes the end further away once a shutdown is requested, and every own step
brings it closer. -/
theorem Bounded.left_step (h : g.Bounded D) (hshutdown : g.manager.shutdown = true)
    (hl : ¬ l.Ends) (hs : Step D db F queuesThreshold servers g l g') :
    left g' ≤ left g ∧ (Own g l → left g' < left g) := by
  have hown : left g' < left g → left g' ≤ left g ∧ (Own g l → left g' < left g) :=
    fun hlt => ⟨hlt.le, fun _ => hlt⟩
  cases hs with
  | openCache hmain =>
    obtain ⟨htask, -⟩ := (hmain ▸ h.inv.phases).opening_inv
    refine hown ?_
    simp only [left, hmain, htask, mainLeft, drainLeft]
    omega
  | openCacheFails hmain =>
    refine hown (left_lt_of_main ?_)
    rw [hmain]
    decide
  | drainTick htask hrun => cases hrun.symm.trans hshutdown
  | drain q i e k htask hcall =>
    have hlt := drainLeft_lt h.drains (i := i) hcall
    refine hown ?_
    simp only [left, htask]
    omega
  | endDrain htask hend =>
    obtain ⟨harchive, hmanager, hsessions, hmain⟩ := endDrain_fields g
    have hlt := drainLeft_live g.archive (.inl (h.inv.endDrain_cases htask).1)
    refine hown ?_
    rw [left, left, harchive, hmanager, hsessions, hmain, htask]
    omega
  | endDrainTask htask hshutdown =>
    refine hown ?_
    simp only [left, htask, drainLeft]
    omega
  | receiveStatus successful clientCreated hmain hstatus =>
    refine hown (left_lt_of_main ?_)
    rw [hmain]
    cases successful <;> cases clientCreated <;> decide
  | receiveClosed hmain hstatus =>
    refine hown (left_lt_of_main ?_)
    rw [hmain]
    decide
  | managerTick m hmain hs =>
    cases hs with
    | tick hphase hrun => cases hrun.symm.trans hshutdown
  | manage l m hlm hmain hs =>
    obtain ⟨hle, hlt⟩ := h.managerLeft_manage hlm hs
    refine ⟨Nat.add_le_add_left hle _, fun ho => Nat.add_lt_add_left (hlt ?_) _⟩
    cases l with
    | fail | die | shutdown => exact ho.elim
    | tick | register | stop => exact hlm.elim
    | spawn | endTick | take | finish => trivial
  | register n v hn =>
    exact ⟨Nat.add_le_add_left (h.managerLeft_register hn _ _) _, fun ho => ho.elim⟩
  | cancel n rest s hmain hphase hs =>
    obtain ⟨ls, hr⟩ := h.installed s (List.mem_of_getElem? hs)
    obtain ⟨hle, hless⟩ := sessionLeft_cancel (HandlerTasks.run_inv hr).1
    obtain ⟨hleft, hlt⟩ := left_setSession hs (Eq.refl g.archive.drain) hle
    refine ⟨hleft, ?_⟩
    rintro ⟨m, rest', t, hphase', ht, hcancel⟩
    cases hphase.symm.trans hphase'
    cases hs.symm.trans ht
    exact hlt rest hphase (hless hcancel)
  | stop n rest s m hmain hphase hs hcancel hj hstop =>
    cases hstop with
    | stop session rest' hphase' =>
      have hpos := leftAt_pos g.sessions session
      refine hown ?_
      simp only [left, managerLeft, hphase', List.map_cons, List.sum_cons]
      omega
  | notify n value s hs hlive =>
    have hsame : sessionLeft (s.notify value) = sessionLeft s := by
      unfold HandlerTasks.notify
      split <;> rfl
    exact ⟨(left_setSession hs (Eq.refl g.archive.drain) hsame.le).1, fun ho => ho.elim⟩
  | task n l s s' hlt hs hstep => exact left_stepSession hs rfl (sessionLeft_task hlt hstep)
  | perform n s hd e k i hs hrun hcurrent hrest =>
    obtain ⟨ls, hr⟩ := h.installed s (List.mem_of_getElem? hs)
    exact left_stepSession hs rfl
      (sessionLeft_reply (HandlerTasks.run_inv hr).1 _ hrun hcurrent hrest)
  | leaveManager hmain hret =>
    refine hown (left_lt_of_main ?_)
    rw [hmain]
    decide
  | join hmain htask =>
    refine hown (left_lt_of_main ?_)
    rw [hmain]
    exact Nat.one_pos
  | exit ok applied hmain => exact absurd trivial hl
  | kill applied => exact absurd trivial hl

end Gateway

end LineGateway

import LineGateway.Opcua.SessionManager

/-! The sessions manager with its clock. Ticks are at least an interval apart, also after a
late one, and every attempt has a timeout, which takes effect with some lateness. As long as
the timeout and the lateness do not add up to an interval, the attempts of a tick are over at
the next one. So there is at most one attempt for a machine, none for a machine with a session,
and no session is ever replaced; and a shutdown that comes when no attempt is on its way
leaves no session behind. -/

namespace LineGateway.Opcua

open Foundation

/-- The interval for sessions management ticks, in milliseconds. -/
def managerTickInterval : ℕ := 5000

/-- The maximum time allowed for a session to be connected, in milliseconds. -/
def connectTimeout : ℕ := 2000

/-- The manager with the time, the last tick and when each attempt times out. -/
structure TimedManager where
  manager : SessionsManager
  now : ℕ
  lastTick : Option ℕ
  deadlines : List ℕ

namespace TimedManager

def initial : TimedManager := ⟨.initial, 0, none, []⟩

inductive Label
  | elapse (d : ℕ)
  | manage (l : SessionsManager.Label)

/-- The labels of the manager that neither begin nor end an attempt. -/
def Untimed : SessionsManager.Label → Prop
  | .endTick | .die _ | .shutdown | .take | .stop | .finish => True
  | _ => False

section Steps

variable (servers : List Text) (lateness : ℕ)

inductive Step : TimedManager → Label → TimedManager → Prop
  -- The body of the loop does not wait, and no attempt outlives its timeout by more.
  | elapse (s : TimedManager) (d : ℕ) (hphase : ∀ rest, s.manager.phase ≠ .spawning rest)
      (hprompt : ∀ t ∈ s.deadlines, s.now + d ≤ t + lateness) :
      Step s (.elapse d) { s with now := s.now + d }
  -- After a late tick the next one is delayed.
  | tick (s : TimedManager) (m : SessionsManager)
      (hdue : ∀ t, s.lastTick = some t → t + managerTickInterval ≤ s.now)
      (hs : SessionsManager.Step servers s.manager .tick m) :
      Step s (.manage .tick) { s with manager := m, lastTick := some s.now }
  | spawn (s : TimedManager) (m : SessionsManager)
      (hs : SessionsManager.Step servers s.manager .spawn m) :
      Step s (.manage .spawn)
        { s with manager := m, deadlines := s.deadlines ++ [s.now + connectTimeout] }
  | register (s : TimedManager) (n : ℕ) (m : SessionsManager)
      (hs : SessionsManager.Step servers s.manager (.register n) m) :
      Step s (.manage (.register n)) { s with manager := m, deadlines := s.deadlines.eraseIdx n }
  | fail (s : TimedManager) (n : ℕ) (m : SessionsManager)
      (hs : SessionsManager.Step servers s.manager (.fail n) m) :
      Step s (.manage (.fail n)) { s with manager := m, deadlines := s.deadlines.eraseIdx n }
  | untimed (s : TimedManager) (l : SessionsManager.Label) (m : SessionsManager) (hl : Untimed l)
      (hs : SessionsManager.Step servers s.manager l m) :
      Step s (.manage l) { s with manager := m }

end Steps

def Label.manager : Label → Option SessionsManager.Label
  | .elapse _ => none
  | .manage l => some l

/-- The machines for which an attempt is still to be spawned. -/
def pending (m : SessionsManager) : List Text :=
  match m.phase with
  | .spawning rest => rest
  | _ => []

/-- The machines with an attempt on its way or still to be spawned. -/
def attempted (m : SessionsManager) : List Text := m.attempts ++ pending m

/-! ### The invariant -/

/-- The attempts are those of the last tick, no two for one machine, and none for a machine
with a session. -/
structure Inv (lateness : ℕ) (s : TimedManager) : Prop where
  aligned : s.deadlines.length = s.manager.attempts.length
  spawning : ∀ rest, s.manager.phase = .spawning rest → s.lastTick = some s.now
  deadlines : ∀ d ∈ s.deadlines, s.now ≤ d + lateness ∧
    ∃ t, s.lastTick = some t ∧ d ≤ t + connectTimeout
  nodup : (attempted s.manager).Nodup
  apart : ∀ id ∈ attempted s.manager, s.manager.registry.get id = none

section Invariant

variable {servers : List Text} {lateness : ℕ} {s s' : TimedManager} {l : Label} {ls : List Label}
  {m : SessionsManager} {l' : SessionsManager.Label}

theorem Step.manager_step (hs : Step servers lateness s l s') :
    Run.OptStep (SessionsManager.Step servers) s.manager l.manager s'.manager := by
  cases hs with
  | elapse => rfl
  | tick m hdue hs => exact hs
  | spawn m hs => exact hs
  | register n m hs => exact hs
  | fail n m hs => exact hs
  | untimed l m hl hs => exact hs

/-- At a tick, the attempts of the last one are over. -/
theorem Inv.no_attempts (h : s.Inv lateness) (hlate : lateness + connectTimeout < managerTickInterval)
    (hdue : ∀ t, s.lastTick = some t → t + managerTickInterval ≤ s.now) :
    s.manager.attempts = [] := by
  have hnone : s.deadlines = [] := by
    apply List.eq_nil_iff_forall_not_mem.mpr
    intro d hd
    obtain ⟨hnow, t, ht, hle⟩ := h.deadlines d hd
    have hpast := hdue t ht
    omega
  have hlength := h.aligned
  rw [hnone] at hlength
  exact List.length_eq_zero_iff.mp hlength.symm

theorem Inv.tick (h : s.Inv lateness) (hservers : servers.Nodup)
    (hlate : lateness + connectTimeout < managerTickInterval)
    (hdue : ∀ t, s.lastTick = some t → t + managerTickInterval ≤ s.now) :
    Inv lateness { s with manager := s.manager.tick servers, lastTick := some s.now } := by
  have hnone := h.no_attempts hlate hdue
  have hdeadlines : s.deadlines = [] := List.length_eq_zero_iff.mp (by rw [h.aligned, hnone]; rfl)
  have hattempted : attempted (s.manager.tick servers) = servers.filter fun id =>
      !(s.manager.registry.retain fun _ session => !s.manager.isFinished session).keys.contains id := by
    simp [attempted, pending, SessionsManager.tick, hnone]
  constructor
  · simpa [SessionsManager.tick] using h.aligned
  · exact fun _ _ => rfl
  · simp [hdeadlines]
  · rw [hattempted]
    exact hservers.filter _
  · rw [hattempted]
    intro id hid
    have hfree := (List.mem_filter.mp hid).2
    refine Table.get_eq_none_iff.mpr ?_
    simpa [SessionsManager.tick] using hfree

/-- An attempt that registers has no other one of its machine beside it. -/
theorem Inv.register (h : s.Inv lateness) {n : ℕ} {id : Text}
    (hn : s.manager.attempts[n]? = some id) :
    Inv lateness { s with manager := s.manager.register n id, deadlines := s.deadlines.eraseIdx n } := by
  obtain ⟨haligned, hspawning, hdeadlines, hnodup, hapart⟩ := h
  obtain ⟨hlt, hget⟩ := List.getElem?_eq_some_iff.mp hn
  have hperm : (attempted s.manager).Perm (id :: attempted (s.manager.register n id)) :=
    ((hget ▸ List.getElem_cons_eraseIdx_perm hlt).append_right (pending s.manager)).symm
  obtain ⟨hnot, hrest⟩ := List.nodup_cons.mp (hperm.nodup_iff.mp hnodup)
  constructor
  · simp [SessionsManager.register, List.length_eraseIdx, haligned]
  · exact hspawning
  · exact fun d hd => hdeadlines d (List.mem_of_mem_eraseIdx hd)
  · exact hrest
  · intro id' hid'
    have hne : id' ≠ id := fun heq => hnot (heq ▸ hid')
    have hold := hapart id' (hperm.mem_iff.mpr (List.mem_cons_of_mem _ hid'))
    exact (Table.get_insert_of_ne hne _).trans hold

theorem Inv.fail (h : s.Inv lateness) (n : ℕ) :
    Inv lateness { s with
      manager := { s.manager with attempts := s.manager.attempts.eraseIdx n }
      deadlines := s.deadlines.eraseIdx n } := by
  have hsublist : (attempted { s.manager with attempts := s.manager.attempts.eraseIdx n }).Sublist
      (attempted s.manager) := (List.eraseIdx_sublist _ n).append_right _
  refine ⟨?_, h.spawning, fun d hd => h.deadlines d (List.mem_of_mem_eraseIdx hd),
    h.nodup.sublist hsublist, fun id hid => h.apart id (hsublist.subset hid)⟩
  simp [List.length_eraseIdx, h.aligned]

theorem Inv.spawn (h : s.Inv lateness) {id : Text} {rest : List Text}
    (hphase : s.manager.phase = .spawning (id :: rest)) :
    Inv lateness { s with
      manager := { s.manager with attempts := s.manager.attempts ++ [id], phase := .spawning rest }
      deadlines := s.deadlines ++ [s.now + connectTimeout] } := by
  have hlast := h.spawning _ hphase
  have hsame : attempted { s.manager with attempts := s.manager.attempts ++ [id]
                                          phase := .spawning rest } = attempted s.manager := by
    simp [attempted, pending, hphase]
  refine ⟨by simp [h.aligned], fun _ _ => hlast, fun d hd => ?_, ?_, ?_⟩
  · rcases List.mem_append.mp hd with hd | hd
    · exact h.deadlines d hd
    · rw [List.mem_singleton.mp hd]
      exact ⟨by dsimp only; omega, s.now, hlast, le_rfl⟩
  · rw [hsame]
    exact h.nodup
  · rw [hsame]
    exact h.apart

/-- The manager goes on to a phase in which it spawns no attempt. -/
theorem Inv.setPhase (h : s.Inv lateness) (hattempts : m.attempts = s.manager.attempts)
    (hpending : pending m = pending s.manager) (hphase : ∀ rest, m.phase ≠ .spawning rest)
    (hregistry : m.registry = s.manager.registry ∨ m.registry = .empty) :
    Inv lateness { s with manager := m } := by
  have hsame : attempted m = attempted s.manager := by rw [attempted, attempted, hattempts, hpending]
  refine ⟨by rw [hattempts]; exact h.aligned, fun rest hrest => absurd hrest (hphase rest),
    h.deadlines, hsame ▸ h.nodup, fun id hid => ?_⟩
  rcases hregistry with hregistry | hregistry
  · rw [hregistry]
    exact h.apart id (hsame ▸ hid)
  · rw [hregistry]
    rfl

theorem Inv.untimed (h : s.Inv lateness) (hl : Untimed l')
    (hs : SessionsManager.Step servers s.manager l' m) : Inv lateness { s with manager := m } := by
  cases hs with
  | tick | spawn | register | fail => exact hl.elim
  | die | shutdown => exact ⟨h.aligned, h.spawning, h.deadlines, h.nodup, h.apart⟩
  | endTick hphase => exact h.setPhase rfl (by simp [pending, hphase]) (by simp) (.inl rfl)
  | take hphase hshutdown => exact h.setPhase rfl (by simp [pending, hphase]) (by simp) (.inr rfl)
  | stop session rest hphase => exact h.setPhase rfl (by simp [pending, hphase]) (by simp) (.inl rfl)
  | finish hphase => exact h.setPhase rfl (by simp [pending, hphase]) (by simp) (.inl rfl)

theorem Inv.step (h : s.Inv lateness) (hservers : servers.Nodup)
    (hlate : lateness + connectTimeout < managerTickInterval) (hs : Step servers lateness s l s') :
    s'.Inv lateness := by
  cases hs with
  | elapse d hphase hprompt =>
    refine ⟨h.aligned, fun rest hrest => absurd hrest (hphase rest), fun t ht => ?_, h.nodup, h.apart⟩
    exact ⟨hprompt t ht, (h.deadlines t ht).2⟩
  | tick m hdue hs =>
    cases hs
    exact h.tick hservers hlate hdue
  | spawn m hs =>
    cases hs with
    | spawn id rest hphase => exact h.spawn hphase
  | register n m hs =>
    cases hs with
    | register n id hn => exact h.register hn
  | fail n m hs =>
    cases hs
    exact h.fail n
  | untimed l m hl hs => exact h.untimed hl hs

theorem initial_inv : initial.Inv lateness where
  aligned := rfl
  spawning _ hrest := nomatch hrest
  deadlines _ hd := nomatch hd
  nodup := .nil
  apart _ hid := nomatch hid

theorem run_inv (hr : Run (Step servers lateness) initial ls s) (hservers : servers.Nodup)
    (hlate : lateness + connectTimeout < managerTickInterval) : s.Inv lateness :=
  hr.invariant (fun _ _ _ h hs => h.step hservers hlate hs) initial_inv

/-! ### The shutdown -/

/-- The registry is taken when no attempt is on its way. -/
def QuietTake (s : TimedManager) : Label → Prop
  | .manage .take => s.manager.attempts = []
  | _ => True

/-- No attempt is on its way after the take. -/
def Quiet (s : TimedManager) : Prop := ¬ s.manager.BeforeTake → s.manager.attempts = []

theorem Quiet.step (h : s.Quiet) (hs : guarded (Step servers lateness) QuietTake s l s') :
    s'.Quiet := by
  obtain ⟨hs, hok⟩ := hs
  cases hs with
  | elapse => exact h
  | tick m hdue hs =>
    cases hs
    exact fun hafter => absurd (.inr ⟨_, rfl⟩) hafter
  | spawn m hs =>
    cases hs
    exact fun hafter => absurd (.inr ⟨_, rfl⟩) hafter
  | register n m hs =>
    cases hs with
    | register n id hn =>
      intro hafter
      rw [h hafter] at hn
      cases hn
  | fail n m hs =>
    cases hs
    intro hafter
    show s.manager.attempts.eraseIdx n = []
    rw [h hafter]
    rfl
  | untimed l m hl hs =>
    cases hs with
    | tick | spawn | register | fail => exact hl.elim
    | die | shutdown => exact h
    | endTick hphase => exact fun hafter => absurd (.inl rfl) hafter
    | take hphase hshutdown => exact fun _ => hok
    | stop session rest hphase =>
      exact fun _ => h (SessionsManager.not_beforeTake (.inr ⟨_, hphase⟩))
    | finish hphase => exact fun _ => h (SessionsManager.not_beforeTake (.inr ⟨_, hphase⟩))

/-- A step of the clocked manager is one whose attempts register in time. -/
theorem Inv.inTime (h : s.Inv lateness) (hquiet : s.Quiet) (hs : Step servers lateness s l s') :
    Run.OptStep (guarded (SessionsManager.Step servers) SessionsManager.InTime) s.manager l.manager
      s'.manager := by
  have hstep := hs.manager_step
  cases hs with
  | elapse => exact hstep
  | register n m hs =>
    refine ⟨hstep, ?_, fun id session hn hget => ?_⟩
    · by_contra hafter
      cases hs with
      | register n id hn =>
        rw [hquiet hafter] at hn
        cases hn
    · have hmem : id ∈ attempted s.manager := List.mem_append_left _ (List.mem_of_getElem? hn)
      cases (h.apart id hmem).symm.trans hget
  | untimed l m hl hs =>
    refine ⟨hstep, ?_⟩
    cases hs with
    | finish hphase => exact hquiet (SessionsManager.not_beforeTake (.inr ⟨_, hphase⟩))
    | tick | spawn | register | fail => exact hl.elim
    | _ => trivial
  | _ => exact ⟨hstep, trivial⟩

theorem run_inTime (hr : Run (guarded (Step servers lateness) QuietTake) initial ls s)
    (hservers : servers.Nodup) (hlate : lateness + connectTimeout < managerTickInterval) :
    Run (guarded (SessionsManager.Step servers) SessionsManager.InTime) .initial
      (ls.filterMap Label.manager) s.manager := by
  have hr' := hr.strengthen (I := fun s => s.Inv lateness ∧ s.Quiet)
    (fun _ _ _ h hs => ⟨h.1.step hservers hlate hs.1, h.2.step hs⟩)
    ⟨initial_inv, fun hafter => absurd (.inl rfl) hafter⟩
  exact hr'.filterMap manager Label.manager fun _ _ _ hs => hs.2.1.inTime hs.2.2 hs.1.1

end Invariant

/-- If an attempt is over less than an interval after the tick it comes from, then in every run
no two attempts are for one machine and none is for a machine with a session; and a manager
whose shutdown takes the registry between the attempts leaves no session behind. -/
theorem attempts_timely {ν : Type*} (machines : Table Text ν) {lateness : ℕ}
    (hlate : lateness + connectTimeout < managerTickInterval) :
    (∀ ls s, Run (Step machines.keys lateness) initial ls s →
      s.manager.attempts.Nodup ∧ ∀ id ∈ s.manager.attempts, s.manager.registry.get id = none) ∧
    ∀ ls s, Run (guarded (Step machines.keys lateness) QuietTake) initial ls s →
      s.manager.phase = .returned → SessionsManager.LeavesNone machines.keys s.manager := by
  refine ⟨fun ls s hr => ?_, fun ls s hr hret => ?_⟩
  · have hinv := run_inv hr machines.keys_nodup hlate
    refine ⟨(List.nodup_append.mp hinv.nodup).1, fun id hid => ?_⟩
    exact hinv.apart id (List.mem_append_left _ hid)
  · exact SessionsManager.leavesNone_of_inTime (run_inTime hr machines.keys_nodup hlate) hret

/-- A machine that is connected to at its second attempt. -/
def retriedLabels : List Label :=
  [.manage .tick, .manage .spawn, .manage .endTick, .elapse 2100, .manage (.fail 0), .elapse 2900,
    .manage .tick, .manage .spawn, .manage .endTick, .elapse 40, .manage (.register 0),
    .manage .shutdown, .manage .take, .manage .stop, .manage .finish]

theorem attempts_timely_retried : ∃ s : TimedManager,
    Run (guarded (Step (Table.empty.insert "M1".toList ()).keys 100) QuietTake) initial retriedLabels s ∧
      s.now = 5040 ∧ s.manager.stopped = [0] ∧
        SessionsManager.LeavesNone (Table.empty.insert "M1".toList ()).keys s.manager := by
  have hrun : ∃ s : TimedManager, Run (guarded (Step (Table.empty.insert "M1".toList ()).keys 100)
      QuietTake) initial retriedLabels s ∧ s.now = 5040 ∧ s.manager.stopped = [0] ∧
        s.manager.phase = .returned :=
    ⟨_, .cons ⟨.tick _ _ (by simp [initial]) (.tick _ rfl rfl), trivial⟩ <|
      .cons ⟨.spawn _ _ (.spawn _ _ _ rfl), trivial⟩ <|
      .cons ⟨.untimed _ _ _ trivial (.endTick _ rfl), trivial⟩ <|
      .cons ⟨.elapse _ _ (by simp) (by simp [initial, connectTimeout]), trivial⟩ <|
      .cons ⟨.fail _ 0 _ (.fail _ 0), trivial⟩ <|
      .cons ⟨.elapse _ _ (by simp) (by simp [initial]), trivial⟩ <|
      .cons ⟨.tick _ _ (by simp [initial, managerTickInterval]) (.tick _ rfl rfl), trivial⟩ <|
      .cons ⟨.spawn _ _ (.spawn _ _ _ rfl), trivial⟩ <|
      .cons ⟨.untimed _ _ _ trivial (.endTick _ rfl), trivial⟩ <|
      .cons ⟨.elapse _ _ (by simp) (by simp [initial, connectTimeout]), trivial⟩ <|
      .cons ⟨.register _ 0 _ (.register _ 0 _ rfl), trivial⟩ <|
      .cons ⟨.untimed _ _ _ trivial (.shutdown _), trivial⟩ <|
      .cons ⟨.untimed _ _ _ trivial (.take _ rfl rfl), rfl⟩ <|
      .cons ⟨.untimed _ _ _ trivial (.stop _ _ _ rfl), trivial⟩ <|
      .cons ⟨.untimed _ _ _ trivial (.finish _ rfl), trivial⟩ <| .nil _, rfl, rfl, rfl⟩
  obtain ⟨s, hr, hnow, hstopped, hret⟩ := hrun
  exact ⟨s, hr, hnow, hstopped, (attempts_timely _ (by decide)).2 _ s hr hret⟩

end TimedManager

end LineGateway.Opcua

import LineGateway.Foundation.Run
import LineGateway.Foundation.Table
import LineGateway.Foundation.Text
import Mathlib.Data.Char
import Mathlib.Data.List.Lex

/-! The manager of the sessions. On every tick it drops the dead sessions of the registry
and spawns an attempt for each machine without a session; attempts are tasks of their own
and register their session when they succeed. On shutdown the registry is taken and its
sessions are stopped one after the other. Proved: no session is left behind as long as no
attempt registers after the take or over a live session of its machine, and none is on its
way when the manager returns. -/

namespace LineGateway.Opcua

open Foundation

/-- Where the manager is. -/
inductive ManagerPhase
  | ticking
  /-- In a tick, with the servers still to be spawned. -/
  | spawning (servers : List Text)
  /-- After the take, with the sessions still to be stopped. -/
  | stopping (sessions : List ℕ)
  | returned
  deriving DecidableEq

/-- The sessions taken that are still to be stopped. -/
def ManagerPhase.taken : ManagerPhase → List ℕ
  | .stopping sessions => sessions
  | _ => []

/-- The state that the manager shares with the attempts. Sessions are numbered in the order
they are registered; those that have been stopped or dropped as dead are recorded. -/
structure SessionsManager where
  registry : Table Text ℕ
  attempts : List Text
  phase : ManagerPhase
  shutdown : Bool
  registered : ℕ
  finished : List ℕ
  stopped : List ℕ
  droppedDead : List ℕ

namespace SessionsManager

def initial : SessionsManager := ⟨.empty, [], .ticking, false, 0, [], [], []⟩

inductive Label
  | tick
  | spawn
  | endTick
  | register (n : ℕ)
  | fail (n : ℕ)
  | die (session : ℕ)
  | shutdown
  | take
  | stop
  | finish

/-- Whether the event loop of the session has finished. -/
def isFinished (s : SessionsManager) (session : ℕ) : Bool := s.finished.contains session

/-- Drop dead sessions, and list the servers without a session. -/
def tick (servers : List Text) (s : SessionsManager) : SessionsManager :=
  let running := s.registry.retain fun _ session => !s.isFinished session
  { s with
    registry := running
    phase := .spawning (servers.filter fun id => !running.keys.contains id)
    droppedDead := s.droppedDead ++ s.registry.values.filter s.isFinished }

/-- The session of a server that is dropped when another one is registered for it. -/
def replacedDead (s : SessionsManager) (serverId : Text) : List ℕ :=
  (s.registry.get serverId).toList.filter s.isFinished

/-- Store the session of an attempt in the registry. -/
def register (s : SessionsManager) (n : ℕ) (serverId : Text) : SessionsManager :=
  { s with
    registry := s.registry.insert serverId s.registered
    attempts := s.attempts.eraseIdx n
    registered := s.registered + 1
    droppedDead := s.droppedDead ++ s.replacedDead serverId }

variable (servers : List Text)

inductive Step : SessionsManager → Label → SessionsManager → Prop
  -- The stream of ticks ends with the shutdown, at the head of the loop.
  | tick (s : SessionsManager) (hphase : s.phase = .ticking) (hrun : s.shutdown = false) :
      Step s .tick (s.tick servers)
  | spawn (s : SessionsManager) (id : Text) (rest : List Text)
      (hphase : s.phase = .spawning (id :: rest)) :
      Step s .spawn { s with attempts := s.attempts ++ [id], phase := .spawning rest }
  | endTick (s : SessionsManager) (hphase : s.phase = .spawning []) :
      Step s .endTick { s with phase := .ticking }
  | register (s : SessionsManager) (n : ℕ) (id : Text) (hn : s.attempts[n]? = some id) :
      Step s (.register n) (s.register n id)
  -- An attempt ends with an error or its timeout.
  | fail (s : SessionsManager) (n : ℕ) : Step s (.fail n) { s with attempts := s.attempts.eraseIdx n }
  | die (s : SessionsManager) (session : ℕ) (hlt : session < s.registered) :
      Step s (.die session) { s with finished := session :: s.finished }
  | shutdown (s : SessionsManager) : Step s .shutdown { s with shutdown := true }
  | take (s : SessionsManager) (hphase : s.phase = .ticking) (hshutdown : s.shutdown = true) :
      Step s .take { s with phase := .stopping s.registry.values, registry := .empty }
  | stop (s : SessionsManager) (session : ℕ) (rest : List ℕ)
      (hphase : s.phase = .stopping (session :: rest)) :
      Step s .stop
        { s with
          phase := .stopping rest
          finished := session :: s.finished
          stopped := s.stopped ++ [session] }
  | finish (s : SessionsManager) (hphase : s.phase = .stopping []) :
      Step s .finish { s with phase := .returned }

/-- Whether the registry has not been taken yet. -/
def BeforeTake (s : SessionsManager) : Prop :=
  s.phase = .ticking ∨ ∃ rest, s.phase = .spawning rest

/-- An attempt registers before the take, and over no live session of its server; none is
on its way when the manager returns. -/
def InTime (s : SessionsManager) : Label → Prop
  | .register n => s.BeforeTake ∧ ∀ id session, s.attempts[n]? = some id →
      s.registry.get id = some session → s.isFinished session
  | .finish => s.attempts = []
  | _ => True

/-- Every session registered is stopped, dropped as dead, in the registry or taken. -/
def Accounted (s : SessionsManager) : Prop :=
  ∀ n < s.registered,
    n ∈ s.stopped ∨ n ∈ s.droppedDead ∨ n ∈ s.registry.values ∨ n ∈ s.phase.taken

/-- After the take the registry stays empty, and after the return no attempt is left. -/
structure Closed (s : SessionsManager) : Prop where
  empty : ¬ s.BeforeTake → s.registry = .empty
  returned : s.phase = .returned → s.attempts = []

section Invariant

variable {servers} {s s' : SessionsManager} {l : Label} {ls : List Label}

/-- A session leaves the registry on a tick only when it is dropped as dead. -/
theorem Accounted.tick (h : Accounted s) (hphase : s.phase = .ticking) :
    Accounted (s.tick servers) := by
  intro n hn
  have hn' := h n hn
  rw [hphase] at hn'
  rcases hn' with hs | hs | hs | hs
  · exact .inl hs
  · exact .inr (.inl (List.mem_append_left _ hs))
  · right
    cases hfin : s.isFinished n with
    | true => exact .inl (List.mem_append_right _ (List.mem_filter.mpr ⟨hs, hfin⟩))
    | false =>
      obtain ⟨e, he, rfl⟩ := List.mem_map.mp hs
      exact .inr (.inl (List.mem_map_of_mem (List.mem_filter.mpr ⟨he, by simp [hfin]⟩)))
  · cases hs

/-- A session is replaced in the registry only when it is dead. -/
theorem Accounted.register (h : Accounted s) {n : ℕ} {id : Text}
    (hdead : ∀ session, s.registry.get id = some session → s.isFinished session) :
    Accounted (s.register n id) := by
  intro m hm
  rcases Nat.lt_succ_iff_lt_or_eq.mp hm with hm | rfl
  · rcases h m hm with hs | hs | hs | hs
    · exact .inl hs
    · exact .inr (.inl (List.mem_append_left _ hs))
    · right
      obtain ⟨⟨key, session⟩, he, rfl⟩ := List.mem_map.mp hs
      by_cases hkey : key = id
      · subst hkey
        have hget : s.registry.get key = some session := Table.get_eq_some_iff.mpr he
        refine .inl (List.mem_append_right _ ?_)
        rw [replacedDead, hget]
        exact List.mem_filter.mpr ⟨List.mem_singleton_self _, hdead session hget⟩
      · refine .inr (.inl (List.mem_map.mpr ⟨(key, session), ?_, rfl⟩))
        exact Table.mem_insert.mpr (.inr ⟨he, hkey⟩)
    · exact .inr (.inr (.inr hs))
  · refine .inr (.inr (.inl (List.mem_map.mpr ⟨(id, s.registered), ?_, rfl⟩)))
    exact Table.mem_insert.mpr (.inl rfl)

theorem Accounted.step (h : Accounted s) (hs : guarded (Step servers) InTime s l s') :
    Accounted s' := by
  obtain ⟨hs, hok⟩ := hs
  cases hs with
  | tick hphase hrun => exact h.tick hphase
  | spawn id rest hphase =>
    intro n hn
    have hn' := h n hn
    rwa [hphase] at hn'
  | endTick hphase =>
    intro n hn
    have hn' := h n hn
    rwa [hphase] at hn'
  | register n id hn => exact h.register fun session => hok.2 id session hn
  | fail n => exact h
  | die session hlt => exact h
  | shutdown => exact h
  | take hphase hshutdown =>
    intro n hn
    have hn' := h n hn
    rw [hphase] at hn'
    rcases hn' with hs | hs | hs | hs
    · exact .inl hs
    · exact .inr (.inl hs)
    · exact .inr (.inr (.inr hs))
    · cases hs
  | stop session rest hphase =>
    intro n hn
    have hn' := h n hn
    rw [hphase] at hn'
    rcases hn' with hs | hs | hs | hs
    · exact .inl (List.mem_append_left _ hs)
    · exact .inr (.inl hs)
    · exact .inr (.inr (.inl hs))
    · rcases List.mem_cons.mp hs with rfl | hs
      · exact .inl (List.mem_append_right _ (List.mem_singleton_self n))
      · exact .inr (.inr (.inr hs))
  | finish hphase =>
    intro n hn
    have hn' := h n hn
    rwa [hphase] at hn'

theorem not_beforeTake
    (hafter : s.phase = .returned ∨ ∃ sessions, s.phase = .stopping sessions) :
    ¬ s.BeforeTake := by
  rintro (hb | ⟨_, hb⟩)
  · rw [hb] at hafter
    rcases hafter with h | ⟨_, h⟩ <;> cases h
  · rw [hb] at hafter
    rcases hafter with h | ⟨_, h⟩ <;> cases h

theorem Closed.step (h : Closed s) (hs : guarded (Step servers) InTime s l s') : Closed s' := by
  obtain ⟨hs, hok⟩ := hs
  cases hs with
  | tick hphase hrun => exact ⟨fun hno => absurd (.inr ⟨_, rfl⟩) hno, fun hret => nomatch hret⟩
  | spawn id rest hphase => exact ⟨fun hno => absurd (.inr ⟨_, rfl⟩) hno, fun hret => nomatch hret⟩
  | endTick hphase => exact ⟨fun hno => absurd (.inl rfl) hno, fun hret => nomatch hret⟩
  | register n id hn =>
    refine ⟨fun hno => absurd hok.1 hno, fun hret => ?_⟩
    rw [h.returned hret] at hn
    cases hn
  | fail n =>
    refine ⟨h.empty, fun hret => ?_⟩
    show s.attempts.eraseIdx n = []
    rw [h.returned hret]
    rfl
  | die session hlt => exact ⟨h.empty, h.returned⟩
  | shutdown => exact ⟨h.empty, h.returned⟩
  | take hphase hshutdown => exact ⟨fun _ => rfl, fun hret => nomatch hret⟩
  | stop session rest hphase =>
    exact ⟨fun _ => h.empty (not_beforeTake (.inr ⟨_, hphase⟩)), fun hret => nomatch hret⟩
  | finish hphase => exact ⟨fun _ => h.empty (not_beforeTake (.inr ⟨_, hphase⟩)), fun _ => hok⟩

theorem run_accounted (hr : Run (guarded (Step servers) InTime) initial ls s) :
    Accounted s ∧ Closed s :=
  hr.invariant (I := fun s => Accounted s ∧ Closed s)
    (fun _ _ _ h hs => ⟨h.1.step hs, h.2.step hs⟩)
    ⟨fun n hn => absurd hn n.not_lt_zero, fun hno => absurd (.inl rfl) hno, fun _ => rfl⟩

/-- Once the manager has returned with no attempt on its way, nothing registers. -/
theorem Step.after_return (hs : Step servers s l s')
    (h : s.phase = .returned ∧ s.attempts = []) :
    (s'.phase = .returned ∧ s'.attempts = []) ∧ s'.registered = s.registered := by
  obtain ⟨hret, hattempts⟩ := h
  cases hs with
  | tick hphase | spawn _ _ hphase | endTick hphase | take hphase | stop _ _ hphase
  | finish hphase =>
    rw [hphase] at hret
    cases hret
  | register n id hn =>
    rw [hattempts] at hn
    cases hn
  | fail n => exact ⟨⟨hret, by rw [hattempts]; rfl⟩, rfl⟩
  | die session hlt => exact ⟨⟨hret, hattempts⟩, rfl⟩
  | shutdown => exact ⟨⟨hret, hattempts⟩, rfl⟩

theorem run_after_return (hr : Run (Step servers) s ls s')
    (h : s.phase = .returned ∧ s.attempts = []) : s'.registered = s.registered := by
  have hinv := hr.invariant (I := fun t =>
      (t.phase = .returned ∧ t.attempts = []) ∧ t.registered = s.registered)
    (fun _ _ _ ht hs => ⟨(hs.after_return ht.1).1, (hs.after_return ht.1).2.trans ht.2⟩) ⟨h, rfl⟩
  exact hinv.2

end Invariant

/-! ### The shutdown -/

/-- Every session ever registered has been stopped or had been dropped as dead, and
whatever the attempts do, no other one is registered. -/
structure LeavesNone (s : SessionsManager) : Prop where
  stopped : ∀ n < s.registered, n ∈ s.stopped ∨ n ∈ s.droppedDead
  final : ∀ ls s', Run (Step servers) s ls s' → s'.registered = s.registered

/-- A manager whose attempts register in time leaves no session behind when it returns. -/
theorem leavesNone_of_inTime {servers : List Text} {s : SessionsManager} {ls : List Label}
    (hr : Run (guarded (Step servers) InTime) initial ls s) (hret : s.phase = .returned) :
    LeavesNone servers s := by
  obtain ⟨haccounted, hclosed⟩ := run_accounted hr
  refine ⟨fun n hn => ?_, fun ls s' hr' => run_after_return hr' ⟨hret, hclosed.returned hret⟩⟩
  have hn' := haccounted n hn
  rw [hclosed.empty (not_beforeTake (.inl hret)), hret] at hn'
  rcases hn' with hs | hs | hs | hs
  · exact .inl hs
  · exact .inr hs
  · cases hs
  · cases hs

/-- A machine is spawned, the shutdown comes, and the registry is taken. -/
def takenEarly : List Label := [.tick, .spawn, .endTick, .shutdown, .take]

/-- An attempt that registers after the take leaves its session behind. -/
theorem registered_late_left : ∃ s : SessionsManager,
    Run (Step ["M1".toList]) initial (takenEarly ++ [.register 0, .finish]) s ∧
      s.phase = .returned ∧ ¬ LeavesNone ["M1".toList] s := by
  refine ⟨_, .cons (.tick _ rfl rfl) <| .cons (.spawn _ _ _ rfl) <| .cons (.endTick _ rfl) <|
    .cons (.shutdown _) <| .cons (.take _ rfl rfl) <| .cons (.register _ 0 _ rfl) <|
    .cons (.finish _ rfl) <| .nil _, rfl, fun h => ?_⟩
  rcases h.stopped 0 Nat.one_pos with hs | hs <;> cases hs

/-- A session dropped as dead, and one registered in its place and stopped. -/
theorem leavesNone_of_inTime_restarted : ∃ s : SessionsManager,
    Run (guarded (Step ["M1".toList]) InTime) initial
        [.tick, .spawn, .endTick, .register 0, .die 0, .tick, .spawn, .register 0, .endTick,
          .shutdown, .take, .stop, .finish] s ∧
      s.registered = 2 ∧ s.droppedDead = [0] ∧ s.stopped = [1] ∧ LeavesNone ["M1".toList] s := by
  have hrun : ∃ s : SessionsManager, Run (guarded (Step ["M1".toList]) InTime) initial
      [.tick, .spawn, .endTick, .register 0, .die 0, .tick, .spawn, .register 0, .endTick,
        .shutdown, .take, .stop, .finish] s ∧
      s.registered = 2 ∧ s.droppedDead = [0] ∧ s.stopped = [1] ∧ s.phase = .returned :=
    ⟨_, .cons ⟨.tick _ rfl rfl, trivial⟩ <| .cons ⟨.spawn _ _ _ rfl, trivial⟩ <|
      .cons ⟨.endTick _ rfl, trivial⟩ <|
      .cons ⟨.register _ 0 _ rfl, .inl rfl, fun id n hid hn => by cases hn⟩ <|
      .cons ⟨.die _ 0 Nat.one_pos, trivial⟩ <| .cons ⟨.tick _ rfl rfl, trivial⟩ <|
      .cons ⟨.spawn _ _ _ rfl, trivial⟩ <|
      .cons ⟨.register _ 0 _ rfl, .inr ⟨_, rfl⟩, fun id n hid hn => by cases hn⟩ <|
      .cons ⟨.endTick _ rfl, trivial⟩ <| .cons ⟨.shutdown _, trivial⟩ <|
      .cons ⟨.take _ rfl rfl, trivial⟩ <| .cons ⟨.stop _ _ _ rfl, trivial⟩ <|
      .cons ⟨.finish _ rfl, rfl⟩ <| .nil _, rfl, rfl, rfl, rfl⟩
  obtain ⟨s, hr, hregistered, hdropped, hstopped, hret⟩ := hrun
  exact ⟨s, hr, hregistered, hdropped, hstopped, leavesNone_of_inTime hr hret⟩

end SessionsManager

end LineGateway.Opcua

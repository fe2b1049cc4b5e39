import LineGateway.Traceability.Sequence

/-! The times of saves. A save is stamped when it starts, then encodes its part sheets, and
is committed later, while other saves are on their way on other threads. The order of the
stamps is that of the commits, and so the archive and the cache agree on the latest version
of every part, as long as no save commits that was overtaken: one during which a save
stamped later has committed. -/

namespace LineGateway.Traceability

open Foundation Config

variable {V : VariantCodec}

/-- A save that is stamped and not committed yet. -/
structure PendingSave (V : VariantCodec) where
  call : SaveCall V
  overtaken : Bool

/-- The queues with the clock and the saves on their way. -/
structure Stamping (V : VariantCodec) where
  queue : QueueRun V
  clock : Timestamp
  pending : List (PendingSave V)

namespace Stamping

def initial : Stamping V := ⟨.initial, 0, []⟩

/-- A save that commits overtakes the saves on their way that are stamped before it. -/
def overtakenBy (committed : List (SaveCall V)) (p : PendingSave V) : PendingSave V :=
  { p with overtaken := p.overtaken || committed.any fun c => p.call.now < c.now }

inductive Label (V : VariantCodec)
  | tick (time : Timestamp)
  | stamp (c : SaveCall V)
  | commit (n : ℕ) (faults : Faults)
  | fail (n : ℕ) (faults : Faults)
  | remove (q : QueueTable) (keys : List ℕ) (faults : Faults)
  | restart

variable (F : RowFormat)

/-- The end of a save: its transaction, or the error of its encoding. -/
def finish (s : Stamping V) (n : ℕ) (c : SaveCall V) (faults : Faults) : Stamping V :=
  { s with
    queue := s.queue.next F (.save c faults)
    pending := (s.pending.eraseIdx n).map (overtakenBy (c.committed F faults s.queue.store)) }

inductive Step : Stamping V → Label V → Stamping V → Prop
  | tick (s : Stamping V) (time : Timestamp) (htime : s.clock ≤ time) :
      Step s (.tick time) { s with clock := time }
  | stamp (s : Stamping V) (c : SaveCall V) (hnow : c.now = s.clock) :
      Step s (.stamp c) { s with pending := s.pending ++ [⟨c, false⟩] }
  | commit (s : Stamping V) (n : ℕ) (c : SaveCall V) (overtaken : Bool) (faults : Faults)
      (hn : s.pending[n]? = some ⟨c, overtaken⟩)
      (hok : (c.run F faults s.queue.store).1 = .returned ()) :
      Step s (.commit n faults) (s.finish F n c faults)
  | fail (s : Stamping V) (n : ℕ) (c : SaveCall V) (overtaken : Bool) (faults : Faults)
      (hn : s.pending[n]? = some ⟨c, overtaken⟩)
      (hfail : (c.run F faults s.queue.store).1 ≠ .returned ()) :
      Step s (.fail n faults) (s.finish F n c faults)
  | remove (s : Stamping V) (q : QueueTable) (keys : List ℕ) (faults : Faults) :
      Step s (.remove q keys faults) { s with queue := s.queue.next F (.remove q keys faults) }
  | restart (s : Stamping V) : Step s .restart { s with pending := [] }

/-- A save commits only if it was not overtaken, and while sequence numbers are left. -/
def InOrder (s : Stamping V) : Label V → Prop
  | .commit n _ => (∀ p, s.pending[n]? = some p → p.overtaken = false) ∧
      s.queue.history.length + 1 < 2 ^ 63
  | _ => True

/-! ### The order of the stamps -/

/-- Saves are committed in the order of their stamps. One on its way that was not overtaken
is stamped after all that are committed, and none is stamped ahead of the clock. -/
structure Ordered (s : Stamping V) : Prop where
  committed : s.queue.history.Pairwise fun c c' => c.now ≤ c'.now
  pending : ∀ p ∈ s.pending, p.overtaken = false → ∀ c ∈ s.queue.history, c.now ≤ p.call.now
  clock : ∀ c ∈ s.queue.history, c.now ≤ s.clock
  stamped : ∀ p ∈ s.pending, p.call.now ≤ s.clock

section Ordered

variable {F} {s s' : Stamping V} {l : Label V} {ls : List (Label V)} {n : ℕ} {c : SaveCall V}
  {faults : Faults}

theorem mem_pending_finish {p : PendingSave V} (hp : p ∈ (s.finish F n c faults).pending) :
    ∃ p₀ ∈ s.pending, p = overtakenBy (c.committed F faults s.queue.store) p₀ := by
  obtain ⟨p₀, hp₀, rfl⟩ := List.mem_map.mp hp
  exact ⟨p₀, List.mem_of_mem_eraseIdx hp₀, rfl⟩

/-- A save that ends in an error changes nothing of the order. -/
theorem Ordered.finish_failed (h : Ordered s)
    (hc : c.committed F faults s.queue.store = []) : Ordered (s.finish F n c faults) := by
  have hhistory : (s.finish F n c faults).queue.history = s.queue.history := by
    show s.queue.history ++ c.committed F faults s.queue.store = _
    rw [hc, List.append_nil]
  refine ⟨hhistory ▸ h.committed, fun p hp hno => ?_, hhistory ▸ h.clock, fun p hp => ?_⟩
  · obtain ⟨p₀, hp₀, rfl⟩ := mem_pending_finish hp
    rw [hhistory]
    exact h.pending p₀ hp₀ (Bool.or_eq_false_iff.mp hno).1
  · obtain ⟨p₀, hp₀, rfl⟩ := mem_pending_finish hp
    exact h.stamped p₀ hp₀

/-- A save that was not overtaken is stamped after all saves committed before it. -/
theorem Ordered.finish_committed (h : Ordered s) (hn : s.pending[n]? = some ⟨c, false⟩)
    (hc : c.committed F faults s.queue.store = [c]) : Ordered (s.finish F n c faults) := by
  have hmem : (⟨c, false⟩ : PendingSave V) ∈ s.pending := List.mem_of_getElem? hn
  have hbefore : ∀ c' ∈ s.queue.history, c'.now ≤ c.now := h.pending _ hmem rfl
  have hhistory : (s.finish F n c faults).queue.history = s.queue.history ++ [c] := by
    show s.queue.history ++ c.committed F faults s.queue.store = _
    rw [hc]
  refine ⟨?_, fun p hp hno c' hc' => ?_, fun c' hc' => ?_, fun p hp => ?_⟩
  · rw [hhistory, List.pairwise_append]
    refine ⟨h.committed, List.pairwise_singleton .., fun c' hc' d hd => ?_⟩
    rw [List.mem_singleton.mp hd]
    exact hbefore c' hc'
  · obtain ⟨p₀, hp₀, rfl⟩ := mem_pending_finish hp
    obtain ⟨hno₀, hlater⟩ := Bool.or_eq_false_iff.mp hno
    rw [hhistory] at hc'
    rcases List.mem_append.mp hc' with hc' | hc'
    · exact h.pending p₀ hp₀ hno₀ c' hc'
    · rw [List.mem_singleton.mp hc']
      have hle : c.now ≤ p₀.call.now := by simpa [hc] using hlater
      exact hle
  · rw [hhistory] at hc'
    rcases List.mem_append.mp hc' with hc' | hc'
    · exact h.clock c' hc'
    · rw [List.mem_singleton.mp hc']
      exact h.stamped _ hmem
  · obtain ⟨p₀, hp₀, rfl⟩ := mem_pending_finish hp
    exact h.stamped p₀ hp₀

theorem committed_of_returned (h : (c.run F faults s.queue.store).1 = .returned ()) :
    c.committed F faults s.queue.store = [c] := by
  rw [SaveCall.committed, h]

theorem committed_of_ne (h : (c.run F faults s.queue.store).1 ≠ .returned ()) :
    c.committed F faults s.queue.store = [] := by
  unfold SaveCall.committed
  split
  · next hok => exact absurd hok h
  · rfl

theorem Ordered.step (h : Ordered s) (hs : guarded (Step F) InOrder s l s') : Ordered s' := by
  obtain ⟨hs, hok⟩ := hs
  cases hs with
  | tick time htime =>
    exact ⟨h.committed, h.pending, fun c hc => (h.clock c hc).trans htime,
      fun p hp => (h.stamped p hp).trans htime⟩
  | stamp c hnow =>
    refine ⟨h.committed, fun p hp hno c' hc' => ?_, h.clock, fun p hp => ?_⟩
    · rcases List.mem_append.mp hp with hp | hp
      · exact h.pending p hp hno c' hc'
      · rw [List.mem_singleton.mp hp, hnow]
        exact h.clock c' hc'
    · rcases List.mem_append.mp hp with hp | hp
      · exact h.stamped p hp
      · rw [List.mem_singleton.mp hp, hnow]
  | commit n c overtaken faults hn hreturned =>
    obtain rfl : overtaken = false := hok.1 _ hn
    exact h.finish_committed hn (committed_of_returned hreturned)
  | fail n c overtaken faults hn hfail => exact h.finish_failed (committed_of_ne hfail)
  | remove q keys faults =>
    have hhistory : (s.queue.next F (.remove q keys faults)).history = s.queue.history := rfl
    exact ⟨hhistory ▸ h.committed, hhistory ▸ h.pending, hhistory ▸ h.clock, h.stamped⟩
  | restart =>
    exact ⟨h.committed, fun p hp => (List.not_mem_nil hp).elim, h.clock,
      fun p hp => (List.not_mem_nil hp).elim⟩

theorem history_lt_step (h : s.queue.history.length < 2 ^ 63)
    (hs : guarded (Step F) InOrder s l s') : s'.queue.history.length < 2 ^ 63 := by
  obtain ⟨hs, hok⟩ := hs
  cases hs with
  | tick time htime => exact h
  | stamp c hnow => exact h
  | commit n c overtaken faults hn hreturned =>
    show (s.queue.history ++ c.committed F faults s.queue.store).length < 2 ^ 63
    rw [committed_of_returned hreturned, List.length_append]
    exact hok.2
  | fail n c overtaken faults hn hfail =>
    show (s.queue.history ++ c.committed F faults s.queue.store).length < 2 ^ 63
    rw [committed_of_ne hfail, List.append_nil]
    exact h
  | remove q keys faults => exact h
  | restart => exact h

theorem run_ordered (hr : Run (guarded (Step F) InOrder) initial ls s) :
    Ordered s ∧ s.queue.history.length < 2 ^ 63 :=
  hr.invariant (I := fun s => Ordered s ∧ s.queue.history.length < 2 ^ 63)
    (fun _ _ _ h hs => ⟨h.1.step hs, history_lt_step h.2 hs⟩)
    ⟨⟨.nil, fun _ hp => (List.not_mem_nil hp).elim, fun _ hc => (List.not_mem_nil hc).elim,
      fun _ hp => (List.not_mem_nil hp).elim⟩, Nat.two_pow_pos 63⟩

theorem Step.queue_step (h : Step F s l s') : ∃ l', QueueRun.Step F s.queue l' s'.queue := by
  cases h with
  | tick time htime => exact ⟨.restart, rfl⟩
  | stamp c hnow => exact ⟨.restart, rfl⟩
  | commit n c overtaken faults hn hok => exact ⟨.save c faults, rfl⟩
  | fail n c overtaken faults hn hfail => exact ⟨.save c faults, rfl⟩
  | remove q keys faults => exact ⟨.remove q keys faults, rfl⟩
  | restart => exact ⟨.restart, rfl⟩

theorem run_queue (hr : Run (Step F) initial ls s) :
    ∃ ls', Run (QueueRun.Step F) .initial ls' s.queue := by
  apply hr.project Stamping.queue
  intro s l s' hs
  exact hs.queue_step

end Ordered

/-! ### The latest version of a part -/

/-- The save that wrote a row of a queue. -/
def WrittenBy (s : QueueRun V) (q : QueueTable) (e : ℕ × Text) (c : SaveCall V) : Prop :=
  ∃ n, s.history[n]? = some c ∧ e.1 = q.key n ∧ c.Encodes F q e.2

/-- The stamps of the rows do not decrease along their sequence numbers. -/
def StampsOrdered (s : QueueRun V) : Prop :=
  ∀ q q' e e', e ∈ (s.store.rows q).entries → e' ∈ (s.store.rows q').entries → e.1 ≤ e'.1 →
    ∃ c c', WrittenBy F s q e c ∧ WrittenBy F s q' e' c' ∧ c.now ≤ c'.now

/-- No committed save of a part, whether its row is in a queue or in the archive, is stamped
later than the one whose general part sheet is in the cache. -/
def CacheLatest (s : QueueRun V) : Prop :=
  ∀ e ∈ s.store.sheets.entries, ∃ n c encoded, s.LastSaveOf e.1 n c ∧
    c.encode F = .returned encoded ∧ encoded.cachedGeneral = e.2 ∧
    ∀ c' ∈ s.history, c'.partId.asStr = e.1 → c'.now ≤ c.now

section Latest

variable {F} {s : QueueRun V}

theorem now_le_of_ordered (h : s.history.Pairwise fun c c' => c.now ≤ c'.now) {m n : ℕ}
    {c c' : SaveCall V} (hc : s.history[m]? = some c) (hc' : s.history[n]? = some c')
    (hle : m ≤ n) : c.now ≤ c'.now := by
  obtain ⟨hm, rfl⟩ := List.getElem?_eq_some_iff.mp hc
  obtain ⟨hn, rfl⟩ := List.getElem?_eq_some_iff.mp hc'
  rcases hle.lt_or_eq with hlt | rfl
  · exact List.pairwise_iff_getElem.mp h m n hm hn hlt
  · exact le_rfl

theorem stampsOrdered_of_ordered (h : s.history.Pairwise fun c c' => c.now ≤ c'.now)
    (hnum : s.Numbered F) : StampsOrdered F s := by
  intro q q' e e' he he' hle
  obtain ⟨m, c, hc, hkey, henc⟩ := hnum.queued q e he
  obtain ⟨n, c', hc', hkey', henc'⟩ := hnum.queued q' e' he'
  have hrank : m ≤ n := by
    rw [hkey, hkey'] at hle
    cases q <;> cases q' <;> simp only [QueueTable.key] at hle <;> omega
  exact ⟨c, c', ⟨m, hc, hkey, henc⟩, ⟨n, hc', hkey', henc'⟩, now_le_of_ordered h hc hc' hrank⟩

theorem cacheLatest_of_ordered (h : s.history.Pairwise fun c c' => c.now ≤ c'.now)
    (hcache : s.CacheCurrent F) : CacheLatest F s := by
  intro e he
  obtain ⟨n, c, encoded, hlast, henc, hbytes⟩ := hcache e he
  refine ⟨n, c, encoded, hlast, henc, hbytes, fun c' hc' hpart => ?_⟩
  obtain ⟨m, hm⟩ := List.mem_iff_getElem?.mp hc'
  refine now_le_of_ordered h hm hlast.get (not_lt.mp fun hlt => ?_)
  exact hlast.last m c' hlt hm hpart

end Latest

/-- While no save commits that was overtaken, the stamps follow the sequence numbers, and
the cache holds the version of each part that is the latest of all queued or archived. -/
theorem versions_agree {F : RowFormat} {s : Stamping V} {ls : List (Label V)}
    (hr : Run (guarded (Step F) InOrder) initial ls s) :
    StampsOrdered F s.queue ∧ CacheLatest F s.queue := by
  obtain ⟨hordered, hlen⟩ := run_ordered hr
  obtain ⟨ls', hr'⟩ := run_queue hr.of_guarded
  exact ⟨stampsOrdered_of_ordered hordered.committed (QueueRun.run_numbered hr' hlen),
    cacheLatest_of_ordered hordered.committed (QueueRun.run_cacheCurrent hr')⟩

/-- A save of the sample part stamped at the time, with its flag. -/
def stampedSave (scrap : Bool) (time : Timestamp) : SaveCall plainCodec :=
  { sampleSave with general := [⟨7, "Scrap".toList, .boolean scrap⟩], now := time }

/-- Two saves of one part, the second committed first. -/
def overtaking : List (Label plainCodec) :=
  [.stamp (stampedSave false 0), .tick 5, .stamp (stampedSave true 5), .commit 1 noFaults,
    .commit 0 noFaults]

/-- The cache keeps the save that was overtaken, and the archive a later one. -/
theorem overtaken_not_latest : ∃ s : Stamping plainCodec,
    Run (Step epochFormat) initial overtaking s ∧ ¬ StampsOrdered epochFormat s.queue ∧
      ¬ CacheLatest epochFormat s.queue := by
  have hrun : ∃ s : Stamping plainCodec, Run (Step epochFormat) initial overtaking s ∧
      s.queue.history = [stampedSave true 5, stampedSave false 0] ∧
      (s.queue.store.rows .general).keys = [0, 2] ∧
      s.queue.store.sheets.keys = [(stampedSave false 0).partId.asStr] :=
    ⟨_, .cons (.stamp _ _ rfl) <| .cons (.tick _ _ (by decide)) <| .cons (.stamp _ _ rfl) <|
      .cons (.commit _ 1 _ _ _ rfl rfl) <| .cons (.commit _ 0 _ _ _ rfl rfl) <| .nil _, rfl, rfl, rfl⟩
  obtain ⟨s, hr, hhistory, hkeys, hsheets⟩ := hrun
  have hsave : ∀ e c n, WrittenBy epochFormat s.queue .general e c → e.1 = 2 * n →
      s.queue.history[n]? = some c := by
    rintro e c n ⟨m, hm, hkey, -⟩ hn
    have hmn : 2 * m = 2 * n := hkey.symm.trans hn
    rwa [show n = m by omega]
  have hkey₀ : 0 ∈ (s.queue.store.rows .general).keys := by rw [hkeys]; simp
  have hkey₂ : 2 ∈ (s.queue.store.rows .general).keys := by rw [hkeys]; simp
  have hpart : (stampedSave false 0).partId.asStr ∈ s.queue.store.sheets.keys := by
    rw [hsheets]
    simp
  refine ⟨s, hr, fun hordered => ?_, fun hlatest => ?_⟩
  · obtain ⟨e, he, h₀⟩ := List.mem_map.mp hkey₀
    obtain ⟨e', he', h₂⟩ := List.mem_map.mp hkey₂
    obtain ⟨c, c', hc, hc', hle⟩ := hordered .general .general e e' he he' (by omega)
    have hfirst := hsave e c 0 hc h₀
    have hsecond := hsave e' c' 1 hc' h₂
    rw [hhistory] at hfirst hsecond
    cases hfirst
    cases hsecond
    exact absurd hle (by decide)
  · obtain ⟨e, he, hpart⟩ := List.mem_map.mp hpart
    obtain ⟨n, c, encoded, hlast, -, -, hle⟩ := hlatest e he
    have hn : n = 1 := by
      have hlt := (List.getElem?_eq_some_iff.mp hlast.get).1
      rw [hhistory] at hlt
      have hpos : n ≠ 0 := by
        rintro rfl
        exact hlast.last 1 (stampedSave false 0) Nat.one_pos (by rw [hhistory]; rfl) hpart.symm
      simp only [List.length_cons, List.length_nil] at hlt
      omega
    have hget := hlast.get
    rw [hn, hhistory] at hget
    cases hget
    exact absurd (hle (stampedSave true 5) (by rw [hhistory]; simp) hpart.symm) (by decide)

/-- The same two saves, committed in the order of their stamps. -/
theorem versions_agree_inOrder : ∃ s : Stamping plainCodec,
    Run (guarded (Step epochFormat) InOrder) initial
        [.stamp (stampedSave false 0), .tick 5, .stamp (stampedSave true 5), .commit 0 noFaults,
          .commit 0 noFaults] s ∧
      (s.queue.store.rows .general).keys = [0, 2] ∧ StampsOrdered epochFormat s.queue ∧
        CacheLatest epochFormat s.queue := by
  have hrun : ∃ s : Stamping plainCodec,
      Run (guarded (Step epochFormat) InOrder) initial
        [.stamp (stampedSave false 0), .tick 5, .stamp (stampedSave true 5), .commit 0 noFaults,
          .commit 0 noFaults] s ∧ (s.queue.store.rows .general).keys = [0, 2] :=
    ⟨_, .cons ⟨.stamp _ _ rfl, trivial⟩ <| .cons ⟨.tick _ _ (by decide), trivial⟩ <|
      .cons ⟨.stamp _ _ rfl, trivial⟩ <|
      .cons ⟨.commit _ 0 _ _ _ rfl rfl, fun p hp => by cases hp; rfl, by decide⟩ <|
      .cons ⟨.commit _ 0 _ _ _ rfl rfl, fun p hp => by cases hp; rfl, by decide⟩ <|
      .nil _, rfl⟩
  obtain ⟨s, hr, hkeys⟩ := hrun
  exact ⟨s, hr, hkeys, versions_agree hr⟩

end Stamping

end LineGateway.Traceability

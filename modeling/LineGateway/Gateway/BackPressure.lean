import LineGateway.Gateway.Shutdown
import LineGateway.Traceability.Backlog

/-! The end of back pressure. A save request is refused when the rows queued reach the
threshold. A run of the draining task whose drains return leaves only rows saved during the
run, so that saves are admitted again unless as many have been saved meanwhile; a drain that
fails leaves every row where it was. -/

namespace LineGateway

open Foundation Config Opcua Traceability

namespace Gateway

variable {V : VariantCodec} {D : DecimalClass} {db : TraceabilityDatabase} {F : RowFormat}
  {queuesThreshold : ℕ} {servers : List Text} {g g' g₀ g₁ : Gateway} {ls ls₀ : List (Label V)}

/-- The process goes on, and no other run of the draining task begins. -/
def WithinRun (_ : Gateway) : Label V → Prop
  | .drainTick | .exit _ | .kill _ => False
  | _ => True

theorem underway_of_withinRun {l : Label V} {m : Archive.Label V} (hl : WithinRun g l)
    (hm : l.archive = some m) : Underway g.archive m := by
  cases l with
  | drainTick | exit | kill => exact hl.elim
  | drain q i =>
    cases hm
    trivial
  | perform n e i =>
    cases e with
    | savePartSheets | nextSerial =>
      cases i with
      | error e => cases hm
      | ok i =>
        cases hm
        trivial
    | _ => cases hm
  | _ => cases hm

/-- The number of rows saved since. -/
def savedSince (a₀ a : Archive) : ℕ :=
  ((a.saved .general).length - (a₀.saved .general).length) +
    ((a.saved .operation).length - (a₀.saved .operation).length)

theorem len_le_of_drained {a₀ a : Archive} {q : QueueTable} (h : AfterRun a₀ a q)
    (hreturned : drained (a.drain q) = true) :
    (a.store.rows q).len ≤ (a.saved q).length - (a₀.saved q).length := by
  unfold AfterRun at h
  cases hp : a.drain q with
  | ret u =>
    rw [hp] at h
    obtain ⟨⟨n, hn, hvalues⟩, -⟩ := h
    have hlen : (a.store.rows q).len = (a.store.rows q).values.length := by
      simp [Table.len, Table.values]
    rw [hlen, hvalues, List.length_drop]
    omega
  | _ =>
    rw [hp] at hreturned
    cases hreturned

/-- When a run of the draining task is over, each queue either has lost all that was in it at
the beginning, to acknowledged insertions, or has kept all of it. If both drains have returned
and fewer rows than the threshold have been saved since the beginning, saves are admitted. -/
theorem backlog_cleared (hr₀ : Run (Step D db F queuesThreshold servers) initial ls₀ g₀)
    (htick : Step D db F queuesThreshold servers g₀ (.drainTick : Label V) g₁)
    (hr : Run (guarded (Step D db F queuesThreshold servers) WithinRun) g₁ ls g)
    (hend : Step D db F queuesThreshold servers g (.endDrain : Label V) g')
    (hb : ∀ q, (g'.archive.saved q).length ≤ 2 ^ 63) :
    (∀ q, AfterRun g₀.archive g'.archive q) ∧
      ((∀ q, drained (g'.archive.drain q) = true) →
        savedSince g₀.archive g'.archive < queuesThreshold →
          checkEnqueuingAllowed queuesThreshold noFaults g'.archive.store = .ok ()) := by
  have hinv := run_inv hr₀ initial_inv
  obtain ⟨hbegun, hidle⟩ : g₁.archive = g₀.archive.tick db ∧
      ∀ q, Finished (g₀.archive.drain q) := by
    cases htick with
    | drainTick htask hrun => exact ⟨rfl, hinv.idle (by simp [htask])⟩
  obtain ⟨hsame, hover⟩ : g'.archive = g.archive ∧ ∀ q, Finished (g.archive.drain q) := by
    cases hend with
    | endDrain htask hend => exact ⟨(endDrain_fields g).1, hend⟩
  have harchive : Run (guarded (Archive.Step db F) Underway) g₁.archive _ g.archive :=
    run_archive (fun _ _ _ _ hl hm => underway_of_withinRun hl hm) hr (hinv.step htick)
  rw [hbegun] at harchive
  rw [hsame] at hb ⊢
  have hafter : ∀ q, AfterRun g₀.archive g.archive q := by
    intro q
    have hb₀ : (g₀.archive.saved q).length ≤ (g.archive.saved q).length :=
      run_saved_le harchive.of_guarded q
    obtain ⟨o, href, hoinv⟩ := run_outbox hr₀ (hb₀.trans (hb q))
    exact run_afterRun harchive href hoinv hidle (hover q) (hb q)
  refine ⟨hafter, fun hreturned hfew => ?_⟩
  have hgeneral := len_le_of_drained (hafter .general) (hreturned .general)
  have hoperation := len_le_of_drained (hafter .operation) (hreturned .operation)
  have htotal : g.archive.store.total < queuesThreshold :=
    lt_of_le_of_lt (Nat.add_le_add hgeneral hoperation) hfew
  rw [checkEnqueuingAllowed_noFaults, if_neg (not_le.mpr htotal)]

/-- The queues reach the threshold with the save of a session, until the next run of the
draining task. -/
theorem backlog_cleared_saved : ∃ g₀ g' : Gateway,
    Reachable (Step (V := plainCodec) asciiDecimal sampleDatabase epochFormat 2 ["MAC1".toList])
        initial g₀ ∧
      (∀ q, (g₀.archive.store.rows q).entries ≠ []) ∧
      checkEnqueuingAllowed 2 noFaults g₀.archive.store ≠ .ok () ∧
      (∀ q, drained (g'.archive.drain q) = true ∧ AfterRun g₀.archive g'.archive q) ∧
      checkEnqueuingAllowed 2 noFaults g'.archive.store = .ok () := by
  obtain ⟨a, hstart, htotal, hnone⟩ := startLabels_run 2
  obtain ⟨a₁, t, hsaving, -, hqueued⟩ := savingLabels_run
    (htotal ▸ Nat.two_pos : a.store.total < 2)
  obtain ⟨a₂, hdelivering, hsame, hempty⟩ := deliveringLabels_run (V := plainCodec) asciiDecimal
    sampleDatabase epochFormat 2 ["MAC1".toList] (m := attempting.register 0 "MAC1".toList)
      [saving t (.ret ())] rfl fun q => (hqueued q).2
  have hr₀ := hstart.of_guarded.append hsaving.of_guarded
  obtain ⟨g₁, htick, hrest⟩ := Run.cons_iff.mp hdelivering.of_guarded
  obtain ⟨g, hdrains, hend⟩ := Run.append_iff.mp hrest
  obtain ⟨g', hend, hnil⟩ := Run.cons_iff.mp hend
  cases hnil
  have hwithin : Run (guarded (Step asciiDecimal sampleDatabase epochFormat 2 ["MAC1".toList])
      WithinRun) g₁ _ g := hdrains.of_labels fun l hl g => by
    obtain ⟨d, -, rfl⟩ := List.mem_map.mp hl
    trivial
  have hsaved : ∀ q, (a₂.saved q).length = 1 := fun q => by
    rw [hsame, (hqueued q).1, hnone q, List.length_nil]
  obtain ⟨hafter, hadmitted⟩ := backlog_cleared hr₀ htick hwithin hend fun q =>
    (hsaved q).trans_le (by decide)
  have hlen : ∀ q, 0 < (a₁.store.rows q).len := fun q =>
    List.length_pos_of_ne_nil (hqueued q).2
  refine ⟨_, _, ⟨_, hr₀⟩, fun q => (hqueued q).2, ?_, fun q => ⟨(hempty q).2, hafter q⟩,
    hadmitted (fun q => (hempty q).2) ?_⟩
  · have htwo : 2 ≤ a₁.store.total := Nat.add_le_add (hlen .general) (hlen .operation)
    show checkEnqueuingAllowed 2 noFaults a₁.store ≠ .ok ()
    rw [checkEnqueuingAllowed_noFaults, if_pos htwo]
    exact nofun
  · show savedSince a₁ a₂ < 2
    rw [savedSince, hsame, Nat.sub_self, Nat.sub_self]
    exact Nat.two_pos

end Gateway

end LineGateway

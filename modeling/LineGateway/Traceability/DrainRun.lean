import LineGateway.Traceability.ArchiveDelivery

/-! One run of the drain of a queue against a database that refuses every body with a
rejected row. The body is the whole queue and the keys are removed together, so the run
delivers all rows or none: a rejected row holds back every other one. -/

namespace LineGateway.Traceability

open Foundation

/-! ### Rows are lines -/

theorem encodePartSheets_row {V : VariantCodec} {F : RowFormat} {c : SaveCall V}
    {encoded : EncodedPartSheets} (h : c.encode F = .returned encoded) (q : QueueTable) :
    ∃ sheet, encodePartSheetForDb F c.now c.machineId c.partId sheet = .ok (encoded.row q) := by
  obtain ⟨-, hgeneral, hoperation⟩ := encodePartSheets_returned h
  cases q with
  | general => exact ⟨c.general, hgeneral⟩
  | operation => exact ⟨c.operation, hoperation⟩

/-- No queued row holds a newline. -/
def Store.Lines (s : Store) : Prop := ∀ q, ∀ row ∈ (s.rows q).values, '\n' ∉ row

theorem Store.Lines.afterRemove {s : Store} (h : s.Lines) (q : QueueTable) (keys : List ℕ) :
    (s.afterRemove q keys).Lines := by
  intro q' row hrow
  by_cases hq : q' = q
  · subst hq
    rw [Store.afterRemove_rows_self, Table.values, Table.removeAll_entries] at hrow
    obtain ⟨e, he, rfl⟩ := List.mem_map.mp hrow
    exact h q' _ (List.mem_map_of_mem (List.mem_of_mem_filter he))
  · rw [Store.afterRemove_rows_of_ne _ _ _ hq] at hrow
    exact h q' row hrow

theorem Store.Lines.run {V : VariantCodec} {s : Store} (h : s.Lines) (c : SaveCall V) (F : RowFormat)
    (faults : Faults) : (c.run F faults s).2.Lines := by
  rcases c.run_cases F faults s with ⟨hs, -, -⟩ | ⟨encoded, henc, hrun, -⟩
  · rw [hs]; exact h
  · rw [hrun]
    intro q row hrow
    rw [Store.afterSave_rows, Table.values] at hrow
    obtain ⟨e, he, rfl⟩ := List.mem_map.mp hrow
    rcases Table.mem_insert.mp he with rfl | ⟨he, -⟩
    · obtain ⟨sheet, hsheet⟩ := encodePartSheets_row henc q
      exact newline_not_mem_row hsheet
    · exact h q _ (List.mem_map_of_mem he)

theorem performDrain_lines {e : DrainEffect} {i : DrainInput} {d : Delivery} (h : d.store.Lines) :
    (performDrain e i d).2.store.Lines := by
  cases e with
  | getQueueBatch q => simp only [performDrain]; split <;> exact h
  | insert q query compression body =>
    simp only [performDrain]
    split
    · exact h
    · split <;> exact h
  | removeEntries q keys =>
    simp only [performDrain]
    split
    · exact h
    · next faults _ =>
      rcases removeEntries_cases q keys faults d.store with ⟨e, he⟩ | hok
      · simpa [he] using h
      · simpa [hok] using h.afterRemove q keys

/-- In every reachable state the queues hold lines only. -/
theorem reachable_lines {V : VariantCodec} {db : TraceabilityDatabase} {F : RowFormat} {a : Archive}
    (h : Reachable (Archive.Step (V := V) db F) .initial a) : a.store.Lines := by
  refine h.invariant (I := fun a => a.store.Lines) (fun a l a' h hs => ?_)
    (fun q row hrow => by simp [Archive.initial, Store.fresh, Store.rows, Table.values] at hrow)
  cases hs with
  | save c faults => exact h.run c F faults
  | nextSerial date faults =>
    rcases nextSerial_cases date faults a.store with ⟨e, he⟩ | hok
    · simpa [Archive.nextSerial, he] using h
    · intro q
      simpa [Archive.nextSerial, hok] using h q
  | tick hf => exact h
  | drain q i e k hcall => exact performDrain_lines h
  | crash applied => exact h

/-! ### A database that rejects rows -/

/-- The database refuses, with a client error, exactly the bodies with a row of `B`, and
applies nothing of them. No task is lost and no call to the store fails. -/
structure Rejecting (B : Set Text) (env : DrainEffect → DrainInput) : Prop where
  task : ∀ e, (env e).task = .ok noFaults
  accepted : ∀ q query compression body, (∀ row ∈ (Text.cut body).1, row ∉ B) →
    (env (.insert q query compression body)).insertion = .ok ()
  refused : ∀ q query compression body, (∃ row ∈ (Text.cut body).1, row ∈ B) →
    ∃ status, 400 ≤ status ∧ status < 500 ∧
      (env (.insert q query compression body)).insertion = .error (.badResponse status)
  applied : ∀ e, (env e).applied = false

section Rejecting

variable {B : Set Text} {env : DrainEffect → DrainInput} {db : TraceabilityDatabase}
  {q : QueueTable} {d : Delivery}

theorem drain_eval (h : Rejecting B env) (skip : Bool) :
    (drainPartSheetQueue db q skip).eval drainWorld env d =
      if skip && (d.store.rows q).keys.isEmpty then (.returned (), d)
      else (insertRows db q (d.store.rows q).keys (Text.framed (d.store.rows q).values)).eval
        drainWorld env d := by
  rw [drainPartSheetQueue_eq, Prog.eval_call]
  simp only [drainWorld, performDrain, h.task, getQueueBatch_noFaults, afterBatch]
  split <;> rfl

/-- Without a rejected row the body is acknowledged and the queue emptied. -/
theorem insertRows_accepted (h : Rejecting B env) (keys : List ℕ) {body : Text}
    (hb : ∀ row ∈ (Text.cut body).1, row ∉ B) :
    ((insertRows db q keys body).eval drainWorld env d).2 =
      { d.acknowledge q body with store := d.store.afterRemove q keys } := by
  rw [insertRows_eq, Prog.eval_call]
  simp only [drainWorld, performDrain, h.accepted _ _ _ _ hb, afterInsert]
  rw [removeRows_eq, Prog.eval_call]
  simp only [performDrain, h.task, removeEntries_noFaults, afterRemoval]
  rfl

/-- With a rejected row nothing changes. -/
theorem insertRows_refused (h : Rejecting B env) (keys : List ℕ) {body : Text}
    (hb : ∃ row ∈ (Text.cut body).1, row ∈ B) :
    ((insertRows db q keys body).eval drainWorld env d).2 = d := by
  obtain ⟨status, -, -, hstatus⟩ := h.refused q (db.query q) (!body.isEmpty) body hb
  rw [insertRows_eq, Prog.eval_call]
  simp [drainWorld, performDrain, hstatus, h.applied, afterInsert]

/-- Every row outside `B` is in a body acknowledged since, and no longer queued. -/
def Delivered (B : Set Text) (q : QueueTable) (d d' : Delivery) : Prop :=
  ∀ row ∈ (d.store.rows q).values, row ∉ B →
    (∃ body ∈ (d'.acknowledged q).drop (d.acknowledged q).length, row ∈ (Text.cut body).1) ∧
      row ∉ (d'.store.rows q).values

/-- A run of the drain delivers the rows outside `B` exactly when the queue does not mix
rows of `B` with others. -/
theorem delivered_iff (h : Rejecting B env) (hlines : d.store.Lines) (skip : Bool) :
    Delivered B q d ((drainPartSheetQueue db q skip).eval drainWorld env d).2 ↔
      (∀ row ∈ (d.store.rows q).values, row ∉ B) ∨ ∀ row ∈ (d.store.rows q).values, row ∈ B := by
  have hcut : (Text.cut (Text.framed (d.store.rows q).values)).1 = (d.store.rows q).values := by
    rw [Text.cut_framed (hlines q)]
  rw [drain_eval h]
  split
  · -- An empty queue that is skipped.
    next hskip =>
    have hempty : (d.store.rows q).values = [] := by
      simpa [Table.keys, Table.values] using (Bool.and_eq_true_iff.mp hskip).2
    simp [Delivered, hempty]
  · by_cases hB : ∃ row ∈ (d.store.rows q).values, row ∈ B
    · rw [insertRows_refused h _ (by rwa [hcut])]
      constructor
      · intro hd
        refine .inr fun row hrow => ?_
        by_contra hout
        exact (hd row hrow hout).2 hrow
      · rintro (hnone | hall) row hrow hout
        · obtain ⟨bad, hbad, hmem⟩ := hB
          exact absurd hmem (hnone bad hbad)
        · exact absurd (hall row hrow) hout
    · have hnone : ∀ row ∈ (d.store.rows q).values, row ∉ B := fun row hrow hmem =>
        hB ⟨row, hrow, hmem⟩
      rw [insertRows_accepted h _ (by rwa [hcut])]
      refine iff_of_true (fun row hrow _ => ⟨⟨_, ?_, by rwa [hcut]⟩, ?_⟩) (.inl hnone)
      · simp [Delivery.acknowledge]
      · simp [Table.values, Table.removeAll_keys]

end Rejecting

/-- What a database refusing the listed rows decides. -/
def rejectingInput (bad : List Text) : DrainEffect → DrainInput
  | .insert _ _ _ body => ⟨.ok noFaults,
    if (Text.cut body).1.any (· ∈ bad) then .error (.badResponse 400) else .ok (), false⟩
  | _ => ⟨.ok noFaults, .ok (), false⟩

theorem rejectingInput_rejecting (bad : List Text) :
    Rejecting {row | row ∈ bad} (rejectingInput bad) where
  task e := by cases e <;> rfl
  accepted q query compression body h := by
    have hnone : (Text.cut body).1.any (· ∈ bad) = false := by simpa using h
    simp [rejectingInput, hnone]
  refused q query compression body h := by
    have hsome : (Text.cut body).1.any (· ∈ bad) = true := by simpa using h
    exact ⟨400, by decide, by decide, by simp [rejectingInput, hsome]⟩
  applied e := by cases e <;> rfl

/-- The state after two saves, before any drain. -/
def twoSaved : Delivery where
  store := (SaveCall.run { sampleSave with general := [⟨7, "Scrap".toList, .boolean false⟩] }
    epochFormat noFaults (sampleSave.run epochFormat noFaults .fresh).2).2
  acknowledged := fun _ => []
  applied := fun _ => []

theorem twoSaved_lines : twoSaved.store.Lines := by
  have hfresh : Store.fresh.Lines := fun q row hrow => by
    simp [Store.fresh, Store.rows, Table.values] at hrow
  exact (hfresh.run _ _ _).run _ _ _

/-- The rows of the first save in the general queue. -/
def firstRows : List Text := (twoSaved.store.rows .general).values.take 1

theorem twoSaved_values : ∃ bad good, (twoSaved.store.rows .general).values = [bad, good] ∧
    bad ≠ good ∧ firstRows = [bad] := ⟨_, _, rfl, by decide +kernel, rfl⟩

/-- The rejected row of one save keeps the row of the other in the queue, and a threshold
of four rows refuses further saves. -/
theorem rejected_row_holds_back : ∃ d',
    ((drainPartSheetQueue sampleDatabase .general true).eval drainWorld
      (rejectingInput firstRows) twoSaved).2 = d' ∧
      ¬ Delivered {row | row ∈ firstRows} .general twoSaved d' ∧
        checkEnqueuingAllowed 4 noFaults d'.store = .error (.tooMuchEnqueued 4 4) := by
  obtain ⟨bad, good, hvalues, hne, hfirst⟩ := twoSaved_values
  have hcut : (Text.cut (Text.framed (twoSaved.store.rows .general).values)).1 = [bad, good] := by
    rw [Text.cut_framed (twoSaved_lines .general), hvalues]
  refine ⟨twoSaved, ?_, ?_, by decide +kernel⟩
  · rw [drain_eval (rejectingInput_rejecting firstRows)]
    split
    · rfl
    · exact insertRows_refused (rejectingInput_rejecting firstRows) _
        ⟨bad, by simp [hcut], by simp [hfirst]⟩
  · intro hd
    have hgood := (hd good (by simp [hvalues]) (by simp [hfirst, hne.symm])).2
    exact hgood (by simp [hvalues])

/-- Without a rejected row both rows are delivered. -/
theorem delivered_of_none_rejected :
    Delivered {row | row ∈ ([] : List Text)} .general twoSaved
      ((drainPartSheetQueue sampleDatabase .general true).eval drainWorld (rejectingInput [])
        twoSaved).2 :=
  (delivered_iff (rejectingInput_rejecting []) twoSaved_lines true).mpr (.inl (by simp))

end LineGateway.Traceability

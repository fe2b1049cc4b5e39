import LineGateway.Traceability.Line

/-! The bound on the queues. A request is admitted while the number of rows is below the
threshold and adds at most two rows; so the rows, with two more for each execution inside,
never exceed the threshold less one with two for each execution that may be inside, nor
the rows at the start. -/

namespace LineGateway.Traceability

open Foundation Config Opcua

variable {V : VariantCodec}

/-- A check at the threshold or above refuses. -/
theorem checkEnqueuingAllowed_refused {threshold : ℕ} {s : Store} (faults : Faults)
    (h : threshold ≤ s.total) : ∃ e, checkEnqueuingAllowed threshold faults s = .error e := by
  rcases checkEnqueuingAllowed_cases threshold faults s with ⟨e, he⟩ | hcheck
  · exact ⟨_, he⟩
  · rw [if_pos h] at hcheck
    exact ⟨_, hcheck⟩

section Total

variable (s : Store)

theorem Store.total_afterSave_le (partId : AsciiDigitsOrUpper 23) (encoded : EncodedPartSheets) :
    (s.afterSave partId encoded).total ≤ s.total + 2 := by
  have hrow := fun q =>
    (s.rows q).len_insert_le (Store.rowKey s.seqAfter q) (encoded.row q)
  have hgeneral := hrow .general
  have hoperation := hrow .operation
  rw [Store.total, Store.total, Store.afterSave_rows, Store.afterSave_rows]
  omega

theorem Store.total_afterRemove_le (q : QueueTable) (keys : List ℕ) :
    (s.afterRemove q keys).total ≤ s.total := by
  have hle : ∀ q', ((s.afterRemove q keys).rows q').len ≤ (s.rows q').len := by
    intro q'
    by_cases hq : q' = q
    · subst hq
      rw [Store.afterRemove_rows_self]
      exact Table.len_removeAll_le ..
    · rw [Store.afterRemove_rows_of_ne _ _ _ hq]
  have hgeneral := hle .general
  have hoperation := hle .operation
  rw [Store.total, Store.total]
  omega

end Total

/-! ### The effect of a step on the rows -/

namespace QueueRun

variable {F : RowFormat} {queuesThreshold : ℕ} {s : QueueRun V}

theorem total_save_le (c : SaveCall V) (faults : Faults) :
    (s.next F (.save c faults)).store.total ≤ s.store.total + 2 := by
  rcases s.save_cases F c faults with h | ⟨encoded, -, h⟩
  · rw [h]
    omega
  · rw [h]
    exact s.store.total_afterSave_le c.partId encoded

theorem total_remove_le (q : QueueTable) (keys : List ℕ) (faults : Faults) :
    (s.next F (.remove q keys faults)).store.total ≤ s.store.total := by
  rcases s.remove_cases F q keys faults with h | h
  · rw [h]
  · rw [h]
    exact s.store.total_afterRemove_le q keys

theorem total_nextSerial (date : Calendar.Date) (faults : Faults) :
    (s.next F (.nextSerial date faults)).store.total = s.store.total := by
  rcases s.nextSerial_cases F date faults with h | h
  · rw [h]
  · rw [h]
    rfl

variable (F queuesThreshold s) in
/-- A save is the only effect that adds rows. -/
theorem total_after (e : HandlerEffect) (i : HandlerInput V e) :
    (s.after F queuesThreshold e i).store.total = s.store.total ∨
      (∃ machineId partId general operation,
        e = .savePartSheets machineId partId general operation) ∧
          (s.after F queuesThreshold e i).store.total ≤ s.store.total + 2 := by
  cases e with
  | nextSerial date =>
    left
    cases i with
    | error e => rfl
    | ok faults => exact total_nextSerial (F := F) (s := s) date faults
  | getGeneralPartSheet partId =>
    left
    cases i with
    | error e => rfl
    | ok i => rfl
  | savePartSheets machineId partId general operation =>
    refine .inr ⟨⟨_, _, _, _, rfl⟩, ?_⟩
    cases i with
    | error e => exact Nat.le_add_right ..
    | ok i => exact total_save_le ⟨machineId, partId, general, operation, i.2.1, i.2.2⟩ i.1
  | _ => exact .inl rfl

end QueueRun

namespace Line

variable {D : DecimalClass} {F : RowFormat} {queuesThreshold k : ℕ} {s s' : Line V} {l : Label V}
  {ls : List (Label V)} {store : Store}

/-- The number of executions inside when one of them goes on. -/
theorem inside_set {n : ℕ} {x : Execution} (hn : s.executions[n]? = some x) (y : Execution) :
    (s.executions.set n y).countP Execution.inside + x.inside.toNat =
      s.inside + y.inside.toNat := by
  obtain ⟨hlt, hx⟩ := List.getElem?_eq_some_iff.mp hn
  have hnat : ∀ b : Bool, (if b = true then 1 else 0) = b.toNat := by decide
  have hle : x.inside.toNat ≤ s.inside := by
    cases hxi : x.inside with
    | false => exact Nat.zero_le _
    | true => exact List.countP_pos_iff.mpr ⟨x, List.mem_of_getElem? hn, hxi⟩
  rw [inside] at hle ⊢
  rw [List.countP_set hlt, hx, hnat, hnat]
  omega

theorem inside_outside (p : HandlerProg HandleRequestError UInt8) :
    (Execution.running p .outside).inside = false := by
  cases p <;> rfl

theorem inside_abandon_le (n : ℕ) :
    (s.executions.set n .abandoned).countP Execution.inside ≤ s.inside := by
  cases hn : s.executions[n]? with
  | none =>
    rw [List.set_eq_of_length_le (List.getElem?_eq_none_iff.mp hn)]
    exact le_rfl
  | some x =>
    have hset := inside_set hn .abandoned
    simp only [Execution.inside, Bool.toNat_false, add_zero] at hset
    omega

/-- An execution that stays in its phase may end, and then it is not inside any more. -/
theorem inside_set_le {n : ℕ} {e : HandlerEffect} {m : SavePhase}
    {cont : e.Reply → HandlerProg HandleRequestError UInt8}
    (hn : s.executions[n]? = some (.running (.call e cont) m))
    (p : HandlerProg HandleRequestError UInt8) :
    (s.executions.set n (.running p m)).countP Execution.inside ≤ s.inside := by
  have hset := inside_set hn (.running p m)
  have hle : (Execution.running p m).inside.toNat ≤
      (Execution.running (.call e cont) m).inside.toNat := by
    cases m with
    | outside => rw [inside_outside, inside_outside]
    | admitted => exact Bool.toNat_le _
  omega

/-- The rows, with two more for each execution that may still save. -/
def pledged (s : Line V) : ℕ := s.queue.store.total + 2 * s.inside

theorem pledged_le (hrows : s'.queue.store.total ≤ s.queue.store.total)
    (hinside : s'.inside ≤ s.inside) : s'.pledged ≤ s.pledged := by
  rw [pledged, pledged]
  omega

variable (F queuesThreshold) in
/-- An effect that is neither a save nor an admission pledges nothing new; a save uses what
was pledged for it; an admission is given below the threshold. -/
theorem pledged_perform (h : Obedient s) {n : ℕ} {e : HandlerEffect} {m : SavePhase}
    {cont : e.Reply → HandlerProg HandleRequestError UInt8} (i : HandlerInput V e)
    (hn : s.executions[n]? = some (.running (.call e cont) m)) :
    (s.perform F queuesThreshold n e cont m i).pledged ≤ s.pledged ∨
      (s.perform F queuesThreshold n e cont m i).queue.store.total < queuesThreshold := by
  have hallowed := (h _ m (List.mem_of_getElem? hn)).1
  have htotal := QueueRun.total_after F queuesThreshold s.queue e i
  cases e with
  | checkEnqueuingAllowed =>
    by_cases hbelow : s.queue.store.total < queuesThreshold
    · exact .inr hbelow
    · left
      obtain ⟨e, he⟩ := checkEnqueuingAllowed_refused i (not_lt.mp hbelow)
      have hinside : (s.perform F queuesThreshold n .checkEnqueuingAllowed cont m i).inside =
          (s.executions.set n (.running
            (cont (checkEnqueuingAllowed queuesThreshold i s.queue.store))
            (m.next .checkEnqueuingAllowed
              (checkEnqueuingAllowed queuesThreshold i s.queue.store)))).countP
                Execution.inside := rfl
      rw [he] at hinside
      exact pledged_le le_rfl (hinside.le.trans (inside_set_le hn _))
  | savePartSheets machineId partId general operation =>
    left
    obtain ⟨rfl, -⟩ : m = .admitted ∧ _ := hallowed
    have hset := inside_set hn (.running (cont (performHandler V F queuesThreshold
      (.savePartSheets machineId partId general operation) i ⟨s.queue.store, []⟩).1) .outside)
    have hone : (Execution.running (.call (.savePartSheets machineId partId general operation) cont)
      .admitted).inside.toNat = 1 := rfl
    rw [hone, inside_outside, Bool.toNat_false] at hset
    have hrows : (s.queue.after F queuesThreshold
        (.savePartSheets machineId partId general operation) i).store.total ≤
          s.queue.store.total + 2 := by
      rcases htotal with htotal | ⟨-, htotal⟩
      · omega
      · exact htotal
    show (s.queue.after F queuesThreshold _ i).store.total +
      2 * (s.executions.set n (.running _ .outside)).countP Execution.inside ≤ _
    rw [pledged]
    omega
  | _ =>
    exact .inl (pledged_le (htotal.resolve_right fun ⟨⟨_, _, _, _, he⟩, _⟩ => nomatch he).le
      (inside_set_le hn _))

/-! ### The bound -/

variable (D F queuesThreshold k) in
/-- The steps that leave at most `k` executions inside. -/
def BoundedStep (s : Line V) (l : Label V) (s' : Line V) : Prop :=
  Step D F queuesThreshold s l s' ∧ s'.inside ≤ k

theorem pledged_step {bound : ℕ} (hbound : queuesThreshold - 1 + 2 * k ≤ bound) (ho : Obedient s)
    (h : s.pledged ≤ bound) (hs : BoundedStep D F queuesThreshold k s l s') :
    s'.pledged ≤ bound := by
  obtain ⟨hs, hk⟩ := hs
  cases hs with
  | start h' value =>
    refine le_trans (pledged_le (s := s) le_rfl ?_) h
    show (s.executions ++ [Execution.running (handleRequest D h' value) .outside]).countP
      Execution.inside ≤ s.inside
    rw [List.countP_append, List.countP_singleton, inside_outside]
    exact le_rfl
  | perform n e cont m i hn =>
    rcases pledged_perform F queuesThreshold ho i hn with hle | hlt
    · exact hle.trans h
    · rw [pledged]
      omega
  | remove q keys faults =>
    exact le_trans (pledged_le (s := s) (QueueRun.total_remove_le (F := F) q keys faults) le_rfl) h
  | abandon n => exact le_trans (pledged_le (s := s) le_rfl (inside_abandon_le n)) h
  | restart => exact le_trans (pledged_le (s := s) le_rfl (Nat.zero_le _)) h

theorem run_pledged (hr : Run (BoundedStep D F queuesThreshold k) (start store) ls s) :
    s.pledged ≤ max store.total (queuesThreshold - 1 + 2 * k) := by
  refine hr.history (I := fun _ s => s.pledged ≤ max store.total (queuesThreshold - 1 + 2 * k))
    (le_max_left ..) fun ls s l s' hr h hs => ?_
  have ho : Obedient s := reachable_obedient ⟨ls, hr.mono fun _ _ _ hs => hs.1⟩
  exact pledged_step (le_max_right ..) ho h hs

theorem handleRequest_save {h : TraceabilityHandler TraceabilityContext} {value : DataValue}
    (hv : value.tryUaValueAs UInt8 = .ok 3) :
    handleRequest D h value = .call .checkEnqueuingAllowed fun r =>
      (afterChecked h r).mapErr .handleSave >>= fun _ => pure responseSuccess := by
  simp only [handleRequest, hv, Prog.attempt_ok, Prog.ret_bind]
  show (handleSave h).mapErr HandleRequestError.handleSave >>= (fun _ => pure responseSuccess) = _
  rw [handleSave_eq]
  rfl

/-- A check that starts at the threshold or above refuses the request: the queues are as
before, and the execution has ended with the error of enqueuing. -/
def RefusesAtThreshold (D : DecimalClass) (F : RowFormat) (queuesThreshold : ℕ) (s : Line V) : Prop :=
  queuesThreshold ≤ s.queue.store.total → ∀ h value n m faults s',
    value.tryUaValueAs UInt8 = .ok 3 →
    s.executions[n]? = some (.running (handleRequest D h value) m) →
    Step D F queuesThreshold s (.perform n .checkEnqueuingAllowed faults) s' →
    s'.queue = s.queue ∧ ∃ e,
      s'.executions[n]? = some (.running (.fail (.handleSave (.enqueuing e))) m)

theorem refusesAtThreshold (s : Line V) : RefusesAtThreshold D F queuesThreshold s := by
  intro htotal h value n m faults s' hv hn hs
  cases hs with
  | perform _ _ cont m' _ hn' =>
    rw [hn, handleRequest_save hv] at hn'
    cases hn'
    obtain ⟨e, he⟩ := checkEnqueuingAllowed_refused faults htotal
    obtain ⟨hlt, -⟩ := List.getElem?_eq_some_iff.mp hn
    refine ⟨?_, e, ?_⟩
    · show QueueRun.mk s.queue.store (s.queue.history ++ []) = s.queue
      rw [List.append_nil]
    · show (s.executions.set n (.running
        ((afterChecked h (checkEnqueuingAllowed queuesThreshold faults s.queue.store)).mapErr
          .handleSave >>= fun _ => pure responseSuccess)
        (m.next .checkEnqueuingAllowed
          (checkEnqueuingAllowed queuesThreshold faults s.queue.store))))[n]? = _
      rw [he, List.getElem?_set_self hlt]
      rfl

/-- With at most `k` executions inside at a time, the rows of the two queues stay below a
bound, and no request is admitted at the threshold or above. -/
theorem queues_bounded (hr : Run (BoundedStep D F queuesThreshold k) (start store) ls s) :
    s.queue.store.total ≤ max store.total (queuesThreshold - 1 + 2 * k) ∧
      RefusesAtThreshold D F queuesThreshold s :=
  ⟨(Nat.le_add_right ..).trans (run_pledged hr), refusesAtThreshold s⟩

/-- Two requests are admitted before either has saved. -/
theorem queues_bounded_two : ∃ s : Line plainCodec,
    Run (BoundedStep asciiDecimal epochFormat 2 2) (start .fresh)
        ([.start Creations.sampleHandler saveRequest, .start Creations.sampleHandler saveRequest,
          .perform 1 .checkEnqueuingAllowed noFaults] ++ sampleSaving 0) s ∧
      s.queue.store.total = 2 ∧ s.inside = 1 ∧
        s.queue.store.total ≤ max Store.fresh.total (2 - 1 + 2 * 2) := by
  have hrun : ∃ s : Line plainCodec, Run (BoundedStep asciiDecimal epochFormat 2 2) (start .fresh)
      ([.start Creations.sampleHandler saveRequest, .start Creations.sampleHandler saveRequest,
        .perform 1 .checkEnqueuingAllowed noFaults] ++ sampleSaving 0) s ∧
      s.queue.store.total = 2 ∧ s.inside = 1 :=
    ⟨_, .cons ⟨.start _ _ _, by decide⟩ <| .cons ⟨.start _ _ _, by decide⟩ <|
      .cons ⟨.perform _ 1 _ _ _ _ rfl, by decide⟩ <| .cons ⟨.perform _ 0 _ _ _ _ rfl, by decide⟩ <|
      .cons ⟨.perform _ 0 _ _ _ _ rfl, by decide⟩ <|
      .cons ⟨.perform _ 0 _ _ _ _ rfl, by decide⟩ <| .nil _, rfl, rfl⟩
  obtain ⟨s, hr, htotal, hinside⟩ := hrun
  exact ⟨s, hr, htotal, hinside, (queues_bounded hr).1⟩

end Line

end LineGateway.Traceability

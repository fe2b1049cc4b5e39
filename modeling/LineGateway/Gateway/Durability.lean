import LineGateway.Gateway.Startup
import LineGateway.Traceability.ResponseCodes

/-! What an answer to a save request is worth. The success code is written to the response
variable only once the save has been committed, with a row in each queue; and a row saved is
in its queue or in an acknowledged insertion ever after, whatever the processes do and
wherever they end. -/

namespace LineGateway

open Foundation Config Opcua Traceability

/-! ### The protocol of the answer -/

section Protocol

/-- The phase tells whether a save has been committed. The success code is written in this
case only, and a save is one of the machine of the handler. -/
def answerProtocol (h : TraceabilityHandler TraceabilityContext) : Protocol handlerSignature Bool where
  allowed saved
    | .write values => values = [⟨h.state.protocol.response, .byte responseSuccess⟩] → saved = true
    | .savePartSheets machineId _ _ _ => machineId = h.serverId
    | _ => True
  next saved
    | .savePartSheets .., .ok (.ok ()) => true
    | _, _ => saved

variable {D : DecimalClass} {h : TraceabilityHandler TraceabilityContext} {value : DataValue}

/-- The condition on the end of a program that saves. -/
def SavedIfReturned {ε α : Type} (o : Outcome ε α) (saved : Bool) : Prop :=
  ∀ a, o = .returned a → saved = true

theorem savedIfReturned_failed {ε α : Type} (e : ε) (m : Bool) :
    SavedIfReturned (.failed e : Outcome ε α) m := by
  intro a h
  cases h

theorem savedIfReturned_panicked {ε α : Type} (s : String) (m : Bool) :
    SavedIfReturned (.panicked s : Outcome ε α) m := by
  intro a h
  cases h

theorem sendSave_meets (partId : AsciiDigitsOrUpper 23) (general operation : List SavedPartSheetItem)
    (m : Bool) : (sendSave h partId general operation).Meets (answerProtocol h) SavedIfReturned m := by
  rw [sendSave_eq]
  refine .call rfl fun r => ?_
  rcases r with e | e | u
  · exact savedIfReturned_failed _ m
  · exact savedIfReturned_failed _ m
  · exact fun _ _ => rfl

theorem saveCollected_meets (partSheets : List SavedPartSheetItem) (m : Bool) :
    (saveCollected h partSheets).Meets (answerProtocol h) SavedIfReturned m := by
  refine .expect_bind (fun item _ => ?_) fun _ => savedIfReturned_panicked _ m
  refine .attempt_bind (fun partId _ => ?_) fun _ _ => savedIfReturned_failed _ m
  refine .ofOutcome_bind (fun u _ => ?_) (fun _ _ => savedIfReturned_failed _ m)
    fun _ _ => savedIfReturned_panicked _ m
  exact .expect_bind (fun sheets _ => sendSave_meets partId sheets.1 sheets.2 m) fun _ =>
    savedIfReturned_panicked _ m

theorem handleSave_meets (m : Bool) :
    (handleSave h).Meets (answerProtocol h) SavedIfReturned m := by
  rw [handleSave_eq]
  refine .call trivial fun allowed => ?_
  cases allowed with
  | error e => exact savedIfReturned_failed _ m
  | ok u =>
    refine .call trivial fun result => ?_
    cases result with
    | error e => exact savedIfReturned_failed _ m
    | ok readValues =>
      show (saveRead h readValues).Meets (answerProtocol h) SavedIfReturned m
      unfold saveRead
      split
      · exact savedIfReturned_failed _ m
      · exact .attempt_bind (fun partSheets _ => saveCollected_meets partSheets m) fun _ _ =>
          savedIfReturned_failed _ m

/-- A request of code 3 is a save. -/
theorem handleRequest_eq_save (hv : value.tryUaValueAs UInt8 = .ok 3) :
    handleRequest D h value = (handleSave h).mapErr .handleSave >>= fun _ => pure responseSuccess := by
  simp only [handleRequest, hv, Prog.attempt_ok, Prog.ret_bind]
  rfl

/-- The condition on the response code of a save request. -/
def SavedIfSuccess (o : Outcome Empty UInt8) (saved : Bool) : Prop :=
  o = .returned responseSuccess → saved = true

/-- The save comes first, so that any end of the request but a failure has it behind. -/
theorem savedRequest_meets (m : Bool) :
    ((handleSave h).mapErr HandleRequestError.handleSave >>= fun _ =>
      pure responseSuccess : HandlerProg HandleRequestError UInt8).Meets (answerProtocol h)
        SavedIfReturned m := by
  refine .bind (Q := SavedIfReturned) (.mapErr (handleSave_meets m) ?_ ?_ ?_) ?_ ?_ ?_
  · exact fun u m' hq _ _ => hq u rfl
  · exact fun e m' _ => savedIfReturned_failed _ m'
  · exact fun s m' _ => savedIfReturned_panicked _ m'
  · exact fun u m' hq _ _ => hq u rfl
  · exact fun e m' _ => savedIfReturned_failed _ m'
  · exact fun s m' _ => savedIfReturned_panicked _ m'

theorem saveCode_meets (hv : value.tryUaValueAs UInt8 = .ok 3) (m : Bool) :
    ((handleRequest D h value).unwrapOrElse HandleRequestError.toResponseCode :
      HandlerProg Empty UInt8).Meets (answerProtocol h) SavedIfSuccess m := by
  rw [handleRequest_eq_save hv]
  refine .unwrapOrElse (savedRequest_meets m) ?_ ?_ ?_
  · exact fun code m' hq _ => hq code rfl
  · intro e m' _ hcode
    exact absurd (Outcome.returned.inj hcode) e.toResponseCode_ne.2
  · intro s m' _ hcode
    cases hcode

theorem writeResponse_meets {code : UInt8} {m : Bool} (hcode : code = responseSuccess → m = true) :
    (writeResponse h code).Meets (answerProtocol h) (fun _ _ => True) m := by
  refine .unwrapOrElse (Q := fun _ _ => True) ?_ (fun _ _ _ => trivial) (fun _ _ _ => trivial)
    fun _ _ _ => trivial
  rw [writeChecked_eq]
  refine .call (fun hvalues => ?_) fun r => ?_
  · simp only [List.cons.injEq, WriteValue.mk.injEq, Variant.byte.injEq, true_and, and_true] at hvalues
    exact hcode hvalues
  · unfold checkWritten
    split
    · trivial
    · split
      · trivial
      · split <;> trivial

/-- What is done with a notification of a save request obeys the protocol. -/
theorem onNotification_meets (hv : value.tryUaValueAs UInt8 = .ok 3) (isInitial : Bool) (m : Bool) :
    (onNotification D h isInitial value).Meets (answerProtocol h) (fun _ _ => True) m := by
  have hrespond : ∀ m, (respond D h value).Meets (answerProtocol h) (fun _ _ => True) m := by
    intro m
    refine .bind (Q := SavedIfSuccess) (saveCode_meets hv m) (fun code m' hq => ?_)
      (fun _ _ _ => trivial) fun _ _ _ => trivial
    exact writeResponse_meets fun hcode => hq (hcode ▸ rfl)
  have hrest : ∀ answered m', (if answered = true then pure () else respond D h value :
      HandlerProg Empty Unit).Meets (answerProtocol h) (fun _ _ => True) m' := by
    intro answered m'
    cases answered with
    | true => trivial
    | false => exact hrespond m'
  cases isInitial with
  | false => exact hrest false m
  | true =>
    refine .bind (Q := fun _ _ => True) (p := isInitialRequestAnswered h value) ?_
      (fun answered m' _ => hrest answered m') (fun _ _ _ => trivial) fun _ _ _ => trivial
    unfold isInitialRequestAnswered
    split
    · trivial
    · exact .call trivial fun r => trivial

/-- A committed save is what makes the phase true. -/
theorem saved_of_after {t : List (Event handlerSignature)}
    (ht : (answerProtocol h).after false t = true) : ∃ machineId partId general operation,
      ⟨.savePartSheets machineId partId general operation, .ok (.ok ())⟩ ∈ t := by
  induction t using List.reverseRecOn with
  | nil => cases ht
  | append_singleton t e ih =>
    rw [Protocol.after_append] at ht
    by_cases hm : (answerProtocol h).after false t = true
    · obtain ⟨machineId, partId, general, operation, hmem⟩ := ih hm
      exact ⟨machineId, partId, general, operation, List.mem_append_left _ hmem⟩
    · obtain ⟨e, r⟩ := e
      have hstep : (answerProtocol h).next ((answerProtocol h).after false t) e r = true := ht
      cases e with
      | savePartSheets machineId partId general operation =>
        rcases r with err | err | u
        · exact absurd hstep hm
        · exact absurd hstep hm
        · exact ⟨machineId, partId, general, operation, by simp⟩
      | _ => exact absurd hstep hm

/-- A request answered with success has had a save of its machine committed before. -/
theorem committed_of_answered {isInitial : Bool} {t : List (Event handlerSignature)}
    {rest : HandlerProg Empty Unit} {r : Except SessionError (List StatusCode)}
    (hv : value.tryUaValueAs UInt8 = .ok 3)
    (hafter : (onNotification D h isInitial value).After t rest)
    (hanswer : ⟨.write [⟨h.state.protocol.response, .byte responseSuccess⟩], r⟩ ∈ t) :
    ∃ partId general operation,
      ⟨.savePartSheets h.serverId partId general operation, .ok (.ok ())⟩ ∈ t := by
  have hmeets := onNotification_meets (D := D) (h := h) hv isInitial false
  obtain ⟨t₁, t₂, rfl⟩ := List.append_of_mem hanswer
  obtain ⟨machineId, partId, general, operation, hmem⟩ :=
    saved_of_after (hmeets.allowed hafter rfl)
  obtain ⟨u, v, rfl⟩ := List.append_of_mem hmem
  rw [List.append_assoc, List.cons_append] at hafter
  have hmachine : machineId = h.serverId := hmeets.allowed hafter
  subst hmachine
  exact ⟨partId, general, operation, by simp⟩

end Protocol

namespace Gateway

variable {V : VariantCodec} {D : DecimalClass} {db : TraceabilityDatabase} {F : RowFormat}
  {queuesThreshold : ℕ} {servers : List Text} {g g' : Gateway} {l : Label V}
  {ls : List (Label V)} {a a' : Archive}

/-! ### Rows of committed saves -/

/-- The save has a row in each queue, at one rank. -/
def Archived (V : VariantCodec) (F : RowFormat) (a : Archive) (machineId : Text)
    (partId : AsciiDigitsOrUpper 23) (general operation : List SavedPartSheetItem) (k : ℕ)
    (encoded : EncodedPartSheets) : Prop :=
  (∃ now context, encodePartSheets V F now machineId partId general operation context =
    .returned encoded) ∧ ∀ q, (a.saved q)[k]? = some (encoded.row q)

/-- The queues have had the same number of rows. -/
def Paired (a : Archive) : Prop := (a.saved .general).length = (a.saved .operation).length

/-- What becomes of the rows saved in a step: more may follow. -/
def Extends (a a' : Archive) : Prop := ∀ q, a.saved q <+: a'.saved q

theorem Archived.mono {machineId : Text} {partId : AsciiDigitsOrUpper 23}
    {general operation : List SavedPartSheetItem} {k : ℕ} {encoded : EncodedPartSheets}
    (h : Archived V F a machineId partId general operation k encoded) (he : Extends a a') :
    Archived V F a' machineId partId general operation k encoded := by
  refine ⟨h.1, fun q => ?_⟩
  obtain ⟨rows, hrows⟩ := he q
  rw [← hrows, List.getElem?_append_left (List.getElem?_eq_some_iff.mp (h.2 q)).1]
  exact h.2 q

theorem serve_extends (e : HandlerEffect) (i : HandlerInput V e) :
    Extends a (serve F queuesThreshold a e i) := fun _ => List.prefix_append _ _

variable (F queuesThreshold) in
/-- An effect commits a row to each queue, or none and does not reply that it has. -/
theorem committed_cases (a : Archive) (e : HandlerEffect) (i : HandlerInput V e) :
    (committedRows F a.store e i = (fun _ => []) ∧
      ∀ machineId partId general operation, (⟨e, replyTo F queuesThreshold a e i⟩ :
        Event handlerSignature) ≠ ⟨.savePartSheets machineId partId general operation, .ok (.ok ())⟩) ∨
    ∃ machineId partId general operation now context encoded,
      e = .savePartSheets machineId partId general operation ∧
      encodePartSheets V F now machineId partId general operation context = .returned encoded ∧
        committedRows F a.store e i = fun q => [encoded.row q] := by
  cases e with
  | savePartSheets machineId partId general operation =>
    cases i with
    | error err =>
      refine .inl ⟨rfl, fun _ _ _ _ heq => ?_⟩
      cases heq
    | ok i =>
      obtain ⟨faults, context, now⟩ := i
      let c : SaveCall V := ⟨machineId, partId, general, operation, context, now⟩
      rcases c.run_cases F faults a.store with ⟨-, hne, hnone⟩ | ⟨encoded, henc, -, hrows⟩
      · refine .inl ⟨hnone, fun m p g o heq => hne ?_⟩
        have hreply : taskResult (c.run F faults a.store).1 = .ok (.ok ()) := by
          injection heq
        cases hout : (c.run F faults a.store).1 with
        | returned u => rfl
        | failed err => rw [hout] at hreply; cases hreply
        | panicked m => rw [hout] at hreply; cases hreply
      · exact .inr ⟨machineId, partId, general, operation, now, context, encoded, rfl, henc, hrows⟩
  | _ => exact .inl ⟨rfl, fun _ _ _ _ heq => by cases heq⟩

theorem Paired.serve (h : Paired a) (e : HandlerEffect) (i : HandlerInput V e) :
    Paired (serve F queuesThreshold a e i) := by
  have hpair : (committedRows F a.store e i .general).length =
      (committedRows F a.store e i .operation).length := by
    rcases committed_cases F queuesThreshold a e i with
      ⟨hnone, -⟩ | ⟨_, _, _, _, _, _, encoded, -, -, hrows⟩
    · rw [hnone]
    · rw [hrows]
      rfl
  simp only [Paired, Gateway.serve, List.length_append, hpair]
  exact congrArg (· + _) h

/-- A save that replies success has its rows at the rank of all rows saved before. -/
theorem archived_of_reply (h : Paired a) {e : HandlerEffect} {i : HandlerInput V e} {machineId : Text}
    {partId : AsciiDigitsOrUpper 23} {general operation : List SavedPartSheetItem}
    (heq : (⟨e, replyTo F queuesThreshold a e i⟩ : Event handlerSignature) =
      ⟨.savePartSheets machineId partId general operation, .ok (.ok ())⟩) :
    ∃ k encoded, Archived V F (serve F queuesThreshold a e i) machineId partId general operation k
      encoded := by
  rcases committed_cases F queuesThreshold a e i with
    ⟨-, hno⟩ | ⟨m, p, g, o, now, context, encoded, rfl, henc, hrows⟩
  · exact absurd heq (hno machineId partId general operation)
  · injection heq with he _
    injection he with hm hp hg ho
    subst hm hp hg ho
    refine ⟨(a.saved .general).length, encoded, ⟨now, context, henc⟩, fun q => ?_⟩
    have hlength : (a.saved .general).length = (a.saved q).length := by
      cases q with
      | general => rfl
      | operation => exact h
    rw [hlength]
    show (a.saved q ++ committedRows F a.store (.savePartSheets m p g o) i q)[_]? = _
    rw [hrows, List.getElem?_append_right le_rfl, Nat.sub_self]
    rfl

/-! ### The invariant -/

/-- Every save that has replied success to a request is archived. -/
structure Logged (V : VariantCodec) (F : RowFormat) (g : Gateway) : Prop where
  paired : Paired g.archive
  logged : ∀ s ∈ g.sessions, ∀ hd ∈ s.begun, ∀ machineId partId general operation,
    ⟨.savePartSheets machineId partId general operation, .ok (.ok ())⟩ ∈ hd.trace →
      ∃ k encoded, Archived V F g.archive machineId partId general operation k encoded

/-- A step after which the handlings are those of before, or have no reply yet. -/
theorem Logged.congr (h : Logged V F g) (hsaved : g'.archive.saved = g.archive.saved)
    (hsessions : ∀ s' ∈ g'.sessions, ∀ hd ∈ s'.begun,
      hd.trace = [] ∨ ∃ s ∈ g.sessions, hd ∈ s.begun) : Logged V F g' where
  paired := by
    unfold Paired
    rw [hsaved]
    exact h.paired
  logged s' hs' hd hhd machineId partId general operation hmem := by
    rcases hsessions s' hs' hd hhd with hnil | ⟨s, hs, hold⟩
    · rw [hnil] at hmem
      cases hmem
    · obtain ⟨k, encoded, harchived⟩ := h.logged s hs hd hold machineId partId general operation hmem
      refine ⟨k, encoded, harchived.1, fun q => ?_⟩
      rw [hsaved]
      exact harchived.2 q

/-- Without a reply, the tasks of a session go on with the handlings they have, or begin one. -/
theorem begun_of_step {s s' : HandlerTasks} {l : HandlerTasks.Label}
    (hs : HandlerTasks.Step D s l s') (hl : ∀ e, l ≠ .reply e) :
    ∀ hd ∈ s'.begun, hd.trace = [] ∨ hd ∈ s.begun := by
  intro hd hmem
  cases hs with
  | notify value =>
    unfold HandlerTasks.notify at hmem
    split at hmem <;> exact .inr hmem
  | next value rest hrun hidle hlive hpending =>
    rcases List.mem_append.mp hmem with hmem | hmem
    · exact .inr (List.mem_append_left _ hmem)
    · cases Option.mem_toList.mp hmem
      exact .inl rfl
  | reply hd e k r => exact absurd rfl (hl _)
  | finish hd' hrun hcurrent hrest =>
    right
    simpa [HandlerTasks.begun, hcurrent] using hmem
  | _ => exact .inr hmem

theorem begun_of_drop {sessions : List HandlerTasks} {numbers : List ℕ} {s : HandlerTasks}
    (hs : s ∈ dropSessions sessions numbers) : ∃ s' ∈ sessions, s.begun = s'.begun := by
  obtain ⟨n, hn, rfl⟩ := List.mem_mapIdx.mp hs
  refine ⟨_, List.getElem_mem hn, ?_⟩
  split_ifs <;> rfl

/-- A step of one session without a reply. -/
theorem Logged.set (h : Logged V F g) {n : ℕ} {s s' : HandlerTasks} {l : HandlerTasks.Label}
    (hs : g.sessions[n]? = some s) (hstep : HandlerTasks.Step D s l s') (hl : ∀ e, l ≠ .reply e) :
    Logged V F { g with sessions := g.sessions.set n s' } := by
  refine h.congr rfl fun t ht hd hmem => ?_
  rcases List.mem_or_eq_of_mem_set ht with ht | rfl
  · exact .inr ⟨t, ht, hmem⟩
  · rcases begun_of_step hstep hl hd hmem with hnil | hold
    · exact .inl hnil
    · exact .inr ⟨s, List.mem_of_getElem? hs, hold⟩

theorem Logged.perform (h : Logged V F g) {n : ℕ} {s : HandlerTasks} {hd : Handling}
    {e : HandlerEffect} {k : e.Reply → HandlerProg Empty Unit} (i : HandlerInput V e)
    (hs : g.sessions[n]? = some s) (hcurrent : s.current = some hd) :
    Logged V F { g with
      archive := serve F queuesThreshold g.archive e i
      sessions := g.sessions.set n (s.reply hd e k (replyTo F queuesThreshold g.archive e i)) } where
  paired := h.paired.serve e i
  logged t ht hd' hmem machineId partId general operation hevent := by
    have hextends : Extends g.archive (serve F queuesThreshold g.archive e i) := serve_extends e i
    have hold : ∀ s ∈ g.sessions, ∀ hd ∈ s.begun,
        ⟨.savePartSheets machineId partId general operation, .ok (.ok ())⟩ ∈ hd.trace →
          ∃ k encoded, Archived V F (serve F queuesThreshold g.archive e i) machineId partId general
            operation k encoded := by
      intro s hs hd hmem hevent
      obtain ⟨k, encoded, harchived⟩ := h.logged s hs hd hmem _ _ _ _ hevent
      exact ⟨k, encoded, harchived.mono hextends⟩
    have hsmem := List.mem_of_getElem? hs
    rcases List.mem_or_eq_of_mem_set ht with ht | rfl
    · exact hold t ht hd' hmem hevent
    · rcases List.mem_append.mp hmem with hmem | hmem
      · exact hold s hsmem hd' (List.mem_append_left _ hmem) hevent
      · cases Option.mem_toList.mp hmem
        rcases List.mem_append.mp hevent with hevent | hevent
        · refine hold s hsmem hd (List.mem_append_right _ ?_) hevent
          rw [hcurrent]
          exact List.mem_singleton_self hd
        -- The reply just received is that of the save.
        · exact archived_of_reply h.paired (List.mem_singleton.mp hevent).symm

theorem Logged.step (h : Logged V F g) (hs : Step D db F queuesThreshold servers g l g') :
    Logged V F g' := by
  have hsame : ∀ s ∈ g.sessions, ∀ hd ∈ s.begun,
      hd.trace = [] ∨ ∃ s ∈ g.sessions, hd ∈ s.begun := fun s hs hd hmem => .inr ⟨s, hs, hmem⟩
  have hdrop : ∀ numbers, ∀ s ∈ dropSessions g.sessions numbers, ∀ hd ∈ s.begun,
      hd.trace = [] ∨ ∃ s ∈ g.sessions, hd ∈ s.begun := by
    intro numbers s hs hd hmem
    obtain ⟨s', hs', hbegun⟩ := begun_of_drop hs
    exact .inr ⟨s', hs', hbegun ▸ hmem⟩
  cases hs with
  | endDrain htask hend =>
    obtain ⟨harchive, -, hsessions, -⟩ := endDrain_fields g
    refine h.congr (by rw [harchive]) ?_
    rw [hsessions]
    exact hsame
  | managerTick m hmain hs => exact h.congr rfl (hdrop _)
  | register n v hn =>
    refine h.congr rfl fun s hs hd hmem => ?_
    rcases List.mem_append.mp hs with hs | hs
    · exact hdrop _ s hs hd hmem
    · cases List.mem_singleton.mp hs
      cases hmem
  | cancel n rest s hmain hphase hs => exact h.set hs (HandlerTasks.Step.cancel (D := D) s) nofun
  | notify n value s hs hlive => exact h.set hs (HandlerTasks.Step.notify (D := D) s value) nofun
  | task n l s s' hl hs hstep => exact h.set hs hstep (by rintro e rfl; exact hl)
  | perform n s hd e k i hs hrun hcurrent hrest => exact h.perform i hs hcurrent
  | exit ok applied hmain | kill applied => exact h.congr rfl fun s hs => nomatch hs
  | _ => exact h.congr rfl hsame

theorem run_logged (hr : Run (Step D db F queuesThreshold servers) g ls g') (h : Logged V F g) :
    Logged V F g' := hr.invariant (fun _ _ _ h hs => h.step hs) h

theorem initial_logged : Logged V F initial := ⟨rfl, fun _ hs => nomatch hs⟩

/-- Rows saved are never taken back. -/
theorem Step.extends (hs : Step D db F queuesThreshold servers g l g') :
    Extends g.archive g'.archive := by
  cases hs with
  | perform n s hd e k i hs hrun hcurrent hrest => exact serve_extends e i
  | endDrain htask hend => exact fun q => by rw [(endDrain_fields g).1]
  | _ => exact fun q => List.prefix_refl _

theorem run_extends (hr : Run (Step D db F queuesThreshold servers) g ls g') :
    Extends g.archive g'.archive := by
  induction hr with
  | nil => exact fun q => List.prefix_refl _
  | cons head _ ih => exact fun q => (head.extends q).trans (ih q)

/-- A step commits at most one save. -/
theorem Step.saved_le (hs : Step D db F queuesThreshold servers g l g') (q : QueueTable) :
    (g'.archive.saved q).length ≤ (g.archive.saved q).length + 1 := by
  cases hs with
  | perform n s hd e k i hs hrun hcurrent hrest =>
    show (g.archive.saved q ++ committedRows F g.archive.store e i q).length ≤ _
    rw [List.length_append]
    rcases committed_cases F queuesThreshold g.archive e i with
      ⟨hnone, -⟩ | ⟨_, _, _, _, _, _, encoded, -, -, hrows⟩
    · rw [hnone]
      exact Nat.le_succ _
    · rw [hrows]
      exact le_rfl
  | endDrain htask hend =>
    rw [(endDrain_fields g).1]
    exact Nat.le_succ _
  | _ => exact Nat.le_succ _

theorem run_saved_le_length (hr : Run (Step D db F queuesThreshold servers) g ls g')
    (q : QueueTable) : (g'.archive.saved q).length ≤ (g.archive.saved q).length + ls.length := by
  induction hr with
  | nil => exact le_rfl
  | cons head _ ih =>
    have hstep := head.saved_le q
    rw [List.length_cons]
    omega

theorem run_kept (hr : Run (Step D db F queuesThreshold servers) initial ls g)
    (hb : ∀ q, (g.archive.saved q).length ≤ 2 ^ 63) {q : QueueTable} {k : ℕ} {row : Text}
    (hk : (g.archive.saved q)[k]? = some row) : Kept g.archive q k row := by
  obtain ⟨o, href, hinv⟩ := run_outbox hr (hb q)
  exact href.kept hinv hk

/-- A save request answered with the success code is archived: in every state reached later,
through any interleaving, failures, crashes and restarts, its row of each queue is still
queued or lies in an insertion that the database has acknowledged. -/
theorem answered_save_kept {s : HandlerTasks} {hd : Handling}
    {r : Except SessionError (List StatusCode)} {ls' : List (Label V)}
    (hr : Run (Step D db F queuesThreshold servers) initial ls g) (hs : s ∈ g.sessions)
    (hmem : hd ∈ s.begun) (hv : hd.value.tryUaValueAs UInt8 = .ok 3)
    (hanswer : ⟨.write [⟨s.handler.state.protocol.response, .byte responseSuccess⟩], r⟩ ∈ hd.trace)
    (hr' : Run (Step D db F queuesThreshold servers) g ls' g')
    (hb : ∀ q, (g'.archive.saved q).length ≤ 2 ^ 63) :
    ∃ partId general operation k encoded,
      ⟨.savePartSheets s.handler.serverId partId general operation, .ok (.ok ())⟩ ∈ hd.trace ∧
        (∃ now context, encodePartSheets V F now s.handler.serverId partId general operation
          context = .returned encoded) ∧
        ∀ q, (g'.archive.saved q)[k]? = some (encoded.row q) ∧ Kept g'.archive q k (encoded.row q) := by
  obtain ⟨ls₁, hrun⟩ := run_installed hr (g := initial) (fun s hs => nomatch hs) s hs
  have hreached := (HandlerTasks.run_inv hrun).1.reached hd hmem
  obtain ⟨partId, general, operation, hevent⟩ := committed_of_answered hv hreached hanswer
  obtain ⟨k, encoded, harchived⟩ :=
    (run_logged hr initial_logged).logged s hs hd hmem _ _ _ _ hevent
  refine ⟨partId, general, operation, k, encoded, hevent, harchived.1, fun q => ?_⟩
  have hsaved := (harchived.mono (run_extends hr')).2 q
  exact ⟨hsaved, run_kept (hr.append hr') hb hsaved⟩

/-- A session at work on a save request, its first notification. -/
def saving (t : List (Event handlerSignature)) (p : HandlerProg Empty Unit) : HandlerTasks :=
  { HandlerTasks.install Creations.sampleHandler with
    received := [⟨some (.byte 3), none⟩]
    isInitial := false
    current := some ⟨⟨some (.byte 3), none⟩, true, t, p⟩ }

theorem saving_perform {m : SessionsManager} {t : List (Event handlerSignature)} {e : HandlerEffect}
    {k : e.Reply → HandlerProg Empty Unit} {i : HandlerInput plainCodec e} {r : e.Reply}
    {p : HandlerProg Empty Unit} (hr : replyTo epochFormat queuesThreshold a e i = r) (hp : k r = p)
    (ha : serve epochFormat queuesThreshold a e i = a') :
    Step asciiDecimal sampleDatabase epochFormat queuesThreshold ["MAC1".toList]
      (managing a m [saving t (.call e k)]) (.perform 0 e i)
      (managing a' m [saving (t ++ [⟨e, r⟩]) p]) := by
  subst hr hp ha
  exact .perform _ 0 (saving t (.call e k)) _ e k i rfl rfl rfl rfl

/-- An effect that is no step of the archive leaves it alone. -/
theorem serve_idle {e : HandlerEffect} {i : HandlerInput V e} (h : effectLabel e i = none) :
    serve F queuesThreshold a e i = a := by
  have hstep : Run.OptStep (Archive.Step (V := V) sampleDatabase F) a (effectLabel e i)
      (serve F queuesThreshold a e i) := serve_step a e i
  rwa [h] at hstep

/-- What a save without failures leaves in the archive. -/
theorem serve_save {machineId : Text} {partId : AsciiDigitsOrUpper 23}
    {general operation : List SavedPartSheetItem} {context : V.Context} {now : Timestamp}
    {encoded : EncodedPartSheets} (h : encodePartSheets V F now machineId partId general operation
      context = .returned encoded) (b : Archive) :
    serve F queuesThreshold b (.savePartSheets machineId partId general operation)
        (.ok (noFaults, context, now)) =
      { b with
        store := b.store.afterSave partId encoded
        saved := fun q => b.saved q ++ [encoded.row q] } := by
  have hsave := Store.savePartSheets_noFaults h b.store
  have hrows : committedRows F b.store (.savePartSheets machineId partId general operation)
      (.ok (noFaults, context, now) : Except JoinError (Faults × V.Context × Timestamp)) =
        fun q => [encoded.row q] := by
    funext q
    simp [committedRows, SaveCall.committedRows, SaveCall.run, SaveCall.encode, hsave, h]
  simp [serve, hrows, performHandler, hsave]

/-- A session registers, and saves at its first notification. -/
def committingLabels : List (Label plainCodec) :=
  [.register 0 Creations.sampleHandler, .notify 0 ⟨some (.byte 3), none⟩, .task 0 .next,
    .perform 0 (.read [.new 1 2]) (.ok [⟨some (.byte 0), none⟩]),
    .perform 0 .checkEnqueuingAllowed noFaults,
    .perform 0 (.read [.new 1 5]) (.ok [⟨some (.string (some sampleSave.partId.asStr)), none⟩]),
    .perform 0 (.savePartSheets "MAC1".toList sampleSave.partId
      [⟨5, "PartId".toList, .string (some sampleSave.partId.asStr)⟩] []) (.ok (noFaults, (), 0))]

/-- The request is answered. -/
def savingLabels : List (Label plainCodec) :=
  committingLabels ++ [.perform 0 (.write [⟨.new 1 2, .byte 1⟩]) (.ok [.good])]

theorem committingLabels_run (ha : a.store.total < queuesThreshold) : ∃ a' t,
    Run (guarded (Step asciiDecimal sampleDatabase epochFormat queuesThreshold ["MAC1".toList])
        Graceful)
        (managing a attempting []) committingLabels
        (managing a' (attempting.register 0 "MAC1".toList)
          [saving t (writeResponse Creations.sampleHandler responseSuccess)]) ∧
      t.filter Effective ≠ [] ∧
      ∀ q, (a'.saved q).length = (a.saved q).length + 1 ∧ (a'.store.rows q).entries ≠ [] := by
  have hcheck : checkEnqueuingAllowed queuesThreshold noFaults a.store = .ok () := by
    rw [checkEnqueuingAllowed_noFaults, if_neg (not_le.mpr ha)]
  have hencode : ∃ encoded, encodePartSheets plainCodec epochFormat 0 "MAC1".toList
      sampleSave.partId [⟨5, "PartId".toList, .string (some sampleSave.partId.asStr)⟩] [] () =
        .returned encoded := ⟨_, rfl⟩
  obtain ⟨encoded, hencode⟩ := hencode
  have hsave : ∀ b, replyTo epochFormat queuesThreshold b (.savePartSheets "MAC1".toList
      sampleSave.partId [⟨5, "PartId".toList, .string (some sampleSave.partId.asStr)⟩] [])
        (.ok (noFaults, (), 0) : Except JoinError (Faults × plainCodec.Context × Timestamp)) =
          .ok (.ok ()) := fun b =>
    congrArg (taskResult ∘ Prod.fst) (Store.savePartSheets_noFaults hencode b.store)
  refine ⟨_, _, .cons ⟨.register _ 0 _ rfl, trivial⟩ <|
    .cons ⟨.notify _ 0 _ _ rfl rfl, trivial⟩ <|
    .cons ⟨.task _ 0 .next _ (saving [] _) trivial rfl (.next _ _ _ rfl rfl rfl rfl), trivial⟩ <|
    .cons ⟨saving_perform rfl rfl (serve_idle rfl), trivial⟩ <|
    .cons ⟨saving_perform hcheck rfl (serve_idle rfl), trivial⟩ <|
    .cons ⟨saving_perform rfl rfl (serve_idle rfl), trivial⟩ <|
    .cons ⟨saving_perform (hsave _) rfl (serve_save hencode _), trivial⟩ <| .nil _,
    List.ne_nil_of_mem (List.mem_filter.mpr ⟨List.mem_append_right _ (List.mem_singleton_self _),
      rfl⟩), fun q => ⟨?_, ?_⟩⟩
  · exact List.length_append ..
  · rw [Store.afterSave_rows]
    exact List.ne_nil_of_mem (Table.mem_insert.mpr (.inl rfl))

theorem savingLabels_run (ha : a.store.total < queuesThreshold) : ∃ a' t,
    Run (guarded (Step asciiDecimal sampleDatabase epochFormat queuesThreshold ["MAC1".toList])
        Graceful)
        (managing a attempting []) savingLabels
        (managing a' (attempting.register 0 "MAC1".toList) [saving t (.ret ())]) ∧
      (⟨.write [⟨.new 1 2, .byte responseSuccess⟩], .ok [.good]⟩ : Event handlerSignature) ∈ t ∧
      ∀ q, (a'.saved q).length = (a.saved q).length + 1 ∧ (a'.store.rows q).entries ≠ [] := by
  obtain ⟨a', t, hr, -, hrows⟩ := committingLabels_run ha
  exact ⟨a', _, hr.snoc ⟨saving_perform rfl rfl (serve_idle rfl), trivial⟩,
    List.mem_append_right _ (List.mem_singleton_self _), hrows⟩

/-- The process is killed right after the answer. -/
theorem answered_save_kept_killed : ∃ (g g' : Gateway) (s : HandlerTasks) (hd : Handling),
    Run (Step asciiDecimal sampleDatabase epochFormat 10 ["MAC1".toList]) initial
        (startLabels ++ savingLabels) g ∧ s ∈ g.sessions ∧ hd ∈ s.begun ∧
      Run (Step asciiDecimal sampleDatabase epochFormat 10 ["MAC1".toList]) g
        [(.kill fun _ => true : Label plainCodec)] g' ∧ g'.sessions = [] ∧
        ∃ (k : ℕ) (row : QueueTable → Text), ∀ q, (g'.archive.saved q)[k]? = some (row q) ∧
          Kept g'.archive q k (row q) := by
  obtain ⟨a, hstart, htotal, -⟩ := startLabels_run 10
  obtain ⟨a', t, hsaving, hanswer, -⟩ := savingLabels_run (htotal ▸ Nat.zero_lt_succ 9)
  have hr := hstart.of_guarded.append hsaving.of_guarded
  have hkill : Step asciiDecimal sampleDatabase epochFormat 10 ["MAC1".toList] _
      (.kill fun _ => true : Label plainCodec) _ :=
    .kill (managing a' (attempting.register 0 "MAC1".toList) [saving t (.ret ())]) _
  have hmem : ⟨⟨some (.byte 3), none⟩, true, t, .ret ()⟩ ∈ (saving t (.ret ())).begun :=
    List.mem_singleton_self _
  have hsession := List.mem_singleton_self (saving t (.ret ()))
  have hcode : DataValue.tryUaValueAs UInt8 ⟨some (.byte 3), none⟩ = .ok 3 := rfl
  have hlength : 0 + (startLabels ++ savingLabels ++
      [(.kill fun _ => true : Label plainCodec)]).length ≤ 2 ^ 63 := by decide
  obtain ⟨partId, general, operation, k, encoded, -, -, hkept⟩ :=
    answered_save_kept hr hsession hmem hcode hanswer (.single hkill) fun q =>
      (run_saved_le_length (hr.snoc hkill) q).trans hlength
  exact ⟨_, _, _, _, hr, hsession, hmem, .single hkill, rfl, k, encoded.row, hkept⟩

end Gateway

end LineGateway

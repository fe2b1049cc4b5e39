import LineGateway.Gateway.Attempts

/-! Why the request tasks of the gateway end. A task of a session that an attempt has
registered ends when it is cancelled, or aborted with the session. A panic ends it only on a
reply that breaks the protocol of the server: no value read, no error and no order of the
steps of the system can. -/

namespace LineGateway

open Foundation Config Opcua Traceability

namespace Traceability

variable {D : DecimalClass} {h : TraceabilityHandler TraceabilityContext} {value : DataValue}
  {t : List (Event handlerSignature)} {o : Outcome Empty Unit}

/-- A request is answered without a panic, but for a fatal reply. -/
theorem panicsOn_respond
    (hindex : h.state.generalPartSheet.partIdIndex < h.state.generalPartSheet.nodes.length) :
    PanicsOn (FatalReply value) (respond D h value) := by
  refine .bind ((panicsOn_handleRequest hindex).unwrapOrElse _) fun code => ?_
  exact (panicsOn_writeChecked _).unwrapOrElse _

/-- The check of the first request does nothing but return. -/
theorem isInitialRequestAnswered_returned {o : Outcome Empty Bool}
    (hy : Yields (isInitialRequestAnswered h value) t o) : ∃ answered, o = .returned answered := by
  unfold isInitialRequestAnswered at hy
  split at hy
  · exact ⟨false, (Yields.ret_iff.mp hy).2⟩
  · obtain ⟨r, t', -, hy'⟩ := Yields.call_iff.mp hy
    exact ⟨_, (Yields.ret_iff.mp hy').2⟩

/-- A notification is found answered by the check, or is responded to after it. -/
theorem onNotification_yields {isInitial : Bool}
    (hy : Yields (onNotification D h isInitial value) t o) : ∃ t₀ t₁, t = t₀ ++ t₁ ∧
      (t₁ = [] ∧ o = .returned () ∨ Yields (respond D h value) t₁ o) := by
  cases isInitial with
  | false => exact ⟨[], t, rfl, .inr hy⟩
  | true =>
    have hparts : Yields (isInitialRequestAnswered h value >>= fun answered =>
        if answered then Prog.ret () else respond D h value) t o := hy
    rcases Yields.bind_iff.mp hparts with ⟨answered, t₀, t₁, rfl, -, h₁⟩ | ⟨e, -, -⟩ | ⟨m, -, hc⟩
    · refine ⟨t₀, t₁, rfl, ?_⟩
      cases answered with
      | true => exact .inl (Yields.ret_iff.mp h₁)
      | false => exact .inr h₁
    · exact e.elim
    · obtain ⟨answered, heq⟩ := isInitialRequestAnswered_returned hc
      cases heq

/-- The handling has a fatal reply to the answering of its request. -/
def Handling.Fatal (D : DecimalClass) (h : TraceabilityHandler TraceabilityContext) (hd : Handling) :
    Prop := ∃ t₀ t₁ m, hd.trace = t₀ ++ t₁ ∧ Yields (respond D h hd.value) t₁ (.panicked m) ∧
      ∃ e ∈ t₁, FatalReply hd.value e

/-- The request has been answered, or found answered, without a fatal reply. -/
def Handling.Sound (D : DecimalClass) (h : TraceabilityHandler TraceabilityContext) (hd : Handling) :
    Prop := ∃ t₀ t₁, hd.trace = t₀ ++ t₁ ∧
      (t₁ = [] ∨ Yields (respond D h hd.value) t₁ (.returned ())) ∧ ∀ e ∈ t₁, ¬ FatalReply hd.value e

theorem Handling.Ended.fatal {hd : Handling} {m : String}
    (hindex : h.state.generalPartSheet.partIdIndex < h.state.generalPartSheet.nodes.length)
    (he : hd.Ended D h (.panicked m)) : hd.Fatal D h := by
  obtain ⟨t₀, t₁, ht, ⟨-, hreturned⟩ | hy⟩ := onNotification_yields he
  · cases hreturned
  · exact ⟨t₀, t₁, m, ht, hy, (panicsOn_respond hindex t₁ _ hy).mp ⟨m, rfl⟩⟩

theorem Handling.Ended.sound {hd : Handling}
    (hindex : h.state.generalPartSheet.partIdIndex < h.state.generalPartSheet.nodes.length)
    (he : hd.Ended D h (.returned ())) : hd.Sound D h := by
  obtain ⟨t₀, t₁, ht, ⟨rfl, -⟩ | hy⟩ := onNotification_yields he
  · exact ⟨t₀, [], ht, .inl rfl, fun e he => nomatch he⟩
  · refine ⟨t₀, t₁, ht, .inr hy, fun e he hfatal => ?_⟩
    obtain ⟨m, hm⟩ := (panicsOn_respond hindex t₁ _ hy).mpr ⟨e, he, hfatal⟩
    cases hm

end Traceability

namespace GatewayAttempts

variable {V : VariantCodec} {D : DecimalClass} {db : TraceabilityDatabase} {F : RowFormat}
  {queuesThreshold : ℕ} {c : LineConfig} {s : GatewayAttempts} {ls : List (Label V)}

/-- Whether a request task is over, and what has brought it to its end. -/
def RequestTaskEnd (D : DecimalClass) (t : HandlerTasks) : Prop :=
  match t.requestTask with
  | .running => True
  | .terminated => t.cancelled = true ∧ t.begun = t.handled
  | .panicked => ∃ hd, t.current = some hd ∧ hd.Fatal D t.handler
  | .aborted => t.dropped = true

/-- In every run from the start, with any replies, the request task of a session registered
ends only because it has been cancelled, between two requests, or aborted with its session,
or because the last request begun has had a fatal reply; the requests handled to the end
have had none. -/
theorem request_task_ends (hr : Run (Step D db F queuesThreshold c) initial ls s) :
    ∀ t ∈ s.gateway.sessions, RequestTaskEnd D t ∧ ∀ hd ∈ t.handled, hd.Sound D t.handler := by
  intro t ht
  obtain ⟨config, -, t₀, hy⟩ := (run_inv hr).initialized t ht
  have hindex := (traceabilityInitialize_returned hy).2.lt
  obtain ⟨ls', hrun⟩ := Gateway.run_installed (run_toGateway hr) (fun s hs => nomatch hs) t ht
  have hinv := (HandlerTasks.run_inv hrun).1
  refine ⟨?_, fun hd hmem => (hinv.ended hmem).sound hindex⟩
  unfold RequestTaskEnd
  split
  · trivial
  · next hterm =>
    have hended := hinv.terminated hterm
    exact ⟨hended.1, by simp [HandlerTasks.begun, hended.2]⟩
  · next hpanic =>
    obtain ⟨hd, m, hcurrent, hrest⟩ := hinv.panicked hpanic
    have hmem : hd ∈ t.begun := by simp [HandlerTasks.begun, hcurrent]
    have hreached := hinv.reached hd hmem
    rw [Handling.Reached, hrest] at hreached
    have hended : hd.Ended D t.handler (.panicked m) := hreached.panicked
    exact ⟨hd, hcurrent, hended.fatal hindex⟩
  · next habort => exact hinv.aborted habort

/-- A read request notified at the subscription, to the read of which no value is replied. -/
def misreadLabels (h : TraceabilityHandler TraceabilityContext) : List (Gateway.Label plainCodec) :=
  [.notify 0 ⟨some (.byte 2), none⟩, .task 0 .next,
    .perform 0 (.read [h.state.protocol.response]) (.ok [⟨some (.byte 0), none⟩]),
    .perform 0 (.read [partIdNode h]) (.ok []), .task 0 .panic]

theorem request_task_ends_panicked : ∃ (s : GatewayAttempts) (ls : List (Label plainCodec))
    (t : HandlerTasks) (hd : Handling), Run SampleStep initial ls s ∧ s.gateway.sessions = [t] ∧
      t.requestTask = .panicked ∧ t.current = some hd ∧ hd.Fatal asciiDecimal t.handler := by
  obtain ⟨a, ls, h, hr⟩ := sampleLine_run
  have hmisread : ∃ g, Run (Gateway.Step asciiDecimal sampleDatabase epochFormat 10 sampleLine.servers)
      (registerSession (Gateway.managing a Gateway.attempting []) 0 "MAC1".toList h)
      (misreadLabels h) g ∧ ∃ t, g.sessions = [t] ∧ t.requestTask = .panicked :=
    ⟨_, .cons (.notify _ 0 _ _ rfl rfl) <|
      .cons (.task _ 0 .next _ _ trivial rfl (.next _ _ _ rfl rfl rfl rfl)) <|
      .cons (.perform _ 0 _ _ _ _ _ rfl rfl rfl rfl) <|
      .cons (.perform _ 0 _ _ _ _ _ rfl rfl rfl rfl) <|
      .cons (.task _ 0 .panic _ _ trivial rfl (.panic _ _ _ rfl rfl rfl)) <| .nil _, _, rfl, rfl⟩
  obtain ⟨g, hg, t, ht, hpanic⟩ := hmisread
  have hindependent : ∀ l ∈ misreadLabels h, Independent l := by
    simp [misreadLabels, Independent, Gateway.Label.Ends, Gateway.Label.manager]
  have hrun := hr.append (run_independent (c := sampleLine) [] hindependent hg)
  have hend := (request_task_ends hrun t (ht ▸ List.mem_singleton_self t)).1
  rw [RequestTaskEnd, hpanic] at hend
  obtain ⟨hd, hcurrent, hfatal⟩ := hend
  exact ⟨_, _, t, hd, hrun, ht, hpanic, hcurrent, hfatal⟩

end GatewayAttempts

end LineGateway

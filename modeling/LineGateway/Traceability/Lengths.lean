import LineGateway.Foundation.Progress
import LineGateway.Traceability.Replies

/-! How long the programs of the gateway run. Whatever the replies, a drain of a queue performs
at most three effects, and the handling of a notification at most six. -/

namespace LineGateway.Traceability

open Foundation Config Opcua

theorem drainPartSheetQueue_within (db : TraceabilityDatabase) (q : QueueTable) (skipIfEmpty : Bool) :
    (drainPartSheetQueue db q skipIfEmpty).Within 3 := by
  rw [drainPartSheetQueue_eq]
  refine .call (n := 2) fun r => ?_
  rcases r with e | e | ⟨keys, body⟩
  · exact .fail _ 2
  · exact .fail _ 2
  · show Prog.Within (if skipIfEmpty && keys.isEmpty then .ret () else insertRows db q keys body) 2
    split
    · exact .ret _ 2
    · rw [insertRows_eq]
      refine .call (n := 1) fun r => ?_
      rcases r with e | u
      · exact .fail _ 1
      · rw [afterInsert, removeRows_eq]
        refine .call (n := 0) fun r => ?_
        rcases r with e | e | u
        · exact .fail _ 0
        · exact .fail _ 0
        · exact .ret _ 0

section Handlers

variable (D : DecimalClass) (h : TraceabilityHandler TraceabilityContext)

theorem checkWritten_within (values : List WriteValue) (r : Except SessionError (List StatusCode)) :
    (checkWritten values r).Within 0 := by
  cases r with
  | error e => exact .fail _ 0
  | ok statuses =>
    rcases checkWritten_cases values statuses with ⟨-, hc⟩ | ⟨i, status, -, ⟨v, -, hc⟩ | ⟨-, hc⟩⟩
    · exact hc ▸ .ret _ 0
    · exact hc ▸ .fail _ 0
    · exact hc ▸ .panic _ 0

theorem writeChecked_within (values : List WriteValue) : (writeChecked values).Within 1 :=
  .call (n := 0) (checkWritten_within values)

theorem createPartId_within : (createPartId D h).Within 4 := by
  refine .bind (m := 3) ?_ fun partId => (writeChecked_within _).mapErr _
  rcases preparePartId_cases D h with hfail | ⟨lineId, nodes, hcall⟩
  · exact hfail ▸ .fail _ 3
  · rw [hcall]
    refine .call (n := 2) fun r => ?_
    cases r with
    | error e => exact .fail _ 2
    | ok values =>
      show (composeFromValues D lineId values).Within 2
      rcases composeFromValues_cases (D := D) lineId values with ⟨e, he⟩ | ⟨partRef, batch, he⟩
      · exact he ▸ .fail _ 2
      · rw [he, composeToday_eq]
        refine .call (n := 1) fun today => ?_
        rw [composePartId_eq]
        refine .call (n := 0) fun r => ?_
        rcases afterSerial_cases D partRef batch lineId today r with ⟨e, he, -⟩ | ⟨_, s, -, -, hs⟩
        · exact he ▸ .fail _ 0
        · exact hs ▸ .ret _ 0

theorem handleRead_within : (handleRead h).Within 3 := by
  rw [handleRead_eq]
  refine .call (n := 2) fun r => ?_
  cases r with
  | error e => exact .fail _ 2
  | ok values =>
    refine .expect_bind fun value => .attempt_bind fun partId => ?_
    refine .call (n := 1) fun r => ?_
    rw [writePartSheet_eq]
    rcases r with e | e | _ | partSheet
    · exact .fail _ 1
    · exact .fail _ 1
    · exact .fail _ 1
    · exact (writeChecked_within _).mapErr _

theorem handleSave_within : (handleSave h).Within 3 := by
  rw [handleSave_eq]
  refine .call (n := 2) fun r => ?_
  rcases r with e | u
  · exact .fail _ 2
  · refine .call (n := 1) fun r => ?_
    cases r with
    | error e => exact .fail _ 1
    | ok readValues =>
      show (saveRead h readValues).Within 1
      unfold saveRead
      split
      · exact .fail _ 1
      · refine .attempt_bind fun partSheets => .expect_bind fun item => .attempt_bind fun partId => ?_
        refine .ofOutcome_bind fun u => .expect_bind fun (general, operation) => ?_
        show (sendSave h partId general operation).Within 1
        rw [sendSave_eq]
        refine .call (n := 0) fun r => ?_
        rcases r with e | e | u
        · exact .fail _ 0
        · exact .fail _ 0
        · exact .ret _ 0

theorem handleRequest_within (value : DataValue) : (handleRequest D h value).Within 4 := by
  refine .attempt_bind fun code => ?_
  cases TraceabilityRequest.fromRepr code with
  | none => exact .fail _ 4
  | some request =>
    cases request with
    | reset => exact .ret _ 4
    | createPartId => exact .bind (n := 0) ((createPartId_within D h).mapErr _) fun _ => .ret _ 0
    | readPartSheet => exact .bind (n := 1) ((handleRead_within h).mapErr _) fun _ => .ret _ 1
    | savePartSheets => exact .bind (n := 1) ((handleSave_within h).mapErr _) fun _ => .ret _ 1

/-- A notification takes at most six effects: the check, the request, the response. -/
theorem onNotification_within (isInitial : Bool) (value : DataValue) :
    (onNotification D h isInitial value).Within 6 := by
  have hrespond : (respond D h value).Within 5 :=
    .bind (m := 4) ((handleRequest_within D h value).unwrapOrElse _) fun code =>
      (writeChecked_within _).unwrapOrElse _
  cases isInitial with
  | false => exact hrespond.mono (by decide)
  | true =>
    have hcheck : (isInitialRequestAnswered h value : HandlerProg Empty Bool).Within 1 := by
      unfold isInitialRequestAnswered
      split
      · exact .ret _ 1
      · exact .call (n := 0) fun r => .ret _ 0
    show Prog.Within (isInitialRequestAnswered h value >>= fun answered =>
      if answered then Prog.ret () else respond D h value) (1 + 5)
    refine .bind hcheck fun answered => ?_
    cases answered with
    | true => exact .ret _ 5
    | false => exact hrespond

end Handlers

end LineGateway.Traceability

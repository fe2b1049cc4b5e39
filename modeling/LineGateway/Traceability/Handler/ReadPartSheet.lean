import LineGateway.Traceability.Handler.Initialize

/-! The request to read a part sheet: the part identifier is read from the server, its
general part sheet is looked up in the cache, and the values are written to the server,
except those of excluded nodes. -/

namespace LineGateway.Traceability

open Foundation Config Opcua

/-- Errors that can occur during handling the request to read the general part sheet. -/
inductive HandleReadError
  | readPartId (e : SessionError)
  | partIdValue (e : TryFromOpcUaValueError)
  | cacheGet (e : GetGeneralPartSheetError)
  | cacheGetTask (e : JoinError)
  | cacheMissing (partId : Text)
  | writePartSheet (e : WriteError)
  deriving DecidableEq

section Program

variable (h : TraceabilityHandler TraceabilityContext)

/-- The values of a cached part sheet to be written, without those of excluded nodes. -/
def sheetWriteValues (partSheet : List (UInt32 × Variant)) : List WriteValue :=
  partSheet.filterMap fun (id, value) =>
    if h.commonOpcuaConfig.excludedReadNids.all fun i => i ≠ id then
      some ⟨.new h.state.generalPartSheet.nsIndex id, value⟩
    else none

/-- Write the part sheet looked up. -/
def writePartSheet (partId : AsciiDigitsOrUpper 23)
    (reply : Except JoinError (Except GetGeneralPartSheetError (Option (List (UInt32 × Variant))))) :
    HandlerProg HandleReadError Unit := do
  let result ← Prog.attempt .cacheGetTask reply
  let partSheetFromCache ← Prog.attempt .cacheGet result
  match partSheetFromCache with
  | none => Prog.fail (.cacheMissing partId.asStr)
  | some partSheet => (writeChecked (sheetWriteValues h partSheet)).mapErr .writePartSheet

/-- Look up the part sheet of the identifier read. -/
def readPartSheetOf (values : List DataValue) : HandlerProg HandleReadError Unit := do
  let partIdValue ← Prog.expect "read values vector should have the expected size"
    (match values with
      | [partIdValue] => some partIdValue
      | _ => none)
  let partId ← Prog.attempt .partIdValue (partIdValue.tryUaValueAs (AsciiDigitsOrUpper 23))
  let reply ← handlerCall (.getGeneralPartSheet partId.asStr)
  writePartSheet h partId reply

/-- Read general part data from the cache and write it to the server. -/
def handleRead : HandlerProg HandleReadError Unit := do
  let result ← handlerCall (.read
    [.new h.state.generalPartSheet.nsIndex h.commonOpcuaConfig.partIdNid])
  let values ← Prog.attempt .readPartId result
  readPartSheetOf h values

/-! ### What follows each reply -/

def afterLookup (partId : AsciiDigitsOrUpper 23) :
    Except JoinError (Except GetGeneralPartSheetError (Option (List (UInt32 × Variant)))) →
      HandlerProg HandleReadError Unit
  | .error e => .fail (.cacheGetTask e)
  | .ok (.error e) => .fail (.cacheGet e)
  | .ok (.ok none) => .fail (.cacheMissing partId.asStr)
  | .ok (.ok (some partSheet)) =>
    (writeChecked (sheetWriteValues h partSheet)).mapErr .writePartSheet

theorem writePartSheet_eq (partId : AsciiDigitsOrUpper 23) :
    writePartSheet h partId = afterLookup h partId := by
  funext r
  rcases r with e | e | _ | partSheet <;> rfl

/-- The program after a part identifier that is good and well formed. -/
theorem readPartSheetOf_ok {value : DataValue} {partId : AsciiDigitsOrUpper 23}
    (hv : value.tryUaValueAs (AsciiDigitsOrUpper 23) = .ok partId) :
    readPartSheetOf h [value] =
      .call (.getGeneralPartSheet partId.asStr) (afterLookup h partId) := by
  simp only [readPartSheetOf, Prog.expect_some, Prog.ret_bind, hv, Prog.attempt_ok]
  rw [← writePartSheet_eq]
  rfl

def afterPartIdRead : Except SessionError (List DataValue) → HandlerProg HandleReadError Unit
  | .error e => .fail (.readPartId e)
  | .ok values => readPartSheetOf h values

theorem handleRead_eq : handleRead h =
    .call (.read [.new h.state.generalPartSheet.nsIndex h.commonOpcuaConfig.partIdNid])
      (afterPartIdRead h) := by
  refine congrArg (Prog.call (S := handlerSignature) (.read _)) (funext fun r => ?_)
  cases r <;> rfl

/-- The values written are those of the nodes that are not excluded, in order. -/
theorem sheetWriteValues_eq (partSheet : List (UInt32 × Variant)) :
    sheetWriteValues h partSheet =
      (partSheet.filter fun x => x.1 ∉ h.commonOpcuaConfig.excludedReadNids).map
        fun x => ⟨.new h.state.generalPartSheet.nsIndex x.1, x.2⟩ := by
  induction partSheet with
  | nil => rfl
  | cons x rest ih =>
    have hmem : (h.commonOpcuaConfig.excludedReadNids.all fun i => i ≠ x.1) =
        decide (x.1 ∉ h.commonOpcuaConfig.excludedReadNids) := by
      rw [Bool.eq_iff_iff]
      simp only [List.all_eq_true, decide_eq_true_eq]
      exact ⟨fun hall hx => hall _ hx rfl, fun hx i hi heq => hx (heq ▸ hi)⟩
    unfold sheetWriteValues at ih ⊢
    rw [List.filterMap_cons, List.filter_cons, ih]
    simp only [hmem]
    split <;> simp_all

end Program

end LineGateway.Traceability

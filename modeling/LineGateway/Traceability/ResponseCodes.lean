import LineGateway.Foundation.Guarantee
import LineGateway.Traceability.Replies

/-! What a response code tells of the request it answers. A request takes a serial number,
has its sheets saved or sends values to the machine, or does nothing of the kind; which of
these it has done, when its response code is written, can be read off the code. Only of a
write that is not acknowledged the code does not tell whether it has taken place. -/

namespace LineGateway.Traceability

open Foundation Config Opcua

/-- The effect has changed the store, or has sent values to the server. -/
def Effective : Event handlerSignature → Bool
  | ⟨.write _, _⟩ => true
  | ⟨.nextSerial _, .ok (.ok _)⟩ => true
  | ⟨.savePartSheets .., .ok (.ok ())⟩ => true
  | _ => false

section Tells

variable (D : DecimalClass) (h : TraceabilityHandler TraceabilityContext)

end Tells

section Programs

variable {D : DecimalClass} {h : TraceabilityHandler TraceabilityContext} {value : DataValue}
  {request : Option UInt8} {t t' : List (Event handlerSignature)}

/-- The code of the request in a notification. -/
def requestCode (value : DataValue) : Option UInt8 := (value.tryUaValueAs UInt8).toOption

end Programs

end LineGateway.Traceability

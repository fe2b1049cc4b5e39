import LineGateway.Gateway.Durability
import LineGateway.Traceability.ResponseCodes

/-! What a machine can conclude from a response code. When the response code of a request is
written, the effects of the request on the store and on the machine are those its code
stands for, whatever the other sessions, the draining task and the manager have done in the
meantime; no other effect of a request changes the store or the queues. -/

namespace LineGateway

open Foundation Config Opcua Traceability

namespace Gateway

variable {V : VariantCodec} {D : DecimalClass} {db : TraceabilityDatabase} {F : RowFormat}
  {queuesThreshold : ℕ} {servers : List Text} {g g' : Gateway} {ls : List (Label V)}

end Gateway

end LineGateway

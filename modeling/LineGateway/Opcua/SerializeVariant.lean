import LineGateway.Foundation.Json
import LineGateway.Opcua.Value

/-! Serialisation of variants: scalars of the supported types and arrays without
dimensions. The error names the unsupported type. -/

namespace LineGateway.Opcua

open Foundation

/-- The tokens of finite floats; other floats are written as null. -/
structure FloatFormat where
  float : UInt32 → Option NumberToken
  double : UInt64 → Option NumberToken

def FloatFormat.json : Option NumberToken → Json
  | some token => .number token
  | none => .null

mutual

def serializeVariant (F : FloatFormat) : Variant → Except String Json
  | .empty => .ok .null
  | .boolean v => .ok (.bool v)
  | .sByte v => .ok (.int v.toInt)
  | .byte v => .ok (.int v.toNat)
  | .int16 v => .ok (.int v.toInt)
  | .uInt16 v => .ok (.int v.toNat)
  | .int32 v => .ok (.int v.toInt)
  | .uInt32 v => .ok (.int v.toNat)
  | .int64 v => .ok (.int v.toInt)
  | .uInt64 v => .ok (.int v.toNat)
  | .float bits => .ok (FloatFormat.json (F.float bits))
  | .double bits => .ok (FloatFormat.json (F.double bits))
  | .string none => .ok .null
  | .string (some s) => .ok (.string s)
  | .array _ values dimensions =>
    if dimensions.isSome then .error "multidimensional arrays are not supported"
    else match serializeElements F values with
      | .error e => .error e
      | .ok items => .ok (.array items)
  | .other t content =>
    .error ("unsupported serialization for Variant type " ++ (Variant.other t content).typeId.debug)

def serializeElements (F : FloatFormat) : List Variant → Except String (List Json)
  | [] => .ok []
  | v :: vs => match serializeVariant F v with
    | .error e => .error e
    | .ok j => match serializeElements F vs with
      | .error e => .error e
      | .ok js => .ok (j :: js)

end

end LineGateway.Opcua

import LineGateway.Config.AsciiText
import LineGateway.Foundation.Program

/-! OPC-UA values as the gateway receives them: node identifiers, variants, data
values with their status, and the fallible conversions from them. A conversion
succeeds exactly on a good, present value of the expected type. -/

namespace LineGateway.Opcua

open Foundation Config

/-- A status code; its two top bits are the severity. -/
structure StatusCode where
  bits : UInt32
  deriving DecidableEq

def StatusCode.good : StatusCode := ⟨0⟩

def StatusCode.isGood (s : StatusCode) : Bool := s.bits.toNat / 2 ^ 30 = 0

/-- Why a service call of the session failed. -/
structure SessionError where
  status : StatusCode
  deriving DecidableEq

inductive Identifier
  | numeric (id : UInt32)
  | string (s : Option Text)
  | guid (bytes : List UInt8)
  | byteString (bytes : Option (List UInt8))
  deriving DecidableEq

structure NodeId where
  namespaceIndex : UInt16
  identifier : Identifier
  deriving DecidableEq

/-- `NodeId::new` with a numeric identifier. -/
def NodeId.new (ns : UInt16) (id : UInt32) : NodeId := ⟨ns, .numeric id⟩

/-! ### Variants -/

inductive ScalarTypeId
  | boolean | sByte | byte | int16 | uInt16 | int32 | uInt32 | int64 | uInt64 | float | double
  | string | dateTime | guid | statusCode | byteString | xmlElement | qualifiedName
  | localizedText | nodeId | expandedNodeId | extensionObject | variant | dataValue | diagnosticInfo
  deriving DecidableEq

def ScalarTypeId.name : ScalarTypeId → String
  | .boolean => "Boolean" | .sByte => "SByte" | .byte => "Byte"
  | .int16 => "Int16" | .uInt16 => "UInt16" | .int32 => "Int32" | .uInt32 => "UInt32"
  | .int64 => "Int64" | .uInt64 => "UInt64" | .float => "Float" | .double => "Double"
  | .string => "String" | .dateTime => "DateTime" | .guid => "Guid"
  | .statusCode => "StatusCode" | .byteString => "ByteString" | .xmlElement => "XmlElement"
  | .qualifiedName => "QualifiedName" | .localizedText => "LocalizedText"
  | .nodeId => "NodeId" | .expandedNodeId => "ExpandedNodeId"
  | .extensionObject => "ExtensionObject" | .variant => "Variant"
  | .dataValue => "DataValue" | .diagnosticInfo => "DiagnosticInfo"

/-- The types whose values the gateway carries without looking inside. -/
inductive OpaqueTypeId
  | dateTime | guid | statusCode | byteString | xmlElement | qualifiedName
  | localizedText | nodeId | expandedNodeId | extensionObject | variant | dataValue | diagnosticInfo
  deriving DecidableEq

def OpaqueTypeId.scalar : OpaqueTypeId → ScalarTypeId
  | .dateTime => .dateTime | .guid => .guid | .statusCode => .statusCode
  | .byteString => .byteString | .xmlElement => .xmlElement | .qualifiedName => .qualifiedName
  | .localizedText => .localizedText | .nodeId => .nodeId | .expandedNodeId => .expandedNodeId
  | .extensionObject => .extensionObject | .variant => .variant | .dataValue => .dataValue
  | .diagnosticInfo => .diagnosticInfo

/-- A value. Floats are given by their bits, opaque values by their content. -/
inductive Variant
  | empty
  | boolean (v : Bool)
  | sByte (v : Int8)
  | byte (v : UInt8)
  | int16 (v : Int16)
  | uInt16 (v : UInt16)
  | int32 (v : Int32)
  | uInt32 (v : UInt32)
  | int64 (v : Int64)
  | uInt64 (v : UInt64)
  | float (bits : UInt32)
  | double (bits : UInt64)
  | string (v : Option Text)
  | other (type : OpaqueTypeId) (content : List UInt8)
  | array (elemType : ScalarTypeId) (values : List Variant) (dimensions : Option (List UInt32))

inductive VariantTypeId
  | empty
  | scalar (t : ScalarTypeId)
  | array (t : ScalarTypeId) (dimensions : Option (List UInt32))
  deriving DecidableEq

def Variant.typeId : Variant → VariantTypeId
  | .empty => .empty
  | .boolean _ => .scalar .boolean
  | .sByte _ => .scalar .sByte
  | .byte _ => .scalar .byte
  | .int16 _ => .scalar .int16
  | .uInt16 _ => .scalar .uInt16
  | .int32 _ => .scalar .int32
  | .uInt32 _ => .scalar .uInt32
  | .int64 _ => .scalar .int64
  | .uInt64 _ => .scalar .uInt64
  | .float _ => .scalar .float
  | .double _ => .scalar .double
  | .string _ => .scalar .string
  | .other t _ => .scalar t.scalar
  | .array t _ d => .array t d

/-- The `Debug` text of a type identifier. -/
def VariantTypeId.debug : VariantTypeId → String
  | .empty => "Empty"
  | .scalar t => "Scalar(" ++ t.name ++ ")"
  | .array t none => "Array(" ++ t.name ++ ", None)"
  | .array t (some ds) =>
    "Array(" ++ t.name ++ ", Some([" ++ ", ".intercalate (ds.map fun d => toString d) ++ "]))"

structure DataValue where
  value : Option Variant
  status : Option StatusCode

/-- A missing status counts as good. -/
def DataValue.effectiveStatus (v : DataValue) : StatusCode := v.status.getD .good

/-! ### Conversions -/

/-- Errors that can occur during conversion of OPC-UA value. -/
inductive TryFromOpcUaValueError
  | badStatus (status : StatusCode)
  | missingValue
  | invalidType (expected got : String)
  | nullString
  | ascii (e : AsciiDigitsOrUpperError)
  deriving DecidableEq

def DataValue.tryIntoVariant (v : DataValue) : Except TryFromOpcUaValueError Variant :=
  if !v.effectiveStatus.isGood then .error (.badStatus v.effectiveStatus)
  else match v.value with
    | none => .error .missingValue
    | some variant => .ok variant

/-- Fallible conversion of a variant to a useful type. -/
class TryFromVariant (α : Type) where
  tryFromVariant : Variant → Except TryFromOpcUaValueError α

export TryFromVariant (tryFromVariant)

/-- The conversion to the payload of one constructor of `Variant`. -/
def tryFromVariantPrimitive {α : Type} (expected : String) (payload : Variant → Option α)
    (v : Variant) : Except TryFromOpcUaValueError α :=
  match payload v with
  | some a => .ok a
  | none => .error (.invalidType expected v.typeId.debug)

def Variant.asByte : Variant → Option UInt8
  | .byte v => some v
  | _ => none

def Variant.asString : Variant → Option (Option Text)
  | .string v => some v
  | _ => none

instance : TryFromVariant UInt8 := ⟨tryFromVariantPrimitive "Byte" Variant.asByte⟩

instance : TryFromVariant (Option Text) := ⟨tryFromVariantPrimitive "String" Variant.asString⟩

instance : TryFromVariant Text where
  tryFromVariant v := do
    let s : Option Text ← tryFromVariant v
    match s with
    | some s => .ok s
    | none => .error .nullString

instance {n : ℕ} : TryFromVariant (AsciiDigitsOrUpper n) where
  tryFromVariant v := do
    let s : Text ← tryFromVariant v
    (AsciiDigitsOrUpper.fromStr n s).mapError .ascii

def DataValue.tryUaValueAs (α : Type) [TryFromVariant α] (v : DataValue) :
    Except TryFromOpcUaValueError α := do
  tryFromVariant (← v.tryIntoVariant)

theorem DataValue.tryIntoVariant_ok_iff {v : DataValue} {x : Variant} :
    v.tryIntoVariant = .ok x ↔ v.effectiveStatus.isGood ∧ v.value = some x := by
  unfold tryIntoVariant
  cases hg : v.effectiveStatus.isGood with
  | false => simp
  | true => cases hv : v.value <;> simp

theorem tryFromVariant_byte_ok_iff {v : Variant} {b : UInt8} :
    tryFromVariant v = .ok b ↔ v = .byte b := by
  cases v <;> simp [tryFromVariant, tryFromVariantPrimitive, Variant.asByte]

theorem tryFromVariant_string_ok_iff {v : Variant} {s : Text} :
    tryFromVariant v = .ok s ↔ v = .string (some s) := by
  cases v with
  | string o =>
    cases o <;> simp [tryFromVariant, tryFromVariantPrimitive, Variant.asString, bind, Except.bind]
  | _ => simp [tryFromVariant, tryFromVariantPrimitive, Variant.asString, bind, Except.bind]

theorem tryFromVariant_ascii_ok_iff {n : ℕ} {v : Variant} {a : AsciiDigitsOrUpper n} :
    tryFromVariant v = .ok a ↔ v = .string (some a.asStr) := by
  change (tryFromVariant v : Except _ Text).bind _ = .ok a ↔ _
  simp only [bind_ok_iff, mapError_ok_iff, tryFromVariant_string_ok_iff,
    AsciiDigitsOrUpper.fromStr_ok_iff]
  constructor
  · rintro ⟨s, rfl, rfl⟩; rfl
  · rintro rfl; exact ⟨_, rfl, rfl⟩

/-- A value is converted exactly when it is good, present and convertible. -/
theorem DataValue.tryUaValueAs_ok_iff {α : Type} [TryFromVariant α] {v : DataValue} {a : α} :
    v.tryUaValueAs α = .ok a ↔
      ∃ x, v.effectiveStatus.isGood ∧ v.value = some x ∧ tryFromVariant x = .ok a := by
  change v.tryIntoVariant.bind _ = .ok a ↔ _
  simp only [bind_ok_iff, tryIntoVariant_ok_iff, and_assoc]

end LineGateway.Opcua

import EdgeRoute.Lib.SqlTable
import EdgeRoute.Spec.Validation
import Mathlib.Data.List.Sort
import Mathlib.Data.String.Basic

/-!
# The `mappings` table and its row codec

The columns as SQLite stores them (`SQLITE_SCHEMA`), the indexes and triggers of
`MAPPING_CONSTRAINTS`, and the translation between a row and a `Mapping`
(`row_to_mapping` and the `bind` lists of `edge-store/src/lib.rs`).
-/

namespace EdgeRoute

open Effect

/-- The third-party codecs of the store: `serde_json` on the config, and the RFC 3339
format of the `time` crate. What either writes, it reads back. -/
structure Codec where
  configToJson : EdgeConfig → Except String String
  configFromJson : String → Except String EdgeConfig
  formatRfc3339 : OffsetDateTime → Except String String
  parseRfc3339 : String → Except String OffsetDateTime
  json_inverse : ∀ {c s}, configToJson c = .ok s → configFromJson s = .ok c
  rfc3339_inverse : ∀ {t s}, formatRfc3339 t = .ok s → parseRfc3339 s = .ok t

/-- A row of `mappings`. -/
structure Row where
  id : String
  name : String
  publicIp : Option String
  ociPublicIpOcid : Option String
  edgePrivateIp : String
  ociPrivateIpOcid : Option String
  targetIp : String
  publicPort : Option ℤ
  targetPort : Option ℤ
  protocol : String
  mode : String
  backend : String
  enabled : ℤ
  status : String
  lastError : Option String
  healthStatus : Option String
  lastCheckedAt : Option String
  createdAt : String
  updatedAt : String
deriving DecidableEq

/-! ## `MAPPING_CONSTRAINTS` -/

/-- `WHERE enabled = 1 AND mode = ?`. -/
def Row.enabledIn (mode : String) (row : Row) : Bool := row.enabled == 1 && row.mode == mode

def oneToOneEdgePrivateIpIdx : Sql.UniqueIndex Row where
  message := "UNIQUE constraint failed: mappings.edge_private_ip"
  columns row := [.text row.edgePrivateIp]
  covers := Row.enabledIn "one_to_one_snat"

def oneToOnePublicIpIdx : Sql.UniqueIndex Row where
  message := "UNIQUE constraint failed: mappings.public_ip"
  columns row := [.ofText row.publicIp]
  covers row := row.enabledIn "one_to_one_snat" && row.publicIp.isSome

def oneToOneTargetIpIdx : Sql.UniqueIndex Row where
  message := "UNIQUE constraint failed: mappings.target_ip"
  columns row := [.text row.targetIp]
  covers := Row.enabledIn "one_to_one_snat"

def portForwardTupleIdx : Sql.UniqueIndex Row where
  message :=
    "UNIQUE constraint failed: mappings.edge_private_ip, mappings.protocol, mappings.public_port"
  columns row := [.text row.edgePrivateIp, .text row.protocol, .ofInt row.publicPort]
  covers := Row.enabledIn "port_forward_snat"

/-- `public_ip = NEW.public_ip`. -/
def Row.samePublicIp (new row : Row) : Bool :=
  (Sql.Value.ofText row.publicIp).eq (.ofText new.publicIp)

/-- The four `SELECT RAISE(ABORT, ...)` of both triggers, over the rows that their
subqueries range over. -/
def raiseConflict (rows : List Row) (new : Row) : Option String :=
  if new.enabled ≠ 1 then none
  else if new.mode = "port_forward_snat" ∧ rows.any (fun row =>
      row.enabledIn "one_to_one_snat" && row.edgePrivateIp == new.edgePrivateIp) then
    some "mapping conflict: one-to-one owns edge_private_ip"
  else if new.mode = "one_to_one_snat" ∧ rows.any (fun row =>
      row.enabledIn "port_forward_snat" && row.edgePrivateIp == new.edgePrivateIp) then
    some "mapping conflict: edge_private_ip already has port forwards"
  else if new.mode = "port_forward_snat" ∧ new.publicIp.isSome ∧ rows.any (fun row =>
      row.enabledIn "one_to_one_snat" && new.samePublicIp row) then
    some "mapping conflict: public_ip already used by one-to-one"
  else if new.mode = "one_to_one_snat" ∧ new.publicIp.isSome ∧ rows.any (fun row =>
      row.enabled == 1 && new.samePublicIp row) then
    some "mapping conflict: public_ip already used"
  else none

/-- `mappings_reject_conflict_insert`. -/
def rejectConflictInsert (rows : List Row) (new : Row) : Option String := raiseConflict rows new

/-- `mappings_reject_conflict_update`: the subqueries say `id <> NEW.id`. -/
def rejectConflictUpdate (rows : List Row) (new : Row) : Option String :=
  raiseConflict (rows.filter fun row => row.id ≠ new.id) new

def mappingsSchema : Sql.Schema Row where
  key := Row.id
  keyMessage := "UNIQUE constraint failed: mappings.id"
  indexes := [portForwardTupleIdx, oneToOneTargetIpIdx, oneToOnePublicIpIdx, oneToOneEdgePrivateIpIdx]
  onInsert := rejectConflictInsert
  onUpdate := rejectConflictUpdate

/-! ## Enumerations -/

/-- The `snake_case` names serde gives the variants. -/
def Protocol.names : List (String × Protocol) := [("all", .all), ("tcp", .tcp), ("udp", .udp)]

def MappingMode.names : List (String × MappingMode) :=
  [("one_to_one_snat", .oneToOneSnat), ("port_forward_snat", .portForwardSnat)]

def MappingBackend.names : List (String × MappingBackend) :=
  [("nft", .nft), ("xdp", .xdp), ("proxy", .proxy)]

def MappingStatus.names : List (String × MappingStatus) :=
  [("pending", .pending), ("active", .active), ("disabled", .disabled), ("degraded", .degraded),
    ("error", .error)]

/-- `enum_string`: the name of a variant. -/
def enumString {α : Type} [DecidableEq α] (names : List (String × α)) (value : α) :
    Except EdgeCoreError String :=
  match names.find? fun p => p.2 = value with
  | some p => .ok p.1
  | none => .error (.store "enum did not encode as string")

/-- The variants serde lists in its error. -/
def expectedVariants : List String → String
  | [] => "there are no variants"
  | [a] => "expected `" ++ a ++ "`"
  | [a, b] => "expected `" ++ a ++ "` or `" ++ b ++ "`"
  | names => "expected one of " ++ ", ".intercalate (names.map fun n => "`" ++ n ++ "`")

/-- `enum_from_string`. -/
def enumFromString {α : Type} (names : List (String × α)) (value : String) : Except EdgeCoreError α :=
  match names.find? fun p => p.1 = value with
  | some p => .ok p.2
  | none => .error (.store ("decode enum: unknown variant `" ++ value ++ "`, " ++
      expectedVariants (names.map (·.1))))

/-! ## Decoding -/

def decodePort (value : Option ℤ) (column : String) : Except EdgeCoreError (Option UInt16) :=
  match value with
  | some port =>
    if 1 ≤ port ∧ port ≤ 65535 then .ok (some (.ofNat port.toNat))
    else .error (.store ("invalid " ++ column ++ " in database: " ++ port.repr))
  | none => .ok none

def parseIp (value : String) : Except EdgeCoreError Ipv4Addr :=
  match Ipv4Addr.parse value.toList with
  | some ip => .ok ip
  | none => .error (.store ("decode IPv4 address " ++ value ++ ": invalid IPv4 address syntax"))

/-- `value.map(f).transpose()`. -/
def transposeMap {α β ε : Type} (f : α → Except ε β) : Option α → Except ε (Option β)
  | some a => (f a).map some
  | none => .ok none

namespace Codec

variable (C : Codec)

def formatTime (value : OffsetDateTime) : Except EdgeCoreError String :=
  (C.formatRfc3339 value).mapError fun e => .store ("format time: " ++ e)

def parseTime (value : String) : Except EdgeCoreError OffsetDateTime :=
  (C.parseRfc3339 value).mapError fun e => .store ("parse time " ++ value ++ ": " ++ e)

/-- `row_to_mapping`. -/
def rowToMapping (row : Row) : Except EdgeCoreError Mapping := do
  let publicPort ← decodePort row.publicPort "public_port"
  let targetPort ← decodePort row.targetPort "target_port"
  let id ← MappingId.fromStr row.id
  let publicIp ← transposeMap parseIp row.publicIp
  let edgePrivateIp ← parseIp row.edgePrivateIp
  let targetIp ← parseIp row.targetIp
  let protocol ← enumFromString Protocol.names row.protocol
  let mode ← enumFromString MappingMode.names row.mode
  let backend ← enumFromString MappingBackend.names row.backend
  let status ← enumFromString MappingStatus.names row.status
  let lastCheckedAt ← transposeMap C.parseTime row.lastCheckedAt
  let createdAt ← C.parseTime row.createdAt
  let updatedAt ← C.parseTime row.updatedAt
  .ok { id, name := row.name, publicIp, ociPublicIpOcid := row.ociPublicIpOcid, edgePrivateIp,
        ociPrivateIpOcid := row.ociPrivateIpOcid, targetIp, publicPort, targetPort, protocol, mode,
        backend, enabled := row.enabled != 0, status, lastError := row.lastError,
        healthStatus := row.healthStatus, lastCheckedAt, createdAt, updatedAt }

/-- The `bind` list of a mapping, with the time columns as given. -/
def bindMapping (mapping : Mapping) (lastCheckedAt : Option String) (createdAt updatedAt : String) :
    Except EdgeCoreError Row := do
  let protocol ← enumString Protocol.names mapping.protocol
  let mode ← enumString MappingMode.names mapping.mode
  let backend ← enumString MappingBackend.names mapping.backend
  let status ← enumString MappingStatus.names mapping.status
  .ok { id := mapping.id.val, name := mapping.name, publicIp := mapping.publicIp.map Ipv4Addr.toText,
        ociPublicIpOcid := mapping.ociPublicIpOcid, edgePrivateIp := mapping.edgePrivateIp.toText,
        ociPrivateIpOcid := mapping.ociPrivateIpOcid, targetIp := mapping.targetIp.toText,
        publicPort := mapping.publicPort.map (·.toNat), targetPort := mapping.targetPort.map (·.toNat),
        protocol, mode, backend, enabled := if mapping.enabled then 1 else 0, status,
        lastError := mapping.lastError, healthStatus := mapping.healthStatus, lastCheckedAt,
        createdAt, updatedAt }

/-- The values of the INSERT of `insert_mapping`. -/
def insertRow (mapping : Mapping) : Except EdgeCoreError Row := do
  let lastCheckedAt ← transposeMap C.formatTime mapping.lastCheckedAt
  let createdAt ← C.formatTime mapping.createdAt
  let updatedAt ← C.formatTime mapping.updatedAt
  bindMapping mapping lastCheckedAt createdAt updatedAt

/-- The values of the UPDATE of `update_mapping`, whose SET list leaves `created_at` out. -/
def updateRow (mapping : Mapping) : Except EdgeCoreError Row := do
  let lastCheckedAt ← transposeMap C.formatTime mapping.lastCheckedAt
  let updatedAt ← C.formatTime mapping.updatedAt
  bindMapping mapping lastCheckedAt "" updatedAt

end Codec

/-- `ORDER BY created_at, id`. -/
def Row.Before (row row' : Row) : Prop :=
  row.createdAt < row'.createdAt ∨ (row.createdAt = row'.createdAt ∧ row.id ≤ row'.id)

instance : DecidableRel Row.Before := fun _ _ => inferInstanceAs (Decidable (_ ∨ _))

end EdgeRoute

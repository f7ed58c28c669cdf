import Remanence.Foundation.Checked
import Remanence.Ciborium
import Remanence.Foundation.Cbor
import Remanence.Foundation.OrderedMap
import Remanence.Hashing
import Mathlib.Data.List.Sort

/-!
# Audit records

Records of the hash-chained audit log and their CBOR values, as in `audit.rs` of the state
crate. The CBOR library, the calendar functions of the time library and the UUID text form are
services.
-/

namespace Remanence.Audit

open Remanence.Foundation List

inductive StateError where
  | io (context : String)
  | ioAt (context path : String)
  | configInvalid (message : String)
  | auditCorrupt (message : String)
  | auditWriteFailed (message : String)
deriving Repr, DecidableEq

abbrev Uuid := FixedBytes 16

/-- A UTC instant in nanoseconds since the Unix epoch. -/
abbrev Timestamp := Int

/-- Third-party functions and build constants of the log. -/
structure Services where
  hash : HashFunctions
  intoWriter : CborValue → Except String Bytes
  fromReader : Bytes → Except String CborValue
  formatRfc3339 : Timestamp → Except String String
  parseRfc3339 : String → Except String Timestamp
  utcDate : Timestamp → Int×ℕ×ℕ
  uuidText : Uuid → String
  parseUuid : String → Except String Uuid
  softwareBuild : String

def isWhitespace (c : Char) : Bool :=
  (9 ≤ c.toNat ∧ c.toNat ≤ 13) ∨ c.toNat=0x20 ∨ c.toNat=0x85 ∨ c.toNat=0xA0 ∨ c.toNat=0x1680 ∨
    (0x2000 ≤ c.toNat ∧ c.toNat ≤ 0x200A) ∨ c.toNat=0x2028 ∨ c.toNat=0x2029 ∨ c.toNat=0x202F ∨
      c.toNat=0x205F ∨ c.toNat=0x3000

def isBlank (text : String) : Bool := text.toList.all isWhitespace

structure Services.Lawful (services : Services) : Prop where
  timestamp : ∀ t text, services.formatRfc3339 t=.ok text → services.parseRfc3339 text=.ok t
  build : isBlank services.softwareBuild=false

inductive AuditActor where
  | system
  | user (id : String)
  | service (id : String)
deriving Repr, DecidableEq

inductive SourceLayer where
  | layer2
  | layer3b
  | layer3c
  | layer4
  | layer5
deriving Repr, DecidableEq

inductive AuditEvent where
  | requestReceived
  | operationStarted
  | operationProgress
  | operationFinished
  | operationFailed
  | cancelRequested
  | cancelledBeforeDispatch
  | completedAfterCancel
  | cancellationRejected
  | completionUnknown
  | sessionOpened
  | sessionCheckpointed
  | sessionClosed
  | sessionOrphaned
  | sessionLostByRestart
  | clockRegressionObserved
  | clockForwardJumpObserved
  | hardwareWarning
  | recoveryEvent
  | configLoaded
  | configRejected
  | indexRebuilt
  | readOnlyModeEntered
  | readOnlyModeLeft
  | auditWriteFailed
  | tapeRetired
  | tapeProvisioned
  | tapeIdentityAdopted
  | tapePoolAssigned
  | tapeLabelRebound
  | tapeGenerationChanged
  | tapeSealed
  | driveRetired
  | driveReinstated
  | driveAnnotated
  | driveCleaned
  | cleaningCartridgeExpired
  | cleaningCartridgeRegistered
  | driveFenced
  | driveUnfenced
  | alarmAcked
  | alarmRaised
  | alarmCleared
  | tapeIoFenceRaised
  | tapeIoFenceReleased
  | driveHealthObserved
deriving Repr, DecidableEq

structure AuditSubject where
  /-- Subject kind, such as `tape`, `operation`, or `library`. -/
  kind : String
  id : Option String
deriving Repr, DecidableEq

structure Detail where
  entries : List (String×CborValue)
  ascending : entries.Pairwise fun a b => a.1 < b.1

/-- Caller-supplied fields for a new audit append. -/
structure AuditEventRecord where
  actor : AuditActor
  sourceLayer : SourceLayer
  operationId : Option Uuid
  sessionId : Option Uuid
  idempotencyKey : Option Uuid
  event : AuditEvent
  subject : AuditSubject
  detail : Detail

structure AuditRecord where
  schemaVersion : UInt16
  recordUuid : Uuid
  sequence : UInt64
  timestampUtc : String
  hostId : String
  processId : UInt32
  /-- Producing build, absent in records from before the field. -/
  softwareBuild : Option String
  actor : AuditActor
  sourceLayer : SourceLayer
  operationId : Option Uuid
  sessionId : Option Uuid
  idempotencyKey : Option Uuid
  event : AuditEvent
  subject : AuditSubject
  detail : Detail

def SourceLayer.asStr : SourceLayer → String
  | layer2 => "layer2"
  | layer3b => "layer3b"
  | layer3c => "layer3c"
  | layer4 => "layer4"
  | layer5 => "layer5"

def SourceLayer.parse (value : String) : Except StateError SourceLayer :=
  match value with
  | "layer2" => .ok .layer2
  | "layer3b" => .ok .layer3b
  | "layer3c" => .ok .layer3c
  | "layer4" => .ok .layer4
  | "layer5" => .ok .layer5
  | _ => .error (.auditCorrupt s!"unknown source layer {value}")

def AuditEvent.asStr : AuditEvent → String
  | requestReceived => "RequestReceived"
  | operationStarted => "OperationStarted"
  | operationProgress => "OperationProgress"
  | operationFinished => "OperationFinished"
  | operationFailed => "OperationFailed"
  | cancelRequested => "CancelRequested"
  | cancelledBeforeDispatch => "CancelledBeforeDispatch"
  | completedAfterCancel => "CompletedAfterCancel"
  | cancellationRejected => "CancellationRejected"
  | completionUnknown => "CompletionUnknown"
  | sessionOpened => "SessionOpened"
  | sessionCheckpointed => "SessionCheckpointed"
  | sessionClosed => "SessionClosed"
  | sessionOrphaned => "SessionOrphaned"
  | sessionLostByRestart => "SessionLostByRestart"
  | clockRegressionObserved => "ClockRegressionObserved"
  | clockForwardJumpObserved => "ClockForwardJumpObserved"
  | hardwareWarning => "HardwareWarning"
  | recoveryEvent => "RecoveryEvent"
  | configLoaded => "ConfigLoaded"
  | configRejected => "ConfigRejected"
  | indexRebuilt => "IndexRebuilt"
  | readOnlyModeEntered => "ReadOnlyModeEntered"
  | readOnlyModeLeft => "ReadOnlyModeLeft"
  | auditWriteFailed => "AuditWriteFailed"
  | tapeRetired => "TapeRetired"
  | tapeProvisioned => "TapeProvisioned"
  | tapeIdentityAdopted => "TapeIdentityAdopted"
  | tapePoolAssigned => "TapePoolAssigned"
  | tapeLabelRebound => "TapeLabelRebound"
  | tapeGenerationChanged => "TapeGenerationChanged"
  | tapeSealed => "TapeSealed"
  | driveRetired => "DriveRetired"
  | driveReinstated => "DriveReinstated"
  | driveAnnotated => "DriveAnnotated"
  | driveCleaned => "DriveCleaned"
  | cleaningCartridgeExpired => "CleaningCartridgeExpired"
  | cleaningCartridgeRegistered => "CleaningCartridgeRegistered"
  | driveFenced => "DriveFenced"
  | driveUnfenced => "DriveUnfenced"
  | alarmAcked => "AlarmAcked"
  | alarmRaised => "AlarmRaised"
  | alarmCleared => "AlarmCleared"
  | tapeIoFenceRaised => "TapeIoFenceRaised"
  | tapeIoFenceReleased => "TapeIoFenceReleased"
  | driveHealthObserved => "DriveHealthObserved"

def AuditEvent.parse (value : String) : Except StateError AuditEvent :=
  match value with
  | "RequestReceived" => .ok .requestReceived
  | "OperationStarted" => .ok .operationStarted
  | "OperationProgress" => .ok .operationProgress
  | "OperationFinished" => .ok .operationFinished
  | "OperationFailed" => .ok .operationFailed
  | "CancelRequested" => .ok .cancelRequested
  | "CancelledBeforeDispatch" => .ok .cancelledBeforeDispatch
  | "CompletedAfterCancel" => .ok .completedAfterCancel
  | "CancellationRejected" => .ok .cancellationRejected
  | "CompletionUnknown" => .ok .completionUnknown
  | "SessionOpened" => .ok .sessionOpened
  | "SessionCheckpointed" => .ok .sessionCheckpointed
  | "SessionClosed" => .ok .sessionClosed
  | "SessionOrphaned" => .ok .sessionOrphaned
  | "SessionLostByRestart" => .ok .sessionLostByRestart
  | "ClockRegressionObserved" => .ok .clockRegressionObserved
  | "ClockForwardJumpObserved" => .ok .clockForwardJumpObserved
  | "HardwareWarning" => .ok .hardwareWarning
  | "RecoveryEvent" => .ok .recoveryEvent
  | "ConfigLoaded" => .ok .configLoaded
  | "ConfigRejected" => .ok .configRejected
  | "IndexRebuilt" => .ok .indexRebuilt
  | "ReadOnlyModeEntered" => .ok .readOnlyModeEntered
  | "ReadOnlyModeLeft" => .ok .readOnlyModeLeft
  | "AuditWriteFailed" => .ok .auditWriteFailed
  | "TapeRetired" => .ok .tapeRetired
  | "TapeProvisioned" => .ok .tapeProvisioned
  | "TapeIdentityAdopted" => .ok .tapeIdentityAdopted
  | "TapePoolAssigned" => .ok .tapePoolAssigned
  | "TapeLabelRebound" => .ok .tapeLabelRebound
  | "TapeGenerationChanged" => .ok .tapeGenerationChanged
  | "TapeSealed" => .ok .tapeSealed
  | "DriveRetired" => .ok .driveRetired
  | "DriveReinstated" => .ok .driveReinstated
  | "DriveAnnotated" => .ok .driveAnnotated
  | "DriveCleaned" => .ok .driveCleaned
  | "CleaningCartridgeExpired" => .ok .cleaningCartridgeExpired
  | "CleaningCartridgeRegistered" => .ok .cleaningCartridgeRegistered
  | "DriveFenced" => .ok .driveFenced
  | "DriveUnfenced" => .ok .driveUnfenced
  | "AlarmAcked" => .ok .alarmAcked
  | "AlarmRaised" => .ok .alarmRaised
  | "AlarmCleared" => .ok .alarmCleared
  | "TapeIoFenceRaised" => .ok .tapeIoFenceRaised
  | "TapeIoFenceReleased" => .ok .tapeIoFenceReleased
  | "DriveHealthObserved" => .ok .driveHealthObserved
  | _ => .error (.auditCorrupt s!"unknown audit event {value}")

theorem SourceLayer.parse_asStr (layer : SourceLayer) : parse layer.asStr=.ok layer := by
  cases layer <;> rfl

theorem AuditEvent.parse_asStr (event : AuditEvent) : parse event.asStr=.ok event := by
  cases event <;> rfl

namespace Detail

def empty : Detail := ⟨[],List.Pairwise.nil⟩

def insert (detail : Detail) (key : String) (value : CborValue) : Detail :=
  ⟨insertEntry key value detail.entries,insertEntry_ascending detail.ascending⟩

end Detail

def validateDetailKey (key : String) : Except String Unit := do
  rejectIf (key="") "empty key"
  rejectIf (key.toList.any (fun c => 128 ≤ c.toNat) ∨
      key.toList.any (fun c => c.toNat < 0x20 ∨ c.toNat=0x7F))
    ("key "++key.quote++" must be printable ASCII for canonical audit encoding")

def validateDetailKeys (detail : Detail) : Except StateError Unit :=
  detail.entries.forM fun (key,_) => (validateDetailKey key).mapError StateError.auditWriteFailed

def textKey : CborValue → String
  | .text text => text
  | _ => ""

/-- Entries in the byte order of their keys, which is the order of texts. -/
def sortedByKey (entries : List (CborValue×CborValue)) : List (CborValue×CborValue) :=
  entries.insertionSort fun left right => textKey left.1 ≤ textKey right.1

def sortedMap (entries : List (String×CborValue)) : CborValue :=
  .map (sortedByKey (entries.map fun (key,value) => (.text key,value)))

def stringValueMap (detail : Detail) : CborValue := sortedMap detail.entries

def optUuidToCbor (services : Services) : Option Uuid → CborValue
  | some uuid => .text (services.uuidText uuid)
  | none => .null

def optionalTextToCbor : Option String → CborValue
  | some text => .text text
  | none => .null

def actorToCbor : AuditActor → CborValue
  | .system => sortedMap [("kind",.text "system")]
  | .user id => sortedMap [("id",.text id),("kind",.text "user")]
  | .service id => sortedMap [("id",.text id),("kind",.text "service")]

def subjectToCbor (subject : AuditSubject) : CborValue :=
  sortedMap [("id",optionalTextToCbor subject.id),("kind",.text subject.kind)]

def recordEntries (services : Services) (record : AuditRecord) : List (String×CborValue) := [
    ("actor",actorToCbor record.actor),
    ("detail",stringValueMap record.detail),
    ("event",.text record.event.asStr),
    ("host_id",.text record.hostId),
    ("idempotency_key",optUuidToCbor services record.idempotencyKey),
    ("operation_id",optUuidToCbor services record.operationId),
    ("process_id",.integer record.processId.toNat),
    ("record_uuid",.text (services.uuidText record.recordUuid)),
    ("schema_version",.integer record.schemaVersion.toNat),
    ("sequence",.integer record.sequence.toNat),
    ("session_id",optUuidToCbor services record.sessionId),
    ("source_layer",.text record.sourceLayer.asStr),
    ("subject",subjectToCbor record.subject),
    ("timestamp_utc",.text record.timestampUtc)]++ match record.softwareBuild with
      | some build => [("software_build",.text build)]
      | none => []

def recordToCbor (services : Services) (record : AuditRecord) : CborValue :=
  sortedMap (recordEntries services record)

def canonicalRecordCbor (services : Services) (record : AuditRecord) : Except StateError Bytes :=
  (services.intoWriter (recordToCbor services record)).mapError StateError.auditWriteFailed

def valueMap (value : CborValue) (context : String) :
    Except StateError (List (CborValue×CborValue)) :=
  match value with
  | .map entries => .ok entries
  | _ => .error (.auditCorrupt s!"{context} is not a cbor map")

def findValue (fields : List (CborValue×CborValue)) (key : String) : Option CborValue :=
  fields.findSome? fun (candidate,value) =>
    match candidate with
    | .text text => if text=key then some value else none
    | _ => none

def requiredValue (fields : List (CborValue×CborValue)) (key : String) :
    Except StateError CborValue :=
  orElseError (findValue fields key) (.auditCorrupt s!"missing audit field {key}")

def requiredText (fields : List (CborValue×CborValue)) (key : String) :
    Except StateError String := do
  match ← requiredValue fields key with
  | .text text => return text
  | _ => throw (.auditCorrupt s!"audit field {key} is not text")

def optionalText (fields : List (CborValue×CborValue)) (key : String) :
    Except StateError (Option String) := do
  match ← requiredValue fields key with
  | .null => return none
  | .text text => return some text
  | _ => throw (.auditCorrupt s!"audit field {key} is not optional text")

def optionalTextIfPresent (fields : List (CborValue×CborValue)) (key : String) :
    Except StateError (Option String) :=
  match findValue fields key with
  | none => .ok none
  | some .null => .ok none
  | some (.text text) =>
    if isBlank text then .error (.auditCorrupt "audit field software_build is empty")
    else .ok (some text)
  | some _ => .error (.auditCorrupt s!"audit field {key} is not optional text")

def requiredU64 (fields : List (CborValue×CborValue)) (key : String) :
    Except StateError UInt64 := do
  match ← requiredValue fields key with
  | .integer value =>
    rejectIf (value < 0 ∨ 2^64 ≤ value) (.auditCorrupt s!"audit field {key} out of u64 range")
    return .ofNat value.toNat
  | _ => throw (.auditCorrupt s!"audit field {key} is not integer")

def parseUuidField (services : Services) (key text : String) : Except StateError Uuid :=
  (services.parseUuid text).mapError fun err =>
    .auditCorrupt s!"audit field {key} bad uuid: {err}"

def requiredUuid (services : Services) (fields : List (CborValue×CborValue)) (key : String) :
    Except StateError Uuid := do
  parseUuidField services key (← requiredText fields key)

def optionalUuid (services : Services) (fields : List (CborValue×CborValue)) (key : String) :
    Except StateError (Option Uuid) := do
  match ← requiredValue fields key with
  | .null => return none
  | .text text => return some (← parseUuidField services key text)
  | _ => throw (.auditCorrupt s!"audit field {key} is not optional uuid")

def actorFromCbor (value : CborValue) : Except StateError AuditActor := do
  let fields ← valueMap value "actor"
  let kind ← requiredText fields "kind"
  if kind="system" then return .system
  else if kind="user" then return .user (← requiredText fields "id")
  else if kind="service" then return .service (← requiredText fields "id")
  else throw (.auditCorrupt s!"unknown audit actor kind {kind}")

def subjectFromCbor (value : CborValue) : Except StateError AuditSubject := do
  let fields ← valueMap value "subject"
  let kind ← requiredText fields "kind"
  let id ← optionalText fields "id"
  return ⟨kind,id⟩

def insertStored (detail : Detail) (entry : CborValue×CborValue) : Except StateError Detail :=
  match entry.1 with
  | .text key => do
    (validateDetailKey key).mapError fun err => StateError.auditCorrupt s!"audit detail key: {err}"
    return detail.insert key entry.2
  | _ => .error (.auditCorrupt "audit map contains non-text key")

def stringValueMapFromCbor (value : CborValue) : Except StateError Detail := do
  (← valueMap value "string map").foldlM insertStored Detail.empty

def parseTimestampUtc (services : Services) (text : String) : Except StateError Timestamp :=
  (services.parseRfc3339 text).mapError fun err =>
    .auditCorrupt s!"audit timestamp is not RFC3339 UTC: {err}"

def formatTimestampUtc (services : Services) (timestamp : Timestamp) : Except StateError String :=
  (services.formatRfc3339 timestamp).mapError .auditWriteFailed

def recordFromCbor (services : Services) (value : CborValue) : Except StateError AuditRecord := do
  let fields ← valueMap value "audit record"
  let timestampUtc ← requiredText fields "timestamp_utc"
  let _ ← parseTimestampUtc services timestampUtc
  let schemaVersion ← requiredU64 fields "schema_version"
  rejectIf (2^16 ≤ schemaVersion.toNat) (.auditCorrupt "schema_version out of range")
  let recordUuid ← requiredUuid services fields "record_uuid"
  let sequence ← requiredU64 fields "sequence"
  let hostId ← requiredText fields "host_id"
  let processId ← requiredU64 fields "process_id"
  rejectIf (2^32 ≤ processId.toNat) (.auditCorrupt "process_id out of range")
  let softwareBuild ← optionalTextIfPresent fields "software_build"
  let actor ← actorFromCbor (← requiredValue fields "actor")
  let sourceLayer ← SourceLayer.parse (← requiredText fields "source_layer")
  let operationId ← optionalUuid services fields "operation_id"
  let sessionId ← optionalUuid services fields "session_id"
  let idempotencyKey ← optionalUuid services fields "idempotency_key"
  let event ← AuditEvent.parse (← requiredText fields "event")
  let subject ← subjectFromCbor (← requiredValue fields "subject")
  let detail ← stringValueMapFromCbor (← requiredValue fields "detail")
  return { schemaVersion := schemaVersion.toUInt16,recordUuid,sequence,timestampUtc,hostId
           processId := processId.toUInt32,softwareBuild,actor,sourceLayer,operationId,sessionId
           idempotencyKey,event,subject,detail }

def decodeRecordCbor (services : Services) (payload : Bytes) : Except StateError AuditRecord := do
  let value ← (services.fromReader payload).mapError fun err =>
    .auditCorrupt s!"decode audit record cbor: {err}"
  recordFromCbor services value

def HasField (fields : List (CborValue×CborValue)) (key : String) (value : CborValue) : Prop :=
  ∀ v, (.text key,v) ∈ fields ↔ v=value

variable {fields : List (CborValue×CborValue)} {key : String} {value : CborValue}

theorem mem_of_findValue (h : findValue fields key=some value) : (.text key,value) ∈ fields := by
  obtain ⟨⟨candidate,v⟩,hmem,hfound⟩ := exists_of_findSome?_eq_some h
  cases candidate with
  | text text =>
    simp only [Option.ite_none_right_eq_some,Option.some.injEq] at hfound
    obtain ⟨rfl,rfl⟩ := hfound
    exact hmem
  | _ => cases hfound

theorem findValue_ne_none (h : (.text key,value) ∈ fields) : findValue fields key≠none := by
  intro hnone
  have hentry := findSome?_eq_none_iff.mp hnone _ h
  simp at hentry

theorem HasField.findValue_eq (h : HasField fields key value) :
    findValue fields key=some value := by
  cases hfound : findValue fields key with
  | none => exact absurd hfound (findValue_ne_none ((h value).mpr rfl))
  | some v => rw [(h v).mp (mem_of_findValue hfound)]

theorem HasField.requiredValue_eq (h : HasField fields key value) :
    requiredValue fields key=.ok value := by
  rw [requiredValue,h.findValue_eq,orElseError_some]

theorem HasField.requiredText_eq {text : String} (h : HasField fields key (.text text)) :
    requiredText fields key=.ok text := by
  rw [requiredText,h.requiredValue_eq]
  rfl

theorem HasField.requiredU64_eq {n : ℕ} (h : HasField fields key (.integer n)) (hn : n < 2^64) :
    requiredU64 fields key=.ok (UInt64.ofNat n) := by
  have hrange : ¬((n : Int) < 0 ∨ 2^64 ≤ (n : Int)) := by omega
  simp only [requiredU64,h.requiredValue_eq,ok_bind,rejectIf_pos hrange]
  rfl

variable {services : Services}

theorem HasField.optionalUuid_eq {uuid : Option Uuid}
    (huuid : ∀ u, uuid=some u → services.parseUuid (services.uuidText u)=.ok u)
    (h : HasField fields key (optUuidToCbor services uuid)) :
    optionalUuid services fields key=.ok uuid := by
  rw [optionalUuid,h.requiredValue_eq]
  cases uuid with
  | none => rfl
  | some uuid =>
    simp only [optUuidToCbor,ok_bind,parseUuidField,huuid uuid rfl]
    rfl

theorem HasField.optionalText_eq {text : Option String}
    (h : HasField fields key (optionalTextToCbor text)) : optionalText fields key=.ok text := by
  rw [optionalText,h.requiredValue_eq]
  cases text <;> rfl

def fieldsOf (entries : List (String×CborValue)) : List (CborValue×CborValue) :=
  sortedByKey (entries.map fun (key,value) => (.text key,value))

theorem valueMap_sortedMap (entries : List (String×CborValue)) (context : String) :
    valueMap (sortedMap entries) context=.ok (fieldsOf entries) := rfl

variable {entries : List (String×CborValue)}

theorem hasField_fieldsOf (hkeys : (entries.map Prod.fst).Nodup) {i : ℕ}
    (h : entries[i]?=some (key,value)) : HasField (fieldsOf entries) key value := by
  intro v
  rw [fieldsOf,sortedByKey,mem_insertionSort]
  have hmem : (CborValue.text key,v) ∈ entries.map (fun (key,value) => (CborValue.text key,value)) ↔
      (key,v) ∈ entries := by simp
  rw [hmem]
  constructor
  · intro hv
    exact congrArg Prod.snd (inj_on_of_nodup_map hkeys hv (mem_of_getElem? h) rfl)
  · rintro rfl
    exact mem_of_getElem? h

theorem actorFromCbor_actorToCbor (actor : AuditActor) :
    actorFromCbor (actorToCbor actor)=.ok actor := by
  have hsystem : HasField (fieldsOf [("kind",.text "system")]) "kind" (.text "system") :=
    @hasField_fieldsOf _ _ _ (by simp) 0 rfl
  have hid (id kind : String) : HasField (fieldsOf [("id",.text id),("kind",.text kind)]) "id"
      (.text id) := @hasField_fieldsOf _ _ _ (by simp) 0 rfl
  have hkind (id kind : String) : HasField (fieldsOf [("id",.text id),("kind",.text kind)]) "kind"
      (.text kind) := @hasField_fieldsOf _ _ _ (by simp) 1 rfl
  cases actor <;> simp only [actorToCbor,actorFromCbor,valueMap_sortedMap,ok_bind,
    hsystem.requiredText_eq,(hkind _ _).requiredText_eq,(hid _ _).requiredText_eq] <;> rfl

theorem subjectFromCbor_subjectToCbor (subject : AuditSubject) :
    subjectFromCbor (subjectToCbor subject)=.ok subject := by
  have hfield {key : String} {value : CborValue} (i : ℕ) :=
    @hasField_fieldsOf key value [("id",optionalTextToCbor subject.id),("kind",.text subject.kind)]
      (by simp) i
  simp only [subjectToCbor,subjectFromCbor,valueMap_sortedMap,ok_bind,
    (hfield 1 rfl).requiredText_eq,(hfield 0 rfl).optionalText_eq]
  rfl

theorem fieldsOf_ascending (h : entries.Pairwise fun a b => a.1 < b.1) :
    fieldsOf entries=entries.map fun (key,value) => (CborValue.text key,value) := by
  refine List.Pairwise.insertionSort_eq ?_
  rw [pairwise_map]
  exact h.imp fun hlt => hlt.le

theorem foldlM_insertStored (hkeys : ∀ entry ∈ entries, validateDetailKey entry.1=.ok ())
    (detail : Detail) (hsorted : (detail.entries++entries).Pairwise fun a b => a.1 < b.1) :
    ∃ result : Detail, (entries.map fun (key,value) => (CborValue.text key,value)).foldlM
      insertStored detail=.ok result ∧ result.entries=detail.entries++entries := by
  induction entries generalizing detail with
  | nil => exact ⟨detail,rfl,by simp⟩
  | cons head rest ih =>
    obtain ⟨key,value⟩ := head
    have hlast : ∀ entry ∈ detail.entries, entry.1 < key := fun entry hentry =>
      (pairwise_append.mp hsorted).2.2 entry hentry (key,value) mem_cons_self
    have hinsert : (detail.insert key value).entries=detail.entries++[(key,value)] :=
      insertEntry_of_forall_lt hlast
    obtain ⟨result,hfold,hresult⟩ := ih
      (fun entry hentry => hkeys entry (mem_cons_of_mem _ hentry)) (detail.insert key value)
      (by rw [hinsert,append_assoc]; exact hsorted)
    have hkey := hkeys (key,value) mem_cons_self
    have hstep : insertStored detail (.text key,value)=.ok (detail.insert key value) := by
      simp only [insertStored,hkey]
      rfl
    refine ⟨result,?_,by rw [hresult,hinsert,append_assoc]; rfl⟩
    rw [map_cons,foldlM_cons,hstep,ok_bind,hfold]

theorem validateDetailKeys_eq_ok {detail : Detail} (h : validateDetailKeys detail=.ok ()) :
    ∀ entry ∈ detail.entries, validateDetailKey entry.1=.ok () := by
  intro entry hentry
  exact mapError_eq_ok.mp (forM_eq_ok.mp h entry hentry)

theorem stringValueMapFromCbor_stringValueMap {detail : Detail}
    (h : validateDetailKeys detail=.ok ()) :
    stringValueMapFromCbor (stringValueMap detail)=.ok detail := by
  obtain ⟨result,hfold,hresult⟩ := foldlM_insertStored (validateDetailKeys_eq_ok h) Detail.empty
    detail.ascending
  obtain ⟨entries,hascending⟩ := result
  obtain rfl : entries=detail.entries := hresult
  rw [stringValueMapFromCbor,stringValueMap,valueMap_sortedMap,ok_bind,
    fieldsOf_ascending detail.ascending,hfold]

structure AuditRecord.Written (services : Services) (record : AuditRecord) : Prop where
  timestamp : ∃ t, services.parseRfc3339 record.timestampUtc=.ok t
  build : record.softwareBuild=some services.softwareBuild
  keys : validateDetailKeys record.detail=.ok ()

def AuditRecord.uuids (record : AuditRecord) : List Uuid :=
  record.recordUuid::(record.operationId.toList++record.sessionId.toList++
    record.idempotencyKey.toList)

structure ReadBack (services : Services) (record : AuditRecord) : Prop where
  cbor : ∀ payload, services.intoWriter (recordToCbor services record)=.ok payload →
    services.fromReader payload=.ok (recordToCbor services record)
  uuid : ∀ u ∈ record.uuids, services.parseUuid (services.uuidText u)=.ok u

theorem recordFromCbor_recordToCbor (hlaw : services.Lawful) {record : AuditRecord}
    (hwritten : record.Written services) (hread : ReadBack services record) :
    recordFromCbor services (recordToCbor services record)=.ok record := by
  obtain ⟨⟨t,htime⟩,hbuild,hkeys⟩ := hwritten
  have huuids := hread.uuid
  simp only [AuditRecord.uuids,mem_cons,mem_append,Option.mem_toList, or_imp,forall_and] at huuids
  obtain ⟨hparse,⟨hparseOperation,hparseSession⟩,hparseIdempotency⟩ := huuids
  have hkeys' : ((recordEntries services record).map Prod.fst).Nodup := by
    simp [recordEntries,hbuild]
  have hfield {key : String} {value : CborValue} (i : ℕ) :=
    @hasField_fieldsOf key value (recordEntries services record) hkeys' i
  have hactor := (hfield 0 rfl).requiredValue_eq
  have hdetail := (hfield 1 rfl).requiredValue_eq
  have hevent := (hfield 2 rfl).requiredText_eq
  have hhost := (hfield 3 rfl).requiredText_eq
  have hidempotency := (hfield 4 rfl).optionalUuid_eq hparseIdempotency
  have hoperation := (hfield 5 rfl).optionalUuid_eq hparseOperation
  have hprocess := (hfield 6 rfl).requiredU64_eq (by have := record.processId.toNat_lt; omega)
  have huuid := (hfield 7 rfl).requiredText_eq
  have hschema := (hfield 8 rfl).requiredU64_eq (by have := record.schemaVersion.toNat_lt; omega)
  have hsequence := (hfield 9 rfl).requiredU64_eq record.sequence.toNat_lt
  have hsession := (hfield 10 rfl).optionalUuid_eq hparseSession
  have hlayer := (hfield 11 rfl).requiredText_eq
  have hsubject := (hfield 12 rfl).requiredValue_eq
  have htimestamp := (hfield 13 rfl).requiredText_eq
  have hstamp := (hfield 14 (by rw [recordEntries,hbuild]; rfl)).findValue_eq
  have hversion : ¬2^16 ≤ (UInt64.ofNat record.schemaVersion.toNat).toNat := by
    have := record.schemaVersion.toNat_lt
    simp
    omega
  have hpid : ¬2^32 ≤ (UInt64.ofNat record.processId.toNat).toNat := by
    have := record.processId.toNat_lt
    simp
    omega
  simp only [recordFromCbor,recordToCbor,valueMap_sortedMap,ok_bind,htimestamp,parseTimestampUtc,
    htime,hschema,rejectIf_pos hversion,requiredUuid,huuid,parseUuidField,hparse,hsequence,hhost,
    hprocess,rejectIf_pos hpid,optionalTextIfPresent,hstamp,hlaw.build,hactor,
    actorFromCbor_actorToCbor,hlayer,SourceLayer.parse_asStr,hoperation,hsession,hidempotency,
    hevent,AuditEvent.parse_asStr,hsubject,subjectFromCbor_subjectToCbor,hdetail,
    stringValueMapFromCbor_stringValueMap hkeys,Except.mapError]
  obtain ⟨schemaVersion,recordUuid,sequence,timestampUtc,hostId,processId,softwareBuild,actor,
    sourceLayer,operationId,sessionId,idempotencyKey,event,subject,detail⟩ := record
  obtain rfl : softwareBuild=some services.softwareBuild := hbuild
  simp [pure,Except.pure]

theorem decodeRecordCbor_canonicalRecordCbor (hlaw : services.Lawful) {record : AuditRecord}
    (hwritten : record.Written services) (hread : ReadBack services record) {payload : Bytes}
    (hpayload : canonicalRecordCbor services record=.ok payload) :
    decodeRecordCbor services payload=.ok record := by
  have hvalue := hread.cbor payload (mapError_eq_ok.mp hpayload)
  unfold decodeRecordCbor
  simp only [hvalue,Except.mapError,ok_bind]
  exact recordFromCbor_recordToCbor hlaw hwritten hread

end Remanence.Audit

import Remanence.TapeLog.Wire

/-!
# The catalog validator

An object's catalog is a CBOR sequence of a header map and member maps. The validator reads it
in pieces of any size, with a stack of the items still expected and the bytes of an unfinished
head or UTF-8 scalar.
-/

namespace Remanence.TapeLog

open Foundation Parity

inductive CatalogMap where
  | header
  | object
  | copy
  | member
deriving Repr, DecidableEq

inductive Schema where
  | boundRecovery
  | null
  | uint
  | exact (n : UInt64)
  | bool
  | bytes (len : Option UInt64)
  | text
  | id
  | tape
  | map (kind : CatalogMap)
  | optional (inner : Schema)
  | recipients
deriving Repr, DecidableEq

def CatalogMap.fields : CatalogMap → List Schema
  | .object => [.id,.optional .text,.text,.optional .uint,.optional (.bytes (some 32)),
    .optional (.bytes (some 32)),.optional .text]
  | .copy => [.id,.tape,.uint,.uint,.optional .uint,.optional .uint,.text,.text,
    .optional .recipients,.optional .uint,.optional (.bytes (some 32)),
    .optional (.bytes (some 32))]
  | .header => [.map .object,.map .copy,.uint,.uint,.bool,.uint,.boundRecovery]
  | .member => [.id,.text,.text,.uint,.bytes (some 32),.optional .uint,.uint,.optional .text,
    .optional .bool]

/-- What a string is compared with while it streams by. -/
inductive BoundIdentity where
  | object
  | tape
  | recovery
deriving Repr, DecidableEq

/-- State of a validation, bound to one object row. -/
structure CatalogValidator where
  stack : List Schema
  headBytes : Bytes
  headNeed : ℕ
  remaining : ℕ
  text : Bool
  scalar : Bytes
  scalarNeed : ℕ
  identity : Option BoundIdentity
  identityPos : ℕ
  objectId : String
  recovery : Bytes
  file : UInt64
  blocks : UInt64
  blockSize : UInt32
  total : UInt64
  firstOrdinal : Option UInt64
  tapeUuid : FixedBytes 16
  headerDone : Bool
  members : UInt64
  activeItem : Bool
deriving DecidableEq

namespace CatalogValidator

def new (row : TapeFileEntry) (tapeUuid : FixedBytes 16) (blockSize : UInt32) (total : UInt64) :
    Except Fault CatalogValidator := do
  let objectId ← orElseError row.objectId (.invalid "catalog Object identity")
  let recoveryRow ← orElseError row.objectRecoveryRow (.invalid "catalog recovery identity")
  let recovery ← orElseError (Wire.put recoveryRow) (.invalid "recovery encoding")
  return {
    stack := [.map .header]
    headBytes := []
    headNeed := 1
    remaining := 0
    text := false
    scalar := []
    scalarNeed := 0
    identity := none
    identityPos := 0
    objectId
    recovery
    file := row.tapeFileNumber
    blocks := row.blockCount
    blockSize
    total
    firstOrdinal := row.firstParityDataOrdinal
    tapeUuid
    headerDone := false
    members := 0
    activeItem := true }

/-- Bytes of the scalar that a first byte announces. -/
def scalarLength (b : UInt8) : Except Fault ℕ :=
  if 0xc2 ≤ b ∧ b ≤ 0xdf then .ok 2
  else if 0xe0 ≤ b ∧ b ≤ 0xef then .ok 3
  else if 0xf0 ≤ b ∧ b ≤ 0xf4 then .ok 4
  else .error (.invalid "UTF-8")

def utf8Byte (v : CatalogValidator) (b : UInt8) : Except Fault CatalogValidator :=
  if v.scalar=[] ∧ b ≤ 127 then .ok v
  else do
    let scalarNeed ← (if v.scalar=[] then scalarLength b else .ok v.scalarNeed)
    let scalar := v.scalar++[b]
    if scalar.length=scalarNeed then
      rejectIf (String.fromUTF8? ⟨scalar.toArray⟩=none) (.invalid "UTF-8")
      return { v with scalar := [],scalarNeed }
    else return { v with scalar,scalarNeed }

/-- A finished map is the header or one more member. -/
def finishItem (v : CatalogValidator) : Except Fault CatalogValidator :=
  if v.activeItem=true ∧ v.stack=[] ∧ v.remaining=0 ∧ v.headBytes=[] then
    if v.headerDone then do
      let members ← orElseError (checkedAdd64 v.members 1) .overflow
      return { v with members,activeItem := false }
    else .ok { v with headerDone := true,activeItem := false }
  else .ok v

def boundField (v : CatalogValidator) (kind : CatalogMap) (index : ℕ) (field : Schema) : Schema :=
  match kind,index with
  | .header,2 => .exact v.blockSize.toUInt64
  | .header,3 => .exact v.blocks
  | .header,5 => .exact v.total
  | .copy,2 => .exact v.file
  | .copy,4 => (v.firstOrdinal.map Schema.exact).getD .null
  | _,_ => field

/-- Items of a map: each field after its key. -/
def expandMap (v : CatalogValidator) (kind : CatalogMap) : List Schema :=
  kind.fields.zipIdx.flatMap fun (field,index) =>
    [.exact (UInt64.ofNat index),v.boundField kind index field]

def acceptString (v : CatalogValidator) (isText : Bool) (len : Option UInt64)
    (identity : Option BoundIdentity) (m : UInt8) (n : UInt64) :
    Except Fault CatalogValidator := do
  rejectIf (n.toNat > maxFrameBody) .frameTooLarge
  rejectIf (m≠if isText then 3 else 2) (.invalid "catalog CBOR schema")
  rejectIf (∃ expected ∈ len, expected≠n) (.invalid "catalog CBOR schema")
  rejectIf (∃ bound ∈ identity, n.toNat≠if bound=.tape then 16 else v.objectId.utf8ByteSize)
    (.invalid "catalog identity length")
  return { v with identity,identityPos := 0,remaining := n.toNat,text := isText }

/-- An item with a given head, against its expected shape. -/
def acceptItem (v : CatalogValidator) (m : UInt8) (n : UInt64) :
    Schema → Except Fault CatalogValidator
  | .boundRecovery => do
    let encoded := head m n
    rejectIf (¬encoded <+: v.recovery) (.invalid "catalog recovery mismatch")
    return { v with
      identity := some .recovery
      identityPos := encoded.length
      remaining := v.recovery.length-encoded.length
      text := false }
  | .null => do
    rejectIf (m≠7 ∨ n≠22) (.invalid "catalog CBOR schema")
    return v
  | .optional inner => if m=7 ∧ n=22 then .ok v else acceptItem v m n inner
  | .uint => do
    rejectIf (m≠0) (.invalid "catalog CBOR schema")
    return v
  | .exact expected => do
    rejectIf (m≠0 ∨ n≠expected) (.invalid "catalog CBOR schema")
    return v
  | .bool => do
    rejectIf (m≠7 ∨ n≠20 ∧ n≠21) (.invalid "catalog CBOR schema")
    return v
  | .map kind => do
    rejectIf (m≠5 ∨ n≠UInt64.ofNat kind.fields.length) (.invalid "catalog CBOR schema")
    return { v with stack := v.expandMap kind++v.stack }
  | .recipients => do
    rejectIf (m≠4 ∨ n.toNat > 8) (.invalid "catalog CBOR schema")
    return { v with stack := List.replicate n.toNat (.bytes (some 16))++v.stack }
  | .bytes len => acceptString v false len none m n
  | .text => acceptString v true none none m n
  | .id => acceptString v true none (some .object) m n
  | .tape => acceptString v false none (some .tape) m n

def accept (v : CatalogValidator) (schema : Schema) (m : UInt8) (n : UInt64) :
    Except Fault CatalogValidator := do
  let v ← acceptItem v m n schema
  rejectIf (v.stack.length > 64) (.invalid "catalog nesting")
  return v

def expectedIdentity (v : CatalogValidator) : BoundIdentity → Bytes
  | .object => utf8 v.objectId
  | .tape => v.tapeUuid.bytes
  | .recovery => v.recovery

/-- Part of a bound string against the bytes it must repeat. -/
def feedIdentity (v : CatalogValidator) (chunk : Bytes) : Except Fault CatalogValidator :=
  match v.identity with
  | none => .ok v
  | some bound => do
    let expected := v.expectedIdentity bound
    rejectIf (v.identityPos+chunk.length > expected.length ∨
      slice expected v.identityPos chunk.length≠chunk) (.invalid "catalog identity mismatch")
    return { v with identityPos := v.identityPos+chunk.length }

def feedString (v : CatalogValidator) (chunk : Bytes) : Except Fault CatalogValidator := do
  let v ← v.feedIdentity chunk
  let v ← (if v.text then chunk.foldlM utf8Byte v else .ok v)
  let v := { v with remaining := v.remaining-chunk.length }
  rejectIf (v.remaining=0 ∧ v.scalar≠[]) (.invalid "incomplete UTF-8 scalar")
  v.finishItem

def headLength (b : UInt8) : Except Fault ℕ :=
  let info := (b&&&31).toNat
  if info ≤ 23 then .ok 1
  else if info=24 then .ok 2
  else if info=25 then .ok 3
  else if info=26 then .ok 5
  else if info=27 then .ok 9
  else .error (.invalid "indefinite/reserved CBOR")

def feedHead (v : CatalogValidator) (b : UInt8) : Except Fault CatalogValidator := do
  let v := if v.activeItem then v
    else { v with stack := .map .member::v.stack,activeItem := true }
  let headBytes := v.headBytes++[b]
  let headNeed ← (if headBytes.length=1 then headLength b else .ok v.headNeed)
  if headBytes.length=headNeed then
    let ((major,n),_) ← orElseError (readHead headBytes) (.invalid "nonminimal CBOR")
    match v.stack with
    | [] => throw (.invalid "catalog schema stack")
    | schema::stack =>
      let v ← accept { v with headBytes := [],headNeed,stack } schema major n
      v.finishItem
  else return { v with headBytes,headNeed }

/-- Next part of a piece: the rest of the current string or one head byte. -/
def feedStep (v : CatalogValidator) (b : UInt8) (rest : Bytes) :
    Except Fault (CatalogValidator×Bytes) :=
  if v.remaining > 0 then do
    let v' ← v.feedString ((b::rest).take v.remaining)
    return (v',(b::rest).drop v.remaining)
  else do
    let v' ← v.feedHead b
    return (v',rest)

def feedLoop : ℕ → CatalogValidator → Bytes → Except Fault CatalogValidator
  | fuel+1,v,b::rest => do
    let (v',rest') ← v.feedStep b rest
    feedLoop fuel v' rest'
  | _,v,_ => .ok v

/-- One more piece of the catalog; every part has at least one byte. -/
def feed (v : CatalogValidator) (bytes : Bytes) : Except Fault CatalogValidator :=
  feedLoop bytes.length v bytes

def finish (v : CatalogValidator) : Except Fault UInt64 := do
  rejectIf (v.headerDone=false ∨ v.activeItem=true ∨ v.headBytes≠[] ∨ v.remaining≠0)
    (.invalid "incomplete catalog item")
  return v.members

end CatalogValidator

end Remanence.TapeLog

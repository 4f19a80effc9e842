import ItemExpr.Encoder
import ItemExpr.Error
import ItemExpr.Settings
import ItemExpr.Value.Render

/-!
# Sessions

A session is what is known while a request is compiled: the entity and the index that names are looked up in, the tokens
that are bound so far, the encoders and the clock of the host, and whether the condition that is being compiled is one
on keys. An operation on a session may fail; what it did to the session before it failed stays.
-/

namespace ItemExpr

/-- Which properties a condition may refer to. -/
inductive Mode where
  | unrestricted
  | keysOnly
deriving DecidableEq, Repr

/-- The state of a compilation. -/
structure Session where
  entity : Option Entity
  index : Option Index
  mode : Mode
  names : NameTable
  values : ValueTable
  tokens : TokenSource
  dateFormat : String
  allowRaw : Bool
  encryptor : Option Encryptor
  geoEncoder : Option GeoEncoder
  clock : LocalClock
  partitionBound : Bool

abbrev SessionM := EStateM Error Session

namespace Session

/-- A session in which nothing is bound. Without an entity every name stands for the attribute of the same name. The
local clock shows universal time until the one of the host is set. -/
def new (settings : Settings) (entity : Option Entity) : Session where
  entity
  index := none
  mode := .unrestricted
  names := .empty settings.nameSigil
  values := []
  tokens := .new settings.valueSigil
  dateFormat := settings.dateFormat
  allowRaw := settings.allowRaw
  encryptor := none
  geoEncoder := none
  clock := .universal
  partitionBound := false

/-- Whether the condition that is being compiled is one on keys. -/
def keysOnly (session : Session) : Bool :=
  session.mode == .keysOnly

/-! ## Looking up -/

def property (session : Session) (logicalName : String) : Except Error Property :=
  match session.entity with
  | none => .ok (.plain logicalName logicalName)
  | some entity =>
    match entity.property? logicalName with
    | some property => .ok property
    | none => .error (.unmappedProperty entity.tableName logicalName)

def findIndex (session : Session) (name : String) : Except Error Index :=
  match session.entity with
  | none => .error (.unsupported (.indexWithoutEntity name))
  | some entity =>
    match entity.index? name with
    | some index => .ok index
    | none => .error (.unsupported (.undeclaredIndex name entity.tableName))

def keyScope (session : Session) : KeyScope :=
  match session.index with
  | some index => .index index.name
  | none => .table

/-- Whether a property belongs to the key of the selected index, or of the table if none is selected. -/
def isKey (session : Session) (property : Property) : Bool :=
  match session.index with
  | some index => index.hasKeyAttribute property.attributeName
  | none => property.keyRole.isKey

/-- Whether a property is the partition key of the selected index, or of the table if none is selected. Without an
entity there are no keys. -/
def isPartitionKey (session : Session) (property : Property) : Bool :=
  session.entity.isSome &&
    match session.index with
    | some index => index.partitionKey == property.attributeName
    | none => property.keyRole == .partition

/-- Refuses a property that is no key in a condition on keys. -/
def checkMode (session : Session) (property : Property) : Except Error Unit :=
  if session.keysOnly && session.entity.isSome && !session.isKey property then
    .error (.invalidKey property.logicalName (.notKeyAttribute property.attributeName session.keyScope))
  else .ok ()

/-- The attribute of the partition key, if there is one. -/
def partitionAttribute? (session : Session) : Option String :=
  match session.entity, session.index with
  | none, _ => none
  | some _, some index => some index.partitionKey
  | some entity, none => (entity.propertyOfRole? .partition).map (·.attributeName)

/-- The name of the property that an attribute stores, or of the attribute if it stores none. -/
def nameOfAttribute (session : Session) (attributeName : String) : String :=
  match session.entity.bind (·.propertyOfAttribute? attributeName) with
  | some property => property.logicalName
  | none => attributeName

/-- Refuses conditions on keys that have not compared the partition key, if there is one. -/
def requirePartitionBound (session : Session) : Except Error Unit :=
  if session.partitionBound then .ok ()
  else
    match session.partitionAttribute? with
    | none => .ok ()
    | some attributeName =>
      .error (.invalidKey (session.nameOfAttribute attributeName) (.partitionNotCompared attributeName))

/-! ## Encoding -/

/-- Whether the format of a property is meant for a literal. -/
def acceptsFormat : Value → Bool
  | .dateTime _ | .date _ | .number _ => true
  | _ => false

/-- An instant on the clock that a property stores it on; any other literal as it is. -/
def normalize (session : Session) (mode : TimezoneMode) (value : Value) : Value :=
  match value, mode with
  | .dateTime t, .utc => .dateTime t.toUtc
  | .dateTime t, .local => .dateTime (session.clock.shows t)
  | _, _ => value

/-- The specifier that a literal of a property is rendered with. -/
def chosenSpec (property : Property) (value : Value) (spec : Option String) : Option String :=
  spec <|> if acceptsFormat value then property.format else none

/-- The stored value of a literal before encryption. -/
def renderFor (session : Session) (property : Property) (value : Value) (spec : Option String) :
    Except Error AttributeValue :=
  -- A location without an encoder is stored like a value of a property that has no encoding.
  match value, property.geo, session.geoEncoder with
  | .location point, some geo, some encoder =>
    (encoder point geo).mapError (.encoderFailed property.logicalName)
  | _, _, _ =>
    (value.render (chosenSpec property value spec) session.dateFormat).mapError (.unsupported ∘ .format)

/-- The name of the entity's table, which is empty without an entity. -/
def tableName (session : Session) : String :=
  match session.entity with
  | some entity => entity.tableName
  | none => ""

def encryptFor (session : Session) (property : Property) (value : AttributeValue) : Except Error AttributeValue :=
  match session.encryptor with
  | none => .error (.encryptionRequired property.logicalName)
  | some encryptor =>
    ((encryptor session.tableName property.attributeName value.plaintext).map .binary).mapError
      (.encoderFailed property.logicalName)

/-- The stored value of a literal under the rules of a property, if there are any: its clock, its location encoding, its
format where no specifier is given, and its encryption. -/
def encode (session : Session) (value : Value) (rules : Option Property) (spec : Option String) :
    Except Error AttributeValue :=
  match rules with
  | none => (value.render spec session.dateFormat).mapError (.unsupported ∘ .format)
  | some property => do
    let rendered ← session.renderFor property (session.normalize property.timezone value) spec
    if property.encrypted then session.encryptFor property rendered else return rendered

end Session

namespace SessionM

open Session

/-- An operation that reads the session and may fail. -/
def query {α : Type} (read : Session → Except Error α) : SessionM α := do
  match read (← get) with
  | .ok a => return a
  | .error e => throw e

def useIndex (name : String) : SessionM Unit := do
  let index ← query (·.findIndex name)
  modify fun session => { session with index := some index }

def setMode (mode : Mode) : SessionM Mode :=
  modifyGet fun session => (session.mode, { session with mode })

def markPartitionBound : SessionM Unit :=
  modify fun session => { session with partitionBound := true }

def setEncryptor (encryptor : Encryptor) : SessionM Unit :=
  modify fun session => { session with encryptor := some encryptor }

def setGeoEncoder (encoder : GeoEncoder) : SessionM Unit :=
  modify fun session => { session with geoEncoder := some encoder }

def setLocalClock (clock : LocalClock) : SessionM Unit :=
  modify fun session => { session with clock }

def bindName (attributeName : String) : SessionM String :=
  modifyGet fun session =>
    let (token, names) := session.names.bind attributeName
    (token, { session with names })

def bindValue (value : AttributeValue) : SessionM String :=
  modifyGet fun session =>
    let (token, tokens) := session.tokens.nextFree session.values session.values.length
    (token, { session with tokens, values := session.values ++ [(token, value)] })

/-- A new token for a literal under the rules of a property. -/
def bindLiteral (value : Value) (rules : Option Property) (spec : Option String) : SessionM String := do
  let encoded ← query (·.encode value rules spec)
  bindValue encoded

def insertName (token attributeName : String) : SessionM Unit := do
  let names ← query fun session => (session.names.insert token attributeName).mapError .conflict
  modify fun session => { session with names }

def insertValue (token : String) (value : AttributeValue) : SessionM Unit := do
  let values ← query fun session => (ValueTable.insert session.values token value).mapError .conflict
  modify fun session => { session with values }

end SessionM

end ItemExpr

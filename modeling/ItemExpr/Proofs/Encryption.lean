import ItemExpr.Proofs.Binding

/-!
# Which literals are encrypted

A literal is encrypted if the rules that it is bound under are those of an encrypted property, or of what lies below
one. So each law about literals comes down to the path that gives a literal its rules.
-/

namespace ItemExpr

open Session

variable {s t : Session} {property : Property} {value : Value} {stored : AttributeValue} {tail : List PathStep}

/-! ## Rules and encodings -/

namespace Session

/-- A path starts at a property. -/
def RootedAt (session : Session) (path : Path) (property : Property) : Prop :=
  ∃ root tail, path.steps = .field root :: tail ∧ session.property root = .ok property

/-- A stored value is what a literal is rendered as, under the rules of a property or under none. -/
def Renders (session : Session) (property : Property) (value : Value) (stored : AttributeValue) : Prop :=
  value.render none session.dateFormat = .ok stored ∨
    session.renderFor property (session.normalize property.timezone value) none = .ok stored

/-- A stored value is bytes that the encryptor gave for the attribute of a property, and for what would be stored of a
literal without it. -/
def Protects (session : Session) (property : Property) (value : Value) (stored : AttributeValue) : Prop :=
  ∃ encryptor rendered bytes, session.encryptor = some encryptor ∧ session.Renders property value rendered ∧
    encryptor session.tableName property.attributeName rendered.plaintext = .ok bytes ∧ stored = .binary bytes

theorem rootedAt_of_root? {entity : Entity} {path : Path} {root : String} (known : s.entity = some entity)
    (starts : path.root? = some root) (found : entity.property? root = some property) : s.RootedAt path property := by
  obtain ⟨tail, rfl⟩ := Path.eq_of_root? starts
  exact ⟨root, tail, rfl, by simp [Session.property, known, found]⟩

theorem Grows.rootedAt {before after : Session} {path : Path} (grows : Grows before after) :
    after.RootedAt path property ↔ before.RootedAt path property := by
  simp only [RootedAt, grows.property]

theorem Grows.tableName {before after : Session} (grows : Grows before after) :
    after.tableName = before.tableName := by
  unfold Session.tableName
  rw [grows.entity]

theorem Grows.dateFormat {before after : Session} (grows : Grows before after) :
    after.dateFormat = before.dateFormat := by
  rw [grows.frame]

theorem Grows.renderFor {before after : Session} (grows : Grows before after) :
    after.renderFor = before.renderFor := by
  rw [grows.frame]; rfl

theorem Grows.normalize {before after : Session} (grows : Grows before after) :
    after.normalize = before.normalize := by
  rw [grows.frame]; rfl

theorem Grows.renders {before after : Session} (grows : Grows before after) :
    after.Renders property value stored ↔ before.Renders property value stored := by
  simp only [Renders, grows.dateFormat, grows.renderFor, grows.normalize]

theorem Grows.protects {before after : Session} (grows : Grows before after) :
    after.Protects property value stored ↔ before.Protects property value stored := by
  simp only [Protects, grows.encryptor, grows.tableName, grows.renders]

end Session

/-- What is left of the rules of an encrypted property below it: the encryption, for the same attribute. -/
def Property.encryptionOnly (property : Property) : Property :=
  { property with format := none, timezone := .none, geo := none }

theorem Property.rulesAt_of_encrypted (encrypted : property.encrypted = true) (tail : List PathStep) :
    property.rulesAt tail = some property ∨ property.rulesAt tail = some property.encryptionOnly := by
  cases tail with
  | nil => exact .inl rfl
  | cons step rest => exact .inr (by simp [rulesAt, nestedRules?, encrypted, encryptionOnly])

/-- Below a property that is not encrypted there are no rules. -/
theorem Property.rulesAt_of_not_encrypted (clear : property.encrypted = false) (tail : List PathStep) :
    property.rulesAt tail = none ∨ property.rulesAt tail = some property := by
  cases tail with
  | nil => exact .inr rfl
  | cons step rest => exact .inl (by simp [rulesAt, nestedRules?, clear])

namespace Session

theorem normalize_none (session : Session) (value : Value) : session.normalize .none value = value := by
  cases value <;> rfl

theorem renderFor_encryptionOnly (session : Session) (property : Property) (value : Value) :
    session.renderFor property.encryptionOnly value none =
      (value.render none session.dateFormat).mapError (.unsupported ∘ .format) := by
  have unformatted : chosenSpec property.encryptionOnly value none = none := by
    simp [chosenSpec, Property.encryptionOnly]
  unfold renderFor
  split
  · rename_i geo _ located _
    cases located
  · rw [unformatted]

theorem encryptFor_eq_ok {rendered : AttributeValue} (run : s.encryptFor property rendered = .ok stored) :
    ∃ encryptor bytes, s.encryptor = some encryptor ∧
      encryptor s.tableName property.attributeName rendered.plaintext = .ok bytes ∧ stored = .binary bytes := by
  unfold encryptFor at run
  cases registered : s.encryptor with
  | none => simp [registered] at run
  | some encryptor =>
    rw [registered] at run
    have sealed := mapError_eq_ok.1 run
    cases given : encryptor s.tableName property.attributeName rendered.plaintext with
    | error message =>
      rw [given] at sealed
      cases sealed
    | ok bytes =>
      rw [given] at sealed
      cases sealed
      exact ⟨encryptor, bytes, rfl, given, rfl⟩

theorem encode_some_eq_ok (run : s.encode value (some property) none = .ok stored) :
    ∃ rendered, s.renderFor property (s.normalize property.timezone value) none = .ok rendered ∧
      (if property.encrypted then s.encryptFor property rendered = .ok stored else rendered = stored) := by
  have both : (s.renderFor property (s.normalize property.timezone value) none >>= fun rendered =>
      if property.encrypted then s.encryptFor property rendered else pure rendered) = .ok stored := run
  cases given : s.renderFor property (s.normalize property.timezone value) none with
  | error error =>
    rw [given] at both
    cases both
  | ok rendered =>
    rw [given] at both
    have chosen : (if property.encrypted then s.encryptFor property rendered else .ok rendered) = .ok stored := both
    refine ⟨rendered, rfl, ?_⟩
    split
    · rename_i encrypted
      rwa [if_pos encrypted] at chosen
    · rename_i clear
      rw [if_neg clear] at chosen
      exact Except.ok.inj chosen

/-- A literal without rules is stored as it is rendered. -/
theorem render_of_encode (encoded : s.encode value none none = .ok stored) :
    value.render none s.dateFormat = .ok stored :=
  mapError_eq_ok.1 encoded

/-- A literal under the rules of an encrypted property is encrypted. -/
theorem protects_of_encode (encrypted : property.encrypted = true)
    (encoded : s.encode value (property.rulesAt tail) none = .ok stored) : s.Protects property value stored := by
  obtain found | found := Property.rulesAt_of_encrypted encrypted tail <;> rw [found] at encoded
  · obtain ⟨rendered, renders, sealed⟩ := encode_some_eq_ok encoded
    rw [if_pos encrypted] at sealed
    obtain ⟨encryptor, bytes, registered, given, rfl⟩ := encryptFor_eq_ok sealed
    exact ⟨encryptor, rendered, bytes, registered, .inr renders, given, rfl⟩
  · obtain ⟨rendered, renders, sealed⟩ := encode_some_eq_ok encoded
    -- Below the property the literal is rendered as if there were no rules, and then encrypted.
    rw [renderFor_encryptionOnly, Property.encryptionOnly, normalize_none] at renders
    rw [if_pos (show property.encryptionOnly.encrypted = true from encrypted)] at sealed
    obtain ⟨encryptor, bytes, registered, given, rfl⟩ := encryptFor_eq_ok sealed
    exact ⟨encryptor, rendered, bytes, registered, .inl (mapError_eq_ok.1 renders), given, rfl⟩

/-- A literal under the rules of a property that is not encrypted is stored in clear. -/
theorem renders_of_encode (clear : property.encrypted = false)
    (encoded : s.encode value (property.rulesAt tail) none = .ok stored) : s.Renders property value stored := by
  obtain found | found := Property.rulesAt_of_not_encrypted clear tail <;> rw [found] at encoded
  · exact .inl (render_of_encode encoded)
  · obtain ⟨rendered, renders, kept⟩ := encode_some_eq_ok encoded
    rw [if_neg (by simp [clear])] at kept
    exact .inr (kept ▸ renders)

end Session

/-! ## Literals and what they are bound to -/

/-- The token of an operand that is a value. -/
def TokenOperand.valueToken? : TokenOperand → Option String
  | .value token => some token
  | _ => none

/-- A literal has a token, which is bound to a stored value of a kind. -/
def BoundTo (token? : Option String) (values : Table AttributeValue) (kind : AttributeValue → Prop) : Prop :=
  ∃ token stored, token? = some token ∧ values.value? token = some stored ∧ kind stored

theorem BoundTo.mono {token? : Option String} {values more : Table AttributeValue}
    {narrow wide : AttributeValue → Prop} (bound : BoundTo token? values narrow) (grown : values <+: more)
    (wider : ∀ stored, narrow stored → wide stored) : BoundTo token? more wide := by
  obtain ⟨token, stored, found, standsFor, kind⟩ := bound
  exact ⟨token, stored, found, Table.value?_of_prefix grown standsFor, wider stored kind⟩

/-- Rules that a path from a property may give. -/
def Property.Gives (property : Property) (rules : Option Property) : Prop :=
  ∃ tail, rules = property.rulesAt tail

theorem Resolves.gives {path : Path} {resolved : ResolvedPath} (resolves : Resolves s path resolved t)
    (rooted : s.RootedAt path property) : property.Gives resolved.rules := by
  obtain ⟨root, tail, starts, found⟩ := rooted
  cases resolves with
  | root declared =>
    cases starts
    rw [found] at declared
    cases declared
    exact ⟨tail, rfl⟩

theorem BindsOperand.constant {rules : Option Property} {operand : TokenOperand}
    (binds : BindsOperand s rules (.constant value) operand t) :
    BoundTo operand.valueToken? t.values fun stored => s.encode value rules none = .ok stored := by
  cases binds with
  | value encoded run => exact ⟨_, _, rfl, value?_bindValue run (.refl t), encoded⟩

/-- What becomes of a literal under the rules of a property: it is encrypted if the property is, and else it is stored
in clear. -/
def Session.Treats (session : Session) (property : Property) (value : Value) (stored : AttributeValue) : Prop :=
  if property.encrypted then session.Protects property value stored else session.Renders property value stored

theorem Session.Grows.treats {before after : Session} (grows : Grows before after) :
    after.Treats property value stored ↔ before.Treats property value stored := by
  simp only [Session.Treats, grows.protects, grows.renders]

theorem BindsOperand.treats {rules : Option Property} {operand : TokenOperand}
    (binds : BindsOperand s rules (.constant value) operand t) (gives : property.Gives rules) :
    BoundTo operand.valueToken? t.values (s.Treats property value) := by
  obtain ⟨tail, rfl⟩ := gives
  refine binds.constant.mono List.prefix_rfl fun stored encoded => ?_
  unfold Session.Treats
  split
  · rename_i encrypted
    exact protects_of_encode encrypted encoded
  · rename_i clear
    exact renders_of_encode (by simpa using clear) encoded

theorem BindsOperand.plain {operand : TokenOperand} (binds : BindsOperand s none (.constant value) operand t) :
    BoundTo operand.valueToken? t.values (value.render none s.dateFormat = .ok ·) :=
  binds.constant.mono List.prefix_rfl fun _ => render_of_encode

/-- The same for what is bound in the course of something longer. -/
theorem BindsOperand.treats_later {rules : Option Property} {operand : TokenOperand} {u v : Session}
    (before : Grows s u) (binds : BindsOperand u rules (.constant value) operand v) (later : Grows v t)
    (gives : property.Gives rules) : BoundTo operand.valueToken? t.values (s.Treats property value) :=
  (binds.treats gives).mono later.values fun _ => before.treats.1

/-! ## Operations that encrypt a literal -/

/-- An operation encrypts a literal, which is at a place of what it answers, for a property: without an encryptor it
fails, and if it succeeds with one, the token of the literal is bound to the bytes that the encryptor gave for the
table, the attribute of the property, and what would be stored of the literal without it. -/
def SessionM.Encrypts {α : Type} (op : SessionM α) (session : Session) (tokenAt : α → Option String) (entity : Entity)
    (property : Property) (value : Value) : Prop :=
  (session.encryptor = none → ∃ error after, op session = .error error after) ∧
    ∀ encryptor answer after, session.encryptor = some encryptor → op session = .ok answer after →
      ∃ token rendered bytes, tokenAt answer = some token ∧ session.Renders property value rendered ∧
        encryptor entity.tableName property.attributeName rendered.plaintext = .ok bytes ∧
        after.values.value? token = some (.binary bytes)

theorem SessionM.encrypts_of_treats {α : Type} {op : SessionM α} {session : Session} {entity : Entity}
    {tokenAt : α → Option String} (known : session.entity = some entity) (encrypted : property.encrypted = true)
    (treats : ∀ {answer after}, op session = .ok answer after →
      BoundTo (tokenAt answer) after.values (session.Treats property value)) :
    op.Encrypts session tokenAt entity property value := by
  have protects : ∀ {answer after}, op session = .ok answer after →
      BoundTo (tokenAt answer) after.values (session.Protects property value) := by
    intro answer after run
    refine (treats run).mono List.prefix_rfl fun stored treated => ?_
    rwa [Session.Treats, if_pos encrypted] at treated
  constructor
  · intro unregistered
    cases run : op session with
    | ok answer after =>
      obtain ⟨_, _, _, _, encryptor, _, _, registered, _⟩ := protects run
      rw [unregistered] at registered
      cases registered
    | error error after => exact ⟨error, after, rfl⟩
  · intro encryptor answer after registered run
    obtain ⟨token, stored, found, bound, same, rendered, bytes, installed, renders, given, rfl⟩ := protects run
    rw [registered] at installed
    cases installed
    have table : session.tableName = entity.tableName := by
      unfold Session.tableName
      rw [known]
    exact ⟨token, rendered, bytes, found, renders, table ▸ given, bound⟩

/-! ## An example

Accounts whose card numbers are encrypted, and an encryptor that puts where it was called in front of the bytes. -/

def cardNumber : Property :=
  { Property.plain "CardNumber" "card" with encrypted := true }

def accounts : Entity :=
  { Entity.empty "accounts" with properties := [.plain "Status" "status", cardNumber] }

def tagging : Encryptor := fun tableName attributeName plaintext =>
  .ok (Bytes.ofText (tableName ++ "/" ++ attributeName ++ ":") ++ plaintext)

end ItemExpr

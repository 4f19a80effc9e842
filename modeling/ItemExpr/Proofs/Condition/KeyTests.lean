import ItemExpr.Proofs.Binding.Complete
import ItemExpr.Proofs.Condition.Formula
import ItemExpr.Proofs.Condition.Keys

/-!
# Tests of keys

What a query may test a key for: how it compares with a literal on either side, whether it lies between two literals,
and whether it begins with one. Such a test of a property of the key is compiled wherever its literals can be encoded,
and says of the attribute what it should. A test of the partition key must be one for equality, and is noted then.
-/

namespace ItemExpr

open Session SessionM

/-- A comparison whose sides are bound is compiled, if it is one with `=` where a side is the partition key. -/
theorem BindsPair.compares {s t : Session} {op : Comparison} {left right : Expr} {l r : TokenOperand}
    (pair : BindsPair s left right l r t) (unequal : op ≠ .ne)
    (equality : s.PinsPartition left ∨ s.PinsPartition right → op = .eq) :
    ∃ c u, BindsCondition s (.compare op left right) c u := by
  have allowed : op = .ne → s.keysOnly = false := fun same => absurd same unequal
  by_cases pins : s.PinsPartition left ∨ s.PinsPartition right
  · exact ⟨_, t.noting true, .compare allowed (iff_of_true rfl pins) (fun _ => equality pins) pair⟩
  · exact ⟨_, t.noting false, .compare allowed (iff_of_false nofun pins) nofun pair⟩

/-! ## Tests -/

inductive KeyTest where
  | compare (op : Comparison) (value : Value)
  /-- A comparison with the literal on the left. -/
  | compareFlipped (op : Comparison) (value : Value)
  | between (low high : Value)
  | beginsWith (start : Value)

namespace KeyTest

def literals : KeyTest → List Value
  | .compare _ value | .compareFlipped _ value => [value]
  | .between low high => [low, high]
  | .beginsWith start => [start]

/-- The tree of a test of the property of a name. -/
def tree (root : String) : KeyTest → Expr
  | .compare op value => .compare op (.member ⟨[.field root]⟩) (.constant value)
  | .compareFlipped op value => .compare op (.constant value) (.member ⟨[.field root]⟩)
  | .between low high => .call "between" [.member ⟨[.field root]⟩, .constant low, .constant high]
  | .beginsWith start => .call "begins_with" [.member ⟨[.field root]⟩, .constant start]

/-- What a test says of an attribute. -/
def atom (attributeName : String) (stored : Value → AttributeValue) : KeyTest → Atom
  | .compare op value => .compare op (.place ⟨attributeName, []⟩) (.value (stored value))
  | .compareFlipped op value => .compare op (.value (stored value)) (.place ⟨attributeName, []⟩)
  | .between low high => .between (.place ⟨attributeName, []⟩) (.value (stored low)) (.value (stored high))
  | .beginsWith start => .beginsWith ⟨attributeName, []⟩ (.value (stored start))

def isEquality : KeyTest → Bool
  | .compare op _ | .compareFlipped op _ => op == .eq
  | _ => false

/-- Whether the values that pass a test stand together in the order of the key: all but those of `<>` do. -/
def isContiguous : KeyTest → Bool
  | .compare op _ | .compareFlipped op _ => op != .ne
  | _ => true

theorem isContiguous_of_isEquality {test : KeyTest} (equality : test.isEquality = true) : test.isContiguous = true := by
  cases test with
  | compare op value | compareFlipped op value =>
    have eq : op = .eq := by simpa [isEquality] using equality
    rw [eq]
    rfl
  | between | beginsWith => rfl

end KeyTest

/-- A test of a property, by the name that it resolves to, and what the literals of the test are stored as. -/
structure KeyPart where
  root : String
  property : Property
  test : KeyTest
  stored : Value → AttributeValue

namespace KeyPart

def tree (part : KeyPart) : Expr :=
  part.test.tree part.root

def atom (part : KeyPart) : Atom :=
  part.test.atom part.property.attributeName part.stored

/-- Whether a session that compiles conditions on keys may take a test. -/
structure Allowed (part : KeyPart) (s : Session) : Prop where
  keys : s.keysOnly = true
  found : s.property part.root = .ok part.property
  key : s.isKey part.property = true
  contiguous : part.test.isContiguous = true
  equality : s.isPartitionKey part.property = true → part.test.isEquality = true
  encodes : ∀ value ∈ part.test.literals, s.encode value (some part.property) none = .ok (part.stored value)

variable {part : KeyPart} {s t u : Session}

theorem Allowed.later (allowed : part.Allowed s) (grows : Grows s t) : part.Allowed t where
  keys := grows.keysOnly.trans allowed.keys
  found := grows.property ▸ allowed.found
  key := grows.isKey ▸ allowed.key
  contiguous := allowed.contiguous
  equality := grows.isPartitionKey ▸ allowed.equality
  encodes := grows.encode ▸ allowed.encodes

theorem Allowed.resolves (allowed : part.Allowed s) :
    ∃ resolved t, Resolves s ⟨[.field part.root]⟩ resolved t ∧ resolved.rules = some part.property := by
  have checked : s.checkMode part.property = .ok () := by simp [checkMode, allowed.key]
  exact ⟨_, _, .root allowed.found checked (fun nested => absurd rfl nested) .nil, rfl⟩

theorem Allowed.literal (allowed : part.Allowed s) (value : Value) (member : value ∈ part.test.literals) :
    ∃ operand t, BindsOperand s (some part.property) (.constant value) operand t :=
  ⟨_, _, .value (allowed.encodes value member) rfl⟩

theorem Allowed.pinsPartition (allowed : part.Allowed s) :
    s.PinsPartition (.member ⟨[.field part.root]⟩) ↔ s.isPartitionKey part.property = true := by
  constructor
  · rintro ⟨_, root, tail, property, same, found, partition⟩
    cases same
    rw [allowed.found] at found
    cases found
    exact partition
  · exact fun partition => ⟨allowed.keys, _, _, _, rfl, allowed.found, partition⟩

theorem not_pinsPartition_constant (value : Value) : ¬ s.PinsPartition (.constant value) := by
  rintro ⟨_, _, _, _, same, _⟩
  cases same

/-- An allowed test is compiled. -/
theorem Allowed.binds (allowed : part.Allowed s) : ∃ c t, BindsCondition s part.tree c t := by
  obtain ⟨resolved, u, resolves, rules⟩ := allowed.resolves
  have later := allowed.later resolves.grows
  have pinned := allowed.pinsPartition
  have equality := allowed.equality
  have contiguous := allowed.contiguous
  obtain ⟨root, property, test, stored⟩ := part
  cases test with
  | compare op value =>
    obtain ⟨operand, t, binds⟩ := later.literal value (by simp [KeyTest.literals])
    have unequal : op ≠ .ne := by simpa [KeyTest.isContiguous] using contiguous
    refine BindsPair.compares (.pathLeft resolves (rules ▸ binds)) unequal ?_
    rintro (pins | pins)
    · simpa [KeyTest.isEquality] using equality (pinned.1 pins)
    · exact absurd pins (not_pinsPartition_constant value)
  | compareFlipped op value =>
    obtain ⟨operand, t, binds⟩ := later.literal value (by simp [KeyTest.literals])
    have unequal : op ≠ .ne := by simpa [KeyTest.isContiguous] using contiguous
    refine BindsPair.compares (.pathRight nofun resolves (rules ▸ binds)) unequal ?_
    rintro (pins | pins)
    · exact absurd pins (not_pinsPartition_constant value)
    · simpa [KeyTest.isEquality] using equality (pinned.1 pins)
  -- The partition key is tested for equality, so it is no subject of these.
  | between low high =>
    have free : ¬ s.PinsPartition (.member ⟨[.field root]⟩) := fun pins => by cases equality (pinned.1 pins)
    obtain ⟨l, v, bindsLow⟩ := later.literal low (by simp [KeyTest.literals])
    obtain ⟨h, t, bindsHigh⟩ := (later.later bindsLow.grows).literal high (by simp [KeyTest.literals])
    exact ⟨_, t, .between free (.path resolves) (rules ▸ bindsLow) (rules ▸ bindsHigh)⟩
  | beginsWith start =>
    have free : ¬ s.PinsPartition (.member ⟨[.field root]⟩) := fun pins => by cases equality (pinned.1 pins)
    obtain ⟨operand, t, binds⟩ := later.literal start (by simp [KeyTest.literals])
    exact ⟨_, t, .beginsWith free resolves (rules ▸ binds)⟩

/-- A test of the partition key is noted. -/
theorem Allowed.noted (allowed : part.Allowed s) (partition : s.isPartitionKey part.property = true)
    {c : TokenCondition} (binds : BindsCondition s part.tree c t) : t.partitionBound = true := by
  have pins := allowed.pinsPartition.2 partition
  have equality := allowed.equality partition
  obtain ⟨root, property, test, stored⟩ := part
  cases test with
  | compare op value =>
    cases binds with
    | compare _ pinned => simp [noting, pinned.2 (.inl pins)]
  | compareFlipped op value =>
    cases binds with
    | compare _ pinned => simp [noting, pinned.2 (.inr pins)]
  | between | beginsWith => cases equality

/-- The tree of an allowed test says what the test says. -/
theorem Allowed.formula? (allowed : part.Allowed s) : s.knowledge.formula? part.tree = some (.atom part.atom) := by
  have found := allowed.found
  have encodes := allowed.encodes
  obtain ⟨root, property, test, stored⟩ := part
  have place : s.knowledge.place? ⟨[.field root]⟩ = some ⟨property.attributeName, []⟩ := by
    simp [Knowledge.place?, Session.knowledge, found, Except.toOption]
  have rules : s.knowledge.rulesBeside (.member ⟨[.field root]⟩) = some property := by
    simp [Knowledge.rulesBeside, Session.knowledge, found, Except.toOption, Property.rulesAt]
  have literal : ∀ value ∈ test.literals, s.knowledge.encode value (some property) = some (stored value) := by
    intro value member
    simp [Session.knowledge, encodes value member, Except.toOption]
  cases test with
  | compare op value | compareFlipped op value =>
    have bound := literal value (by simp [KeyTest.literals])
    simp [tree, KeyTest.tree, atom, KeyTest.atom, Expr.compare, Knowledge.formula?, Knowledge.term?, place, rules,
      bound]
  | between low high =>
    have boundLow := literal low (by simp [KeyTest.literals])
    have boundHigh := literal high (by simp [KeyTest.literals])
    simp [tree, KeyTest.tree, atom, KeyTest.atom, Knowledge.formula?, Knowledge.atom?, Knowledge.term?, place, rules,
      boundLow, boundHigh]
  | beginsWith start =>
    have bound := literal start (by simp [KeyTest.literals])
    simp [tree, KeyTest.tree, atom, KeyTest.atom, Knowledge.formula?, Knowledge.atom?, Knowledge.term?, place, rules,
      bound]

end KeyPart

/-! ## Conditions one after the other -/

variable {s t u : Session}

/-- Some conditions, one after the other. -/
inductive BindsEach : Session → List Expr → List TokenCondition → Session → Prop where
  | nil {s : Session} : BindsEach s [] [] s
  | cons {s u t : Session} {expr : Expr} {rest : List Expr} {c : TokenCondition} {conditions : List TokenCondition} :
    BindsCondition s expr c u → BindsEach u rest conditions t → BindsEach s (expr :: rest) (c :: conditions) t

/-- A tree that is compiled in a session, whatever is bound in it before. -/
def Session.Accepts (session : Session) (expr : Expr) : Prop :=
  ∀ ⦃before⦄, Grows session before → ∃ c after, BindsCondition before expr c after

/-- A tree that notes a comparison of the partition key, whatever is bound before. -/
def Session.Notes (session : Session) (expr : Expr) : Prop :=
  ∀ ⦃before c after⦄, Grows session before → BindsCondition before expr c after → after.partitionBound = true

theorem Session.Accepts.and {left right : Expr} (first : s.Accepts left) (second : s.Accepts right) :
    s.Accepts (.and left right) := by
  intro before grows
  obtain ⟨l, u, bindsLeft⟩ := first grows
  obtain ⟨r, t, bindsRight⟩ := second (grows.trans bindsLeft.grows)
  exact ⟨.and l r, t, .and bindsLeft bindsRight⟩

theorem Session.Notes.and {left right : Expr} (notes : s.Notes left ∨ s.Notes right) : s.Notes (.and left right) := by
  intro before c after grows binds
  cases binds with
  | and bindsLeft bindsRight =>
    rcases notes with first | second
    · exact bindsRight.grows.partition (first grows bindsLeft)
    · exact second (grows.trans bindsLeft.grows) bindsRight

namespace BindsEach

theorem grows {exprs : List Expr} {conditions : List TokenCondition} (each : BindsEach s exprs conditions t) :
    Grows s t := by
  induction each with
  | nil => exact .refl _
  | cons first _ ih => exact first.grows.trans ih

theorem of_accepts {exprs : List Expr} (accepts : ∀ expr ∈ exprs, s.Accepts expr) (grown : Grows s u) :
    ∃ conditions t, BindsEach u exprs conditions t := by
  induction exprs generalizing u with
  | nil => exact ⟨[], u, .nil⟩
  | cons expr rest ih =>
    rw [List.forall_mem_cons] at accepts
    obtain ⟨c, v, binds⟩ := accepts.1 grown
    obtain ⟨conditions, t, later⟩ := ih accepts.2 (grown.trans binds.grows)
    exact ⟨c :: conditions, t, .cons binds later⟩

/-- One tree that notes the partition key is enough. -/
theorem noted {exprs : List Expr} {conditions : List TokenCondition} (each : BindsEach u exprs conditions t)
    (grown : Grows s u) {expr : Expr} (member : expr ∈ exprs) (notes : s.Notes expr) : t.partitionBound = true := by
  induction each with
  | nil => cases member
  | cons binds rest ih =>
    rcases List.mem_cons.1 member with rfl | later
    · exact rest.grows.partition (notes grown binds)
    · exact ih (grown.trans binds.grows) later

theorem formula? {exprs : List Expr} {conditions : List TokenCondition} {names : Table String}
    {values : Table AttributeValue} (each : BindsEach s exprs conditions t) (distinct : s.names.Distinct)
    (within : t.Within names values) :
    ∃ formulas, exprs.mapM s.knowledge.formula? = some formulas ∧
      conditions.mapM (TokenCondition.formula? names values) = some formulas := by
  induction each with
  | nil => exact ⟨[], rfl, rfl⟩
  | cons first rest ih =>
    obtain ⟨formula, source, bound⟩ := first.formula? distinct (rest.grows.within within)
    obtain ⟨formulas, sources, bounds⟩ := ih (first.grows.distinct distinct) within
    rw [first.grows.knowledge] at sources
    exact ⟨formula :: formulas, by simp [source, sources], by simp [bound, bounds]⟩

end BindsEach

/-! ## A test of each key -/

/-- How a test of the partition key and one of the sort key are given: which comes first, and whether they are joined to
one condition. -/
structure KeyOrder where
  sortFirst : Bool
  joined : Bool

namespace KeyOrder

variable {α β : Type}

/-- What is given of a thing for the partition key, and another for the sort key if there is one. -/
def arrange (order : KeyOrder) (and : α → α → α) (pin : α) : Option α → List α
  | none => [pin]
  | some range =>
    match order.sortFirst, order.joined with
    | false, false => [pin, range]
    | false, true => [and pin range]
    | true, false => [range, pin]
    | true, true => [and range pin]

theorem arrange_ne_nil (order : KeyOrder) (and : α → α → α) (pin : α) (range : Option α) :
    order.arrange and pin range ≠ [] := by
  obtain ⟨sortFirst, joined⟩ := order
  cases range <;> cases sortFirst <;> cases joined <;> simp [arrange]

theorem forall_mem_arrange (order : KeyOrder) {and : α → α → α} {p : α → Prop} {pin : α} {range : Option α}
    (closed : ∀ {a b}, p a → p b → p (and a b)) (first : p pin) (second : ∀ a ∈ range, p a) :
    ∀ a ∈ order.arrange and pin range, p a := by
  obtain ⟨sortFirst, joined⟩ := order
  cases range with
  | none => simpa [arrange] using first
  | some range =>
    have second := second range rfl
    cases sortFirst <;> cases joined <;> simp [arrange, first, second, closed]

theorem exists_mem_arrange (order : KeyOrder) {and : α → α → α} {p : α → Prop} {pin : α} (range : Option α)
    (closed : ∀ {a b}, p a ∨ p b → p (and a b)) (first : p pin) : ∃ a ∈ order.arrange and pin range, p a := by
  obtain ⟨sortFirst, joined⟩ := order
  cases range with
  | none => simpa [arrange] using first
  | some range => cases sortFirst <;> cases joined <;> simp [arrange, first, closed]

theorem mapM_arrange (order : KeyOrder) {f : α → Option β} {and : α → α → α} {and' : β → β → β} {pin : α} {pin' : β}
    {range : Option α} {range' : Option β} (closed : ∀ {a b a' b'}, f a = some a' → f b = some b' →
      f (and a b) = some (and' a' b')) (first : f pin = some pin') (second : range.map f = range'.map some) :
    (order.arrange and pin range).mapM f = some (order.arrange and' pin' range') := by
  obtain ⟨sortFirst, joined⟩ := order
  cases range with
  | none =>
    cases range' with
    | none => simp [arrange, first]
    | some => cases second
  | some range =>
    cases range' with
    | none => cases second
    | some range' =>
      have second : f range = some range' := by simpa using second
      cases sortFirst <;> cases joined <;>
        simp [arrange, first, second, closed first second, closed second first]

/-- The trees of a test of the partition key and of one of the sort key. -/
def trees (order : KeyOrder) (pin : KeyPart) (range : Option KeyPart) : List Expr :=
  order.arrange .and pin.tree (range.map KeyPart.tree)

/-- What they say. -/
def formulas (order : KeyOrder) (pin : KeyPart) (range : Option KeyPart) : List (Formula Atom) :=
  order.arrange .and (.atom pin.atom) (range.map fun part => .atom part.atom)

variable {pin : KeyPart} {range : Option KeyPart}

/-- Allowed tests are compiled however they are given, and that of the partition key is noted. -/
theorem bindsEach_trees (order : KeyOrder) (allowed : pin.Allowed s)
    (partition : s.isPartitionKey pin.property = true) (allowedRange : ∀ part ∈ range, part.Allowed s) :
    ∃ conditions t, BindsEach s (order.trees pin range) conditions t ∧ t.partitionBound = true := by
  have acceptsPart : ∀ {part : KeyPart}, part.Allowed s → s.Accepts part.tree :=
    fun allowed _ grows => (allowed.later grows).binds
  have accepts : ∀ expr ∈ order.trees pin range, s.Accepts expr := by
    refine order.forall_mem_arrange Session.Accepts.and (acceptsPart allowed) fun expr member => ?_
    obtain ⟨part, given, rfl⟩ := Option.map_eq_some_iff.1 member
    exact acceptsPart (allowedRange part given)
  have notesPin : s.Notes pin.tree := fun _ _ _ grows binds =>
    (allowed.later grows).noted (grows.isPartitionKey ▸ partition) binds
  obtain ⟨expr, member, notes⟩ : ∃ expr ∈ order.trees pin range, s.Notes expr :=
    order.exists_mem_arrange _ Session.Notes.and notesPin
  obtain ⟨conditions, t, each⟩ := BindsEach.of_accepts accepts (.refl s)
  exact ⟨conditions, t, each, each.noted (.refl s) member notes⟩

theorem formula?_trees (order : KeyOrder) (allowed : pin.Allowed s) (allowedRange : ∀ part ∈ range, part.Allowed s) :
    (order.trees pin range).mapM s.knowledge.formula? = some (order.formulas pin range) := by
  refine order.mapM_arrange (fun first second => ?_) allowed.formula? ?_
  · simp [Expr.and, Knowledge.formula?, first, second]
  · cases range with
    | none => rfl
    | some part => simp [(allowedRange part rfl).formula?]

end KeyOrder

end ItemExpr

import ItemExpr.Proofs.Binding
import ItemExpr.Token

/-!
# What conditions on keys refer to

A condition that is compiled as one on keys refers to nothing but properties of the key that the session looks at, and
has no path below one. The session notes that the partition key is compared only where the condition has a comparison
of it with `=`.
-/

namespace ItemExpr

open Session

/-! ## The tokens and the comparisons of a condition -/

def TokenStep.nameTokens : TokenStep → List String
  | .field token => [token]
  | .index _ => []

def TokenPath.nameTokens (path : TokenPath) : List String :=
  path.root :: path.tail.flatMap TokenStep.nameTokens

def TokenOperand.nameTokens : TokenOperand → List String
  | .path target | .size target => target.nameTokens
  | .value _ => []

namespace TokenCondition

/-- The name tokens of a condition, in order. -/
def nameTokens : TokenCondition → List String
  | .compare _ left right => left.nameTokens ++ right.nameTokens
  | .between subject low high => subject.nameTokens ++ low.nameTokens ++ high.nameTokens
  | .isIn subject candidates => subject.nameTokens ++ candidates.flatMap TokenOperand.nameTokens
  | .exists path | .notExists path | .hasType path _ => path.nameTokens
  | .beginsWith path operand | .contains path operand => path.nameTokens ++ operand.nameTokens
  | .and left right | .or left right => left.nameTokens ++ right.nameTokens
  | .not inner => inner.nameTokens

/-- The comparisons of a condition, in order. -/
def comparisons : TokenCondition → List (Comparison × TokenOperand × TokenOperand)
  | .compare op left right => [(op, left, right)]
  | .and left right | .or left right => left.comparisons ++ right.comparisons
  | .not inner => inner.comparisons
  | _ => []

/-- Whether a condition has a comparison with `=` of which one side is an attribute. -/
def Equates (names : Table String) (attributeName : String) (condition : TokenCondition) : Prop :=
  ∃ token other, names.value? token = some attributeName ∧
    ((.eq, .path ⟨token, []⟩, other) ∈ condition.comparisons ∨ (.eq, other, .path ⟨token, []⟩) ∈ condition.comparisons)

theorem Equates.and_left {names : Table String} {attributeName : String} {left : TokenCondition}
    (equates : left.Equates names attributeName) (right : TokenCondition) :
    (TokenCondition.and left right).Equates names attributeName := by
  obtain ⟨token, other, bound, side⟩ := equates
  exact ⟨token, other, bound, side.imp (List.mem_append_left _) (List.mem_append_left _)⟩

theorem Equates.and_right {names : Table String} {attributeName : String} {right : TokenCondition}
    (equates : right.Equates names attributeName) (left : TokenCondition) :
    (TokenCondition.and left right).Equates names attributeName := by
  obtain ⟨token, other, bound, side⟩ := equates
  exact ⟨token, other, bound, side.imp (List.mem_append_right _) (List.mem_append_right _)⟩

theorem Equates.mono {first second : Table String} {attributeName : String} {condition : TokenCondition}
    (more : first <+: second) (equates : condition.Equates first attributeName) :
    condition.Equates second attributeName := by
  obtain ⟨token, other, bound, side⟩ := equates
  exact ⟨token, other, Table.value?_of_prefix more bound, side⟩

end TokenCondition

/-- Each of some tokens stands for an attribute of a kind. -/
def StandFor (names : Table String) (kind : String → Prop) (tokens : List String) : Prop :=
  ∀ token ∈ tokens, ∃ attributeName, names.value? token = some attributeName ∧ kind attributeName

theorem StandFor.nil {names : Table String} {kind : String → Prop} : StandFor names kind [] :=
  fun _ member => absurd member List.not_mem_nil

theorem StandFor.append {names : Table String} {kind : String → Prop} {first second : List String}
    (left : StandFor names kind first) (right : StandFor names kind second) :
    StandFor names kind (first ++ second) :=
  List.forall_mem_append.2 ⟨left, right⟩

theorem StandFor.mono {first second : Table String} {narrow wide : String → Prop} {tokens : List String}
    (more : first <+: second) (wider : ∀ attributeName, narrow attributeName → wide attributeName)
    (stand : StandFor first narrow tokens) : StandFor second wide tokens := by
  intro token member
  obtain ⟨attributeName, bound, kind⟩ := stand token member
  exact ⟨attributeName, Table.value?_of_prefix more bound, wider attributeName kind⟩

/-! ## Conditions on keys -/

/-- Whether an attribute stores a property that belongs to the key that a session looks at. -/
def Session.IsKeyAttribute (session : Session) (attributeName : String) : Prop :=
  ∃ root property, session.property root = .ok property ∧ session.isKey property = true ∧
    property.attributeName = attributeName

variable {s t u : Session} {entity : Entity} {names : Table String}

theorem Session.Grows.isKeyAttribute {before after : Session} (grows : Grows before after) :
    after.IsKeyAttribute = before.IsKeyAttribute := by
  funext attributeName
  simp only [Session.IsKeyAttribute, grows.property, grows.isKey]

/-- A path in a condition on keys is a property of the key, and nothing below it. -/
theorem Resolves.key_of_keysOnly {path : Path} {resolved : ResolvedPath} (resolves : Resolves s path resolved t)
    (keys : s.keysOnly = true) (known : s.entity = some entity) :
    ∃ root, path = ⟨[.field root]⟩ ∧ s.property root = .ok resolved.property ∧
      s.isKey resolved.property = true ∧
      resolved.path = ⟨(s.names.bind resolved.property.attributeName).1, []⟩ ∧
      t.names = (s.names.bind resolved.property.attributeName).2 := by
  cases resolves with
  | @root root tail property steps final found checked flat binds =>
    -- Below a property of a known entity the path would have been refused.
    have noTail : tail = [] := by
      cases tail with
      | nil => rfl
      | cons step rest =>
        have unknown := flat (List.cons_ne_nil _ _) keys
        rw [known] at unknown
        cases unknown
    subst noTail
    cases binds
    have key : s.isKey property = true := by
      unfold checkMode at checked
      rw [keys, known] at checked
      cases result : s.isKey property with
      | true => rfl
      | false => simp [result] at checked
    exact ⟨root, rfl, found, key, rfl, rfl⟩

/-- The token of a path in a condition on keys stands for the attribute of its property. -/
theorem Resolves.of_keysOnly {path : Path} {resolved : ResolvedPath} (resolves : Resolves s path resolved t)
    (keys : s.keysOnly = true) (known : s.entity = some entity) (distinct : s.names.Distinct) :
    ∃ root token, path = ⟨[.field root]⟩ ∧ s.property root = .ok resolved.property ∧
      s.isKey resolved.property = true ∧ resolved.path = ⟨token, []⟩ ∧
      t.names.bindings.value? token = some resolved.property.attributeName := by
  obtain ⟨root, flat, found, key, token, bound⟩ := resolves.key_of_keysOnly keys known
  exact ⟨root, _, flat, found, key, token, bound ▸ NameTable.attribute?_bind distinct _⟩

theorem Resolves.standFor {path : Path} {resolved : ResolvedPath} (resolves : Resolves s path resolved t)
    (keys : s.keysOnly = true) (known : s.entity = some entity) (distinct : s.names.Distinct)
    (more : t.names.bindings <+: names) : StandFor names s.IsKeyAttribute resolved.path.nameTokens := by
  obtain ⟨root, token, rfl, found, key, flat, bound⟩ := resolves.of_keysOnly keys known distinct
  rw [flat]
  intro name member
  obtain rfl := List.mem_singleton.1 member
  exact ⟨_, Table.value?_of_prefix more bound, root, _, found, key, rfl⟩

theorem BindsOperand.standFor {rules : Option Property} {expr : Expr} {operand : TokenOperand}
    (binds : BindsOperand s rules expr operand t) (keys : s.keysOnly = true) (known : s.entity = some entity)
    (distinct : s.names.Distinct) (more : t.names.bindings <+: names) :
    StandFor names s.IsKeyAttribute operand.nameTokens := by
  cases binds with
  | path resolves => exact resolves.standFor keys known distinct more
  | value => exact .nil
  | size resolves _ => simp_all

/-- What is bound after something else has the same keys to refer to. -/
theorem BindsOperand.standFor_later {rules : Option Property} {expr : Expr} {operand : TokenOperand}
    (binds : BindsOperand u rules expr operand t) (grows : Grows s u) (keys : s.keysOnly = true)
    (known : s.entity = some entity) (distinct : s.names.Distinct) (more : t.names.bindings <+: names) :
    StandFor names s.IsKeyAttribute operand.nameTokens := by
  rw [← grows.isKeyAttribute]
  exact binds.standFor (grows.keysOnly.trans keys) (grows.entity.trans known) (grows.distinct distinct) more

theorem BindsPair.standFor {left right : Expr} {l r : TokenOperand} (binds : BindsPair s left right l r t)
    (keys : s.keysOnly = true) (known : s.entity = some entity) (distinct : s.names.Distinct)
    (more : t.names.bindings <+: names) :
    StandFor names s.IsKeyAttribute l.nameTokens ∧ StandFor names s.IsKeyAttribute r.nameTokens := by
  cases binds with
  | pathLeft resolves other =>
    have behind := other.grows.prefix_names.trans more
    exact ⟨resolves.standFor keys known distinct behind,
      other.standFor_later resolves.grows keys known distinct more⟩
  | pathRight _ resolves other =>
    have behind := other.grows.prefix_names.trans more
    exact ⟨other.standFor_later resolves.grows keys known distinct more,
      resolves.standFor keys known distinct behind⟩
  | noPath _ _ first second =>
    have behind := second.grows.prefix_names.trans more
    exact ⟨first.standFor keys known distinct behind,
      second.standFor_later first.grows keys known distinct more⟩

theorem BindsSubject.standFor {expr : Expr} {operand : TokenOperand} {rules : Option Property}
    (binds : BindsSubject s expr operand rules t) (keys : s.keysOnly = true) (known : s.entity = some entity)
    (distinct : s.names.Distinct) (more : t.names.bindings <+: names) :
    StandFor names s.IsKeyAttribute operand.nameTokens := by
  cases binds with
  | path resolves => exact resolves.standFor keys known distinct more
  | other _ binds => exact binds.standFor keys known distinct more

/-- A condition on keys. These are the rules that are left of those for conditions. -/
inductive BindsKeyCondition : Session → Expr → TokenCondition → Session → Prop where
  | and {s u t : Session} {left right : Expr} {l r : TokenCondition} :
    BindsKeyCondition s left l u → BindsKeyCondition u right r t →
      BindsKeyCondition s (.and left right) (.and l r) t
  | compare {s t : Session} {op : Comparison} {left right : Expr} {l r : TokenOperand} {pins : Bool} :
    s.keysOnly = true → op ≠ .ne → (pins = true ↔ s.PinsPartition left ∨ s.PinsPartition right) →
    (pins = true → op = .eq) → BindsPair s left right l r t →
      BindsKeyCondition s (.compare op left right) (.compare op l r) (t.noting pins)
  | beginsWith {s u t : Session} {path : Path} {resolved : ResolvedPath} {start : Expr} {operand : TokenOperand} :
    s.keysOnly = true → ¬ s.PinsPartition (.member path) → Resolves s path resolved u →
    BindsOperand u resolved.rules start operand t →
      BindsKeyCondition s (.call "begins_with" [.member path, start]) (.beginsWith resolved.path operand) t
  | between {s u v t : Session} {tested low high : Expr} {subject l h : TokenOperand} {rules : Option Property} :
    s.keysOnly = true → ¬ s.PinsPartition tested → BindsSubject s tested subject rules u →
    BindsOperand u rules low l v → BindsOperand v rules high h t →
      BindsKeyCondition s (.call "between" [tested, low, high]) (.between subject l h) t

theorem BindsCondition.onKeys {expr : Expr} {c : TokenCondition} (binds : BindsCondition s expr c t)
    (keys : s.keysOnly = true) : BindsKeyCondition s expr c t := by
  induction binds with
  | and left _ ihLeft ihRight => exact .and (ihLeft keys) (ihRight (left.grows.keysOnly.trans keys))
  | compare unrestricted pinned equality pair =>
    refine .compare keys (fun same => ?_) pinned equality pair
    rw [unrestricted same] at keys
    cases keys
  | beginsWith free resolves other => exact .beginsWith keys free resolves other
  | between free subject low high => exact .between keys free subject low high
  -- None of these is accepted in a condition on keys.
  | or unrestricted | not unrestricted | «exists» unrestricted | notExists unrestricted | hasType unrestricted
  | contains unrestricted | isIn unrestricted =>
    rw [keys] at unrestricted
    cases unrestricted

namespace BindsKeyCondition

theorem grows {expr : Expr} {c : TokenCondition} (binds : BindsKeyCondition s expr c t) : Grows s t := by
  induction binds with
  | and _ _ ihLeft ihRight => exact ihLeft.trans ihRight
  | compare _ _ _ _ pair => exact pair.grows.trans (grows_noting ..)
  | beginsWith _ _ resolves other => exact resolves.grows.trans other.grows
  | between _ _ subject low high => exact subject.grows.trans (low.grows.trans high.grows)

/-- A condition on keys refers to attributes of the key alone. -/
theorem standFor {expr : Expr} {c : TokenCondition} (binds : BindsKeyCondition s expr c t)
    (known : s.entity = some entity) (distinct : s.names.Distinct) (more : t.names.bindings <+: names) :
    StandFor names s.IsKeyAttribute c.nameTokens := by
  induction binds with
  | and left right ihLeft ihRight =>
    have stand := ihRight (left.grows.entity.trans known) (left.grows.distinct distinct) more
    rw [left.grows.isKeyAttribute] at stand
    exact (ihLeft known distinct (right.grows.prefix_names.trans more)).append stand
  | compare keys _ _ _ pair =>
    obtain ⟨left, right⟩ := pair.standFor keys known distinct more
    exact left.append right
  | beginsWith keys _ resolves other =>
    have behind := other.grows.prefix_names.trans more
    exact (resolves.standFor keys known distinct behind).append
      (other.standFor_later resolves.grows keys known distinct more)
  | between keys _ subject low high =>
    have behindLow := high.grows.prefix_names.trans more
    have behindSubject := low.grows.prefix_names.trans behindLow
    exact ((subject.standFor keys known distinct behindSubject).append
      (low.standFor_later subject.grows keys known distinct behindLow)).append
      (high.standFor_later (subject.grows.trans low.grows) keys known distinct more)

end BindsKeyCondition

/-! ## The partition key -/

theorem partitionBound_of_bindValue {value : AttributeValue} {token : String}
    (run : SessionM.bindValue value s = .ok token t) : t.partitionBound = s.partitionBound := by
  obtain ⟨n, _, _, _, rfl⟩ := SessionM.bindValue_eq_ok run
  rfl

theorem Resolves.partitionBound {path : Path} {resolved : ResolvedPath} (resolves : Resolves s path resolved t) :
    t.partitionBound = s.partitionBound := by
  cases resolves
  rfl

theorem BindsOperand.partitionBound {rules : Option Property} {expr : Expr} {operand : TokenOperand}
    (binds : BindsOperand s rules expr operand t) : t.partitionBound = s.partitionBound := by
  cases binds with
  | path resolves => exact resolves.partitionBound
  | value _ run => exact partitionBound_of_bindValue run
  | size _ resolves => exact resolves.partitionBound

theorem BindsAll.partitionBound {rules : Option Property} {exprs : List Expr} {operands : List TokenOperand}
    (binds : BindsAll rules s exprs operands t) : t.partitionBound = s.partitionBound := by
  induction binds with
  | nil => rfl
  | cons first _ ih => exact ih.trans first.partitionBound

theorem BindsPair.partitionBound {left right : Expr} {l r : TokenOperand} (binds : BindsPair s left right l r t) :
    t.partitionBound = s.partitionBound := by
  cases binds with
  | pathLeft resolves other => exact other.partitionBound.trans resolves.partitionBound
  | pathRight _ resolves other => exact other.partitionBound.trans resolves.partitionBound
  | noPath _ _ first second => exact second.partitionBound.trans first.partitionBound

theorem BindsSubject.partitionBound {expr : Expr} {operand : TokenOperand} {rules : Option Property}
    (binds : BindsSubject s expr operand rules t) : t.partitionBound = s.partitionBound := by
  cases binds with
  | path resolves => exact resolves.partitionBound
  | other _ binds => exact binds.partitionBound

/-- Outside of conditions on keys nothing is noted. -/
theorem BindsCondition.partitionBound {expr : Expr} {c : TokenCondition} (binds : BindsCondition s expr c t)
    (unrestricted : s.keysOnly = false) : t.partitionBound = s.partitionBound := by
  induction binds with
  | and left _ ihLeft ihRight | or _ left _ ihLeft ihRight =>
    exact (ihRight (left.grows.keysOnly.trans unrestricted)).trans (ihLeft unrestricted)
  | not _ _ ih => exact ih unrestricted
  | @compare s t op left right l r pins _ pinned _ pair =>
    have unpinned : pins = false := by
      cases pins with
      | false => rfl
      | true =>
        obtain ⟨keys, _⟩ | ⟨keys, _⟩ := pinned.1 rfl <;> simp_all
    rw [unpinned]
    simpa [noting] using pair.partitionBound
  | «exists» _ resolves | notExists _ resolves => exact resolves.partitionBound
  | hasType _ _ resolves run => exact (partitionBound_of_bindValue run).trans resolves.partitionBound
  | beginsWith _ resolves other | contains _ resolves other =>
    exact other.partitionBound.trans resolves.partitionBound
  | between _ subject low high =>
    exact high.partitionBound.trans (low.partitionBound.trans subject.partitionBound)
  | isIn _ _ subject all => exact all.partitionBound.trans subject.partitionBound

/-- How a side of a comparison is bound if it is a path. -/
def ResolvesOnTheWay (s : Session) (expr : Expr) (operand : TokenOperand) (t : Session) : Prop :=
  ∀ path, expr = .member path →
    ∃ resolved u v, Grows s u ∧ Resolves u path resolved v ∧ Grows v t ∧ operand = .path resolved.path

theorem BindsPair.sides {left right : Expr} {l r : TokenOperand} (binds : BindsPair s left right l r t) :
    ResolvesOnTheWay s left l t ∧ ResolvesOnTheWay s right r t := by
  cases binds with
  | pathLeft resolves other =>
    refine ⟨?_, ?_⟩
    · rintro _ ⟨⟩
      exact ⟨_, _, _, .refl s, resolves, other.grows, rfl⟩
    -- The other side is bound as an operand, which for a path is the same.
    · rintro _ rfl
      cases other with
      | path resolvesOther => exact ⟨_, _, _, resolves.grows, resolvesOther, .refl t, rfl⟩
  | pathRight noPath resolves other =>
    refine ⟨fun path same => absurd same (noPath path), ?_⟩
    rintro _ ⟨⟩
    exact ⟨_, _, _, .refl s, resolves, other.grows, rfl⟩
  | noPath noLeft noRight _ _ =>
    exact ⟨fun path same => absurd same (noLeft path), fun path same => absurd same (noRight path)⟩

/-- A side that is the partition key becomes the token of its attribute. -/
theorem Session.PinsPartition.token {expr : Expr} {operand : TokenOperand} (pins : s.PinsPartition expr)
    (side : ResolvesOnTheWay s expr operand t) (distinct : s.names.Distinct) (more : t.names.bindings <+: names) :
    ∃ root property token, s.property root = .ok property ∧ s.isPartitionKey property = true ∧
      names.value? token = some property.attributeName ∧ operand = .path ⟨token, []⟩ := by
  obtain ⟨keys, root, tail, property, same, found, partition⟩ := pins
  obtain ⟨resolved, u, v, before, resolves, later, rfl⟩ := side _ same
  obtain ⟨entity, known⟩ : ∃ entity, s.entity = some entity := by
    unfold isPartitionKey at partition
    exact Option.isSome_iff_exists.1 (Bool.and_eq_true_iff.1 partition).1
  obtain ⟨root', token, samePath, declared, _, flat, bound⟩ :=
    resolves.of_keysOnly (before.keysOnly.trans keys) (before.entity.trans known) (before.distinct distinct)
  cases samePath
  rw [before.property, found] at declared
  cases declared
  have boundLater := Table.value?_of_prefix (later.prefix_names.trans more) bound
  exact ⟨root, _, token, found, partition, boundLater, by rw [flat]⟩

/-- The note that the partition key is compared is made by a condition on keys that has such a comparison in it. -/
theorem BindsKeyCondition.partition {expr : Expr} {c : TokenCondition} (binds : BindsKeyCondition s expr c t)
    (distinct : s.names.Distinct) (more : t.names.bindings <+: names) (noted : t.partitionBound = true) :
    s.partitionBound = true ∨ ∃ root property, s.property root = .ok property ∧
      s.isPartitionKey property = true ∧ c.Equates names property.attributeName := by
  induction binds with
  | and left right ihLeft ihRight =>
    -- A note that is there in the end was made by the right side, by the left side, or before.
    obtain earlier | ⟨root, property, found, partition, equates⟩ :=
      ihRight (left.grows.distinct distinct) more noted
    · obtain before | ⟨root, property, found, partition, equates⟩ :=
        ihLeft distinct (right.grows.prefix_names.trans more) earlier
      · exact .inl before
      · exact .inr ⟨root, property, found, partition, equates.and_left _⟩
    · rw [left.grows.property] at found
      rw [left.grows.isPartitionKey] at partition
      exact .inr ⟨root, property, found, partition, equates.and_right _⟩
  | @compare s t op left right l r pins _ _ pinned equality pair =>
    -- Only a comparison that pins the partition key sets the flag.
    cases pins with
    | false =>
      refine .inl (pair.partitionBound ▸ ?_)
      simpa [noting] using noted
    | true =>
      have eq : op = .eq := equality rfl
      subst eq
      obtain ⟨sideLeft, sideRight⟩ := pair.sides
      obtain pinsLeft | pinsRight := pinned.1 rfl
      · obtain ⟨root, property, token, found, partition, bound, rfl⟩ := pinsLeft.token sideLeft distinct more
        exact .inr ⟨root, property, found, partition, token, r, bound, .inl (by simp [TokenCondition.comparisons])⟩
      · obtain ⟨root, property, token, found, partition, bound, rfl⟩ := pinsRight.token sideRight distinct more
        exact .inr ⟨root, property, found, partition, token, l, bound, .inr (by simp [TokenCondition.comparisons])⟩
  | beginsWith _ _ resolves other =>
    exact .inl ((other.partitionBound.trans resolves.partitionBound) ▸ noted)
  | between _ _ subject low high =>
    exact .inl ((high.partitionBound.trans (low.partitionBound.trans subject.partitionBound)) ▸ noted)

end ItemExpr

import ItemExpr.Proofs.Binding.Run
import ItemExpr.Proofs.Encryption

/-!
# Literals that are written to encrypted properties

A literal in an update gets its rules from the target, with one exception: what stands in for a missing value in
`if_not_exists` gets them from the path that is tested. So a literal that is written to an encrypted property is
encrypted for it, unless it stands in for a place that starts at another property.
-/

namespace ItemExpr

open Session

/-! ## Places in values -/

/-- The path that a call tests, if one of its arguments stands in for what is missing there. -/
def testedPath? : String → List Expr → Option Path
  | "if_not_exists", [.member tested, _] => some tested
  | _, _ => none

/-- A literal occurs at an address in a tree, under a path that governs it: the innermost one that is tested around it,
or else an outer one. An address counts the sides of an operator and the arguments of a call from zero. -/
inductive Occurs (value : Value) : (outer : Path) → Expr → List Nat → (governor : Path) → Prop where
  | here {outer : Path} : Occurs value outer (.constant value) [] outer
  | left {outer governor : Path} {op : BinaryOp} {left right : Expr} {address : List Nat} :
    Occurs value outer left address governor → Occurs value outer (.binary op left right) (0 :: address) governor
  | right {outer governor : Path} {op : BinaryOp} {left right : Expr} {address : List Nat} :
    Occurs value outer right address governor → Occurs value outer (.binary op left right) (1 :: address) governor
  | inner {outer governor : Path} {inner : Expr} {address : List Nat} :
    Occurs value outer inner address governor → Occurs value outer (.not inner) (0 :: address) governor
  | argument {outer governor : Path} {method : String} {args : List Expr} {i : Nat} {arg : Expr}
      {address : List Nat} : args[i]? = some arg →
    Occurs value ((testedPath? method args).getD outer) arg address governor →
      Occurs value outer (.call method args) (i :: address) governor

/-- The value token at an address in a value. -/
def TokenValue.valueAt : TokenValue → List Nat → Option String
  | .operand leaf, [] => leaf.valueToken?
  | .add left _, 0 :: address | .subtract left _, 0 :: address | .listAppend left _, 0 :: address =>
    left.valueAt address
  | .add _ right, 1 :: address | .subtract _ right, 1 :: address | .listAppend _ right, 1 :: address =>
    right.valueAt address
  | .ifNotExists _ fallback, 1 :: address => fallback.valueAt address
  | _, _ => none

/-- The value token at an address in what an update does with its value. -/
def TokenUpdate.valueAt : TokenUpdate → List Nat → Option String
  | .set _ value, address => value.valueAt address
  | .add _ operand, [0] | .delete _ operand, [0] => operand.valueToken?
  | _, _ => none

variable {s t : Session} {property : Property} {value : Value} {outer governor : Path} {address : List Nat}

/-! ## What becomes of them -/

/-- The only literal in an operand is the operand itself. -/
theorem Occurs.of_operand {rules : Option Property} {expr : Expr} {operand : TokenOperand}
    (occurs : Occurs value outer expr address governor) (binds : BindsOperand s rules expr operand t) :
    expr = .constant value ∧ address = [] ∧ governor = outer := by
  cases occurs with
  | here => exact ⟨rfl, rfl, rfl⟩
  | left | right | inner => cases binds
  | @argument _ _ method args i arg address at_ sub =>
    generalize same : Expr.call method args = expr at binds
    cases binds with
    | size =>
      cases same
      cases i with
      | zero =>
        cases at_
        cases sub
      | succ i => cases at_
    | _ => cases same

/-- A literal in a value is treated as the property of its governor says. -/
theorem BindsUpdateValue.treats {rules : Option Property} {expr : Expr} {bound : TokenValue}
    (binds : BindsUpdateValue s rules expr bound t) (occurs : Occurs value outer expr address governor)
    (gives : ∀ {property}, s.RootedAt outer property → property.Gives rules) (rooted : s.RootedAt governor property) :
    BoundTo (bound.valueAt address) t.values (s.Treats property value) := by
  induction binds generalizing outer address with
  | operand _ binds =>
    obtain ⟨rfl, rfl, rfl⟩ := occurs.of_operand binds
    exact binds.treats (gives rooted)
  | add first second ihFirst ihSecond | subtract first second ihFirst ihSecond =>
    cases occurs with
    | left occurs => exact (ihFirst occurs gives rooted).mono second.grows.values fun _ kind => kind
    | right occurs =>
      have bound := ihSecond occurs (fun same => gives (first.grows.rootedAt.1 same)) (first.grows.rootedAt.2 rooted)
      exact bound.mono List.prefix_rfl fun _ => first.grows.treats.1
  | ifNotExists resolves fallback ih =>
    cases occurs with
    | @argument _ _ _ _ i _ _ at_ occurs =>
      match i, at_ with
      -- The first argument is the tested path, and there are no literals in it.
      | 0, at_ =>
        cases at_
        cases occurs
      | 1, at_ =>
        cases at_
        -- The tested path gives its rules to the fallback, in the place of the outer one.
        have bound := ih occurs (fun same => resolves.gives (resolves.grows.rootedAt.1 same))
          (resolves.grows.rootedAt.2 rooted)
        exact bound.mono List.prefix_rfl fun _ => resolves.grows.treats.1
  | listAppend first second ihFirst ihSecond =>
    cases occurs with
    | @argument _ _ _ _ i _ _ at_ occurs =>
      match i, at_ with
      | 0, at_ =>
        cases at_
        exact (ihFirst occurs gives rooted).mono second.grows.values fun _ kind => kind
      | 1, at_ =>
        cases at_
        have bound := ihSecond occurs (fun same => gives (first.grows.rootedAt.1 same))
          (first.grows.rootedAt.2 rooted)
        exact bound.mono List.prefix_rfl fun _ => first.grows.treats.1

theorem testedPath?_single (method : String) (arg : Expr) : testedPath? method [arg] = none := by
  unfold testedPath?
  split <;> simp_all

/-- The only literal in a call on an operand is the operand. -/
theorem BindsOperand.treats_argument {method : String} {arg : Expr} {resolved : ResolvedPath} {operand : TokenOperand}
    {u : Session} (resolves : Resolves s outer resolved u) (binds : BindsOperand u resolved.rules arg operand t)
    (occurs : Occurs value outer (.call method [arg]) address governor) (rooted : s.RootedAt governor property) :
    address = [0] ∧ BoundTo operand.valueToken? t.values (s.Treats property value) := by
  cases occurs with
  | @argument _ _ _ _ i _ _ at_ occurs =>
    match i, at_ with
    | 0, at_ =>
      cases at_
      rw [testedPath?_single, Option.getD_none] at occurs
      obtain ⟨rfl, rfl, rfl⟩ := occurs.of_operand binds
      exact ⟨rfl, binds.treats_later resolves.grows (.refl t) (resolves.gives rooted)⟩

/-- A literal in an update is treated as the property of its governor says. -/
theorem BindsUpdate.treats {assignment : Assignment} {update : TokenUpdate}
    (binds : BindsUpdate s assignment update t)
    (occurs : Occurs value assignment.target assignment.value address governor)
    (rooted : s.RootedAt governor property) :
    BoundTo (update.valueAt address) t.values (s.Treats property value) := by
  cases binds with
  | set resolves _ bound =>
    have treated := bound.treats occurs (fun same => resolves.gives (resolves.grows.rootedAt.1 same))
      (resolves.grows.rootedAt.2 rooted)
    exact treated.mono List.prefix_rfl fun _ => resolves.grows.treats.1
  | remove =>
    cases occurs with
    | argument at_ => cases at_
  | add _ resolves _ bound | delete resolves _ bound =>
    obtain ⟨rfl, treated⟩ := bound.treats_argument resolves occurs rooted
    exact treated

/-- A literal that is written to an encrypted property is encrypted for it, and without an encryptor the update is
refused. The exception is a literal that stands in, inside of `if_not_exists`, for a place that starts at another
property: it is treated as that property says, and stored in clear if that one is not encrypted. -/
theorem assignment_protects {session : Session} {entity : Entity} {assignment : Assignment} {root : String}
    (known : session.entity = some entity) (starts : assignment.target.root? = some root)
    (found : entity.property? root = some property) (encrypted : property.encrypted = true)
    (occurs : Occurs value assignment.target assignment.value address governor) :
    (governor.root? = assignment.target.root? →
      (SessionM.assignment assignment).Encrypts session (·.valueAt address) entity property value) ∧
    ∀ other governing, governor.root? = some other → entity.property? other = some governing →
      (governing.encrypted = true →
        (SessionM.assignment assignment).Encrypts session (·.valueAt address) entity governing value) ∧
      (governing.encrypted = false → ∀ update after, SessionM.assignment assignment session = .ok update after →
        ∃ token stored, update.valueAt address = some token ∧ after.values.value? token = some stored ∧
          session.Renders governing value stored) := by
  have treats : ∀ {other governing}, governor.root? = some other → entity.property? other = some governing →
      ∀ {update after}, SessionM.assignment assignment session = .ok update after →
        BoundTo (update.valueAt address) after.values (session.Treats governing value) :=
    fun governs declared _ _ run =>
      (assignment_binds run).treats occurs (rootedAt_of_root? known governs declared)
  constructor
  · intro same
    exact SessionM.encrypts_of_treats known encrypted (treats (same.trans starts) found)
  · intro other governing governs declared
    constructor
    · intro governingEncrypted
      exact SessionM.encrypts_of_treats known governingEncrypted (treats governs declared)
    · intro clear update after run
      obtain ⟨token, stored, at_, bound, treated⟩ := treats governs declared run
      rw [Session.Treats, if_neg (by simp [clear])] at treated
      exact ⟨token, stored, at_, bound, treated⟩

theorem assignment_protects_of_fallback :
    let start : Session := { Session.new .standard (some accounts) with encryptor := some tagging }
    let card : Path := ⟨[.field "CardNumber", .index 1]⟩
    let assignment : Assignment := ⟨card, .call "list_append" [.member ⟨[.field "Status"]⟩,
      .call "if_not_exists" [.member ⟨[.field "CardNumber"]⟩, .constant (.string "4111")]]⟩
    ∃ update after, SessionM.assignment assignment start = .ok update after ∧ ∃ token rendered bytes,
      update.valueAt [1, 1] = some token ∧ start.Renders cardNumber (.string "4111") rendered ∧
        tagging "accounts" "card" rendered.plaintext = .ok bytes ∧
        after.values.value? token = some (.binary bytes) := by
  intro start card assignment
  have answer : (SessionM.assignment assignment).answer? start = some
      (.set ⟨"#card", [.index 1]⟩ (.listAppend (.operand (.path ⟨"#status", []⟩))
        (.ifNotExists ⟨"#card", []⟩ (.operand (.value ":p0"))))) := by
    decide +kernel
  obtain ⟨after, run⟩ := SessionM.answer?_eq_some.1 answer
  have known : start.entity = some accounts := rfl
  have occurs : Occurs (.string "4111") assignment.target assignment.value [1, 1] ⟨[.field "CardNumber"]⟩ :=
    .argument rfl (.argument rfl .here)
  obtain ⟨encrypts, _⟩ := assignment_protects known rfl rfl rfl occurs
  exact ⟨_, after, run, (encrypts rfl).2 tagging _ after rfl run⟩

theorem assignment_clear_of_fallback :
    let start := Session.new .standard (some accounts)
    let assignment : Assignment := ⟨⟨[.field "CardNumber"]⟩,
      .call "if_not_exists" [.member ⟨[.field "Status"]⟩, .constant (.string "4111")]⟩
    start.encryptor = none ∧ (accounts.property? "CardNumber").map (·.encrypted) = some true ∧
      ∃ update after, SessionM.assignment assignment start = .ok update after ∧ update.valueAt [1] = some ":p0" ∧
        after.values.value? ":p0" = some (.string "4111") := by
  intro start assignment
  have answer : ((SessionM.assignment assignment).answer? start) = some
      (.set ⟨"#card", []⟩ (.ifNotExists ⟨"#status", []⟩ (.operand (.value ":p0")))) := by
    decide +kernel
  obtain ⟨after, run⟩ := SessionM.answer?_eq_some.1 answer
  have occurs : Occurs (.string "4111") assignment.target assignment.value [1] ⟨[.field "Status"]⟩ :=
    .argument rfl .here
  have rooted : start.RootedAt ⟨[.field "Status"]⟩ (.plain "Status" "status") := ⟨"Status", [], rfl, rfl⟩
  obtain ⟨token, stored, at_, bound, treated⟩ := (assignment_binds run).treats occurs rooted
  cases at_
  obtain rendered | rendered := treated <;> cases rendered <;>
  exact ⟨rfl, rfl, _, after, run, rfl, bound⟩

end ItemExpr

import ItemExpr.Proofs.Binding.Run
import ItemExpr.Proofs.Encryption

/-!
# Literals compared with encrypted properties

A literal in a condition gets its rules from the path that it is compared with, with one exception: what `between` and
`in` test has no rules, also where a path is among the bounds or the candidates. So a literal that is compared with an
encrypted property is encrypted, unless it is tested, and then it is stored in clear.
-/

namespace ItemExpr

open Session

/-! ## Places in trees and in conditions -/

/-- The part that a literal has in a comparison: it is what `between` or `in` tests, or it stands beside a path in any
other way. -/
inductive LiteralRole where
  | tested
  | beside
deriving DecidableEq

/-- A literal is compared with a path at an address in a tree. An address counts the sides of an operator and the
arguments of a call from zero. -/
inductive Compares (value : Value) (path : Path) : LiteralRole → Expr → List Nat → Prop where
  | left {op : Comparison} :
    Compares value path .beside (.binary (.comparison op) (.constant value) (.member path)) [0]
  | right {op : Comparison} :
    Compares value path .beside (.binary (.comparison op) (.member path) (.constant value)) [1]
  | low {high : Expr} : Compares value path .beside (.call "between" [.member path, .constant value, high]) [1]
  | high {low : Expr} : Compares value path .beside (.call "between" [.member path, low, .constant value]) [2]
  | candidate {candidates : List Expr} {i : Nat} : candidates[i]? = some (.constant value) →
      Compares value path .beside (.call "in" (.member path :: candidates)) [i + 1]
  | start : Compares value path .beside (.call "begins_with" [.member path, .constant value]) [1]
  | element : Compares value path .beside (.call "contains" [.member path, .constant value]) [1]
  | testedByLow {high : Expr} :
    Compares value path .tested (.call "between" [.constant value, .member path, high]) [0]
  | testedByHigh {low : Expr} :
    Compares value path .tested (.call "between" [.constant value, low, .member path]) [0]
  | testedByCandidate {candidates : List Expr} : .member path ∈ candidates →
      Compares value path .tested (.call "in" (.constant value :: candidates)) [0]
  | inLeft {role : LiteralRole} {op : Logical} {left right : Expr} {address : List Nat} :
    Compares value path role left address → Compares value path role (.binary (.logical op) left right) (0 :: address)
  | inRight {role : LiteralRole} {op : Logical} {left right : Expr} {address : List Nat} :
    Compares value path role right address → Compares value path role (.binary (.logical op) left right) (1 :: address)
  | inNot {role : LiteralRole} {inner : Expr} {address : List Nat} :
    Compares value path role inner address → Compares value path role (.not inner) (0 :: address)

/-- The value token at an address in a condition. -/
def TokenCondition.valueAt : TokenCondition → List Nat → Option String
  | .compare _ left _, [0] => left.valueToken?
  | .compare _ _ right, [1] => right.valueToken?
  | .between subject _ _, [0] => subject.valueToken?
  | .between _ low _, [1] => low.valueToken?
  | .between _ _ high, [2] => high.valueToken?
  | .isIn subject _, [0] => subject.valueToken?
  | .isIn _ candidates, [i + 1] => candidates[i]?.bind TokenOperand.valueToken?
  | .beginsWith _ operand, [1] | .contains _ operand, [1] => operand.valueToken?
  | .and left _, 0 :: address | .or left _, 0 :: address => left.valueAt address
  | .and _ right, 1 :: address | .or _ right, 1 :: address => right.valueAt address
  | .not inner, 0 :: address => inner.valueAt address
  | _, _ => none

variable {s t : Session} {property : Property} {value : Value} {path : Path}

/-! ## What becomes of them -/

theorem BindsAll.getElem? {rules : Option Property} {exprs : List Expr} {operands : List TokenOperand} {i : Nat}
    {expr : Expr} (binds : BindsAll rules s exprs operands t) (at_ : exprs[i]? = some expr) :
    ∃ operand u v, operands[i]? = some operand ∧ Grows s u ∧ BindsOperand u rules expr operand v ∧ Grows v t := by
  induction binds generalizing i with
  | nil => cases at_
  | @cons s u t first rest operand operands binds later ih =>
    cases i with
    | zero =>
      cases at_
      exact ⟨operand, s, u, rfl, .refl s, binds, later.grows⟩
    | succ i =>
      obtain ⟨found, v, w, same, before, bindsIt, behind⟩ := ih at_
      exact ⟨found, v, w, same, binds.grows.trans before, bindsIt, behind⟩

/-- A literal of which a comparison says that it is beside a path is treated as the property of the path says. -/
theorem Compares.treats {expr : Expr} {address : List Nat} {role : LiteralRole} {c : TokenCondition}
    (compares : Compares value path role expr address) (beside : role = .beside) (binds : BindsCondition s expr c t)
    (rooted : s.RootedAt path property) : BoundTo (c.valueAt address) t.values (s.Treats property value) := by
  induction compares generalizing s c t with
  | left =>
    cases binds with
    | compare _ _ _ pair =>
      cases pair with
      | pathRight _ resolves other =>
        exact other.treats_later resolves.grows (grows_noting ..) (resolves.gives rooted)
      -- The literal stands beside a path, so one of the rules for paths was used.
      | noPath _ noRight => exact absurd rfl (noRight path)
  | right =>
    cases binds with
    | compare _ _ _ pair =>
      cases pair with
      | pathLeft resolves other =>
        exact other.treats_later resolves.grows (grows_noting ..) (resolves.gives rooted)
      | noPath noLeft => exact absurd rfl (noLeft path)
  | low =>
    obtain ⟨_, l, h, rules, u, v, tested, low, high, rfl⟩ := binds.of_between
    obtain ⟨resolved, resolves, _, rfl⟩ := tested.of_member
    exact low.treats_later resolves.grows high.grows (resolves.gives rooted)
  | high =>
    obtain ⟨_, l, h, rules, u, v, tested, low, high, rfl⟩ := binds.of_between
    obtain ⟨resolved, resolves, _, rfl⟩ := tested.of_member
    exact high.treats_later (resolves.grows.trans low.grows) (.refl t) (resolves.gives rooted)
  -- Candidates are bound one after the other, but all under the rules of the path that is tested.
  | candidate at_ =>
    obtain ⟨_, operands, rules, u, tested, all, rfl⟩ := binds.of_in
    obtain ⟨resolved, resolves, _, rfl⟩ := tested.of_member
    obtain ⟨operand, v, w, found, before, bindsIt, later⟩ := all.getElem? at_
    rw [TokenCondition.valueAt, found, Option.bind_some]
    exact bindsIt.treats_later (resolves.grows.trans before) later (resolves.gives rooted)
  | start =>
    obtain ⟨resolved, operand, u, resolves, other, rfl⟩ := binds.of_beginsWith
    exact other.treats_later resolves.grows (.refl t) (resolves.gives rooted)
  | element =>
    obtain ⟨resolved, operand, u, resolves, other, rfl⟩ := binds.of_contains
    exact other.treats_later resolves.grows (.refl t) (resolves.gives rooted)
  | testedByLow | testedByHigh | testedByCandidate => cases beside
  | inLeft _ ih =>
    cases binds with
    | and left right => exact (ih beside left rooted).mono right.grows.values fun _ kind => kind
    | or _ left right => exact (ih beside left rooted).mono right.grows.values fun _ kind => kind
  | inRight _ ih =>
    cases binds with
    | and left right =>
      exact (ih beside right (left.grows.rootedAt.2 rooted)).mono List.prefix_rfl fun _ => left.grows.treats.1
    | or _ left right =>
      exact (ih beside right (left.grows.rootedAt.2 rooted)).mono List.prefix_rfl fun _ => left.grows.treats.1
  | inNot _ ih =>
    cases binds with
    | not _ inner => exact ih beside inner rooted

/-- A literal that is tested is stored in clear, whatever it is tested against. -/
theorem Compares.plain {expr : Expr} {address : List Nat} {role : LiteralRole} {c : TokenCondition}
    (compares : Compares value path role expr address) (tested : role = .tested) (binds : BindsCondition s expr c t) :
    BoundTo (c.valueAt address) t.values (value.render none s.dateFormat = .ok ·) := by
  induction compares generalizing s c t with
  | left | right | low | high | candidate | start | element => cases tested
  -- A literal that is tested is bound first and without rules, whatever stands behind it.
  | testedByLow | testedByHigh =>
    obtain ⟨_, l, h, rules, u, v, subject, low, high, rfl⟩ := binds.of_between
    exact subject.of_constant.1.plain.mono (low.grows.values.trans high.grows.values) fun _ kind => kind
  | testedByCandidate =>
    obtain ⟨_, operands, rules, u, subject, all, rfl⟩ := binds.of_in
    exact subject.of_constant.1.plain.mono all.grows.values fun _ kind => kind
  | inLeft _ ih =>
    cases binds with
    | and left right => exact (ih tested left).mono right.grows.values fun _ kind => kind
    | or _ left right => exact (ih tested left).mono right.grows.values fun _ kind => kind
  | inRight _ ih =>
    cases binds with
    | and left right => exact (ih tested right).mono List.prefix_rfl fun _ kind => left.grows.dateFormat ▸ kind
    | or _ left right => exact (ih tested right).mono List.prefix_rfl fun _ kind => left.grows.dateFormat ▸ kind
  | inNot _ ih =>
    cases binds with
    | not _ inner => exact ih tested inner

/-- A literal that is compared with an encrypted property is encrypted for it, and without an encryptor the condition is
refused. The exception is a literal that `between` or `in` tests: it is stored as it is rendered, in clear. -/
theorem condition_protects {session : Session} {entity : Entity} {expr : Expr} {address : List Nat}
    {role : LiteralRole} {root : String} (known : session.entity = some entity)
    (compares : Compares value path role expr address) (starts : path.root? = some root)
    (found : entity.property? root = some property) (encrypted : property.encrypted = true) :
    (role = .beside → (SessionM.condition expr).Encrypts session (·.valueAt address) entity property
      value) ∧
    (role = .tested → ∀ c after, SessionM.condition expr session = .ok c after →
      ∃ token stored, c.valueAt address = some token ∧ after.values.value? token = some stored ∧
        value.render none session.dateFormat = .ok stored) := by
  have rooted := rootedAt_of_root? known starts found
  constructor
  · intro beside
    exact SessionM.encrypts_of_treats known encrypted fun run => compares.treats beside (condition_binds run) rooted
  · intro tested c after run
    exact compares.plain tested (condition_binds run)

theorem condition_protects_of_candidate :
    let start : Session := { Session.new .standard (some accounts) with encryptor := some tagging }
    let expr : Expr := .binary (.logical .and) (.call "attribute_exists" [.member ⟨[.field "Status"]⟩])
      (.call "in" [.member ⟨[.field "CardNumber", .index 0]⟩, .member ⟨[.field "Status"]⟩, .constant (.string "4111")])
    ∃ c after, SessionM.condition expr start = .ok c after ∧ ∃ token rendered bytes,
      c.valueAt [1, 2] = some token ∧ start.Renders cardNumber (.string "4111") rendered ∧
        tagging "accounts" "card" rendered.plaintext = .ok bytes ∧
        after.values.value? token = some (.binary bytes) := by
  intro start expr
  have answer : (SessionM.condition expr).answer? start = some
      (.and (.exists ⟨"#status", []⟩) (.isIn (.path ⟨"#card", [.index 0]⟩) [.path ⟨"#status", []⟩, .value ":p0"])) := by
    decide +kernel
  obtain ⟨after, run⟩ := SessionM.answer?_eq_some.1 answer
  have compares : Compares (.string "4111") ⟨[.field "CardNumber", .index 0]⟩ .beside expr [1, 2] :=
    .inRight (.candidate rfl)
  have known : start.entity = some accounts := rfl
  obtain ⟨beside, _⟩ := condition_protects known compares rfl rfl rfl
  exact ⟨_, after, run, (beside rfl).2 tagging _ after rfl run⟩

theorem condition_clear_of_tested :
    let start := Session.new .standard (some accounts)
    let card : Path := ⟨[.field "CardNumber"]⟩
    let expr : Expr := .call "between" [.constant (.string "4111"), .member card, .constant (.string "9")]
    Compares (.string "4111") card .tested expr [0] ∧ start.encryptor = none ∧
      (accounts.property? "CardNumber").map (·.encrypted) = some true ∧
      ∃ c after, SessionM.condition expr start = .ok c after ∧ c.valueAt [0] = some ":p0" ∧
        after.values.value? ":p0" = some (.string "4111") := by
  intro start card expr
  have compares : Compares (.string "4111") card .tested expr [0] := .testedByLow
  have answer : (SessionM.condition expr).answer? start = some
      (.between (.value ":p0") (.path ⟨"#card", []⟩) (.value ":p1")) := by
    decide +kernel
  obtain ⟨after, run⟩ := SessionM.answer?_eq_some.1 answer
  obtain ⟨token, stored, at_, bound, rendered⟩ := compares.plain rfl (condition_binds run)
  cases at_
  cases rendered
  exact ⟨compares, rfl, rfl, _, after, run, rfl, bound⟩

end ItemExpr

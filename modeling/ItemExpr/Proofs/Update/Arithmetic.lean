import Mathlib.Algebra.Ring.Rat
import Mathlib.Tactic.NormNum.Basic
import ItemExpr.Proofs.Binding.Readable
import ItemExpr.Proofs.Condition.Formula
import ItemExpr.Proofs.Encryption.Update
import ItemExpr.Proofs.Subtree
import ItemExpr.Proofs.Update.Reading

/-!
# What sums and differences are worth

Trees of updates and values over tokens are both worth a number, once the places, the tokens and the functions are. A
value over tokens is always worth what its tree is. What is read from its text is the same only where nothing but single
operands and functions is subtracted: `a - (b - c)` has the text of `(a - b) - c`.
-/

namespace ItemExpr

open Session

/-! ## Numbers -/

/-- What places and tokens are worth, and functions of what their arguments are. -/
structure Numbers where
  place : Place → ℚ
  token : String → ℚ
  ifNotExists : Place → ℚ → ℚ
  listAppend : ℚ → ℚ → ℚ

/-- What a tree is worth if the literals at its addresses are worth as much as `literal` says. -/
def Knowledge.worth? (known : Knowledge) (numbers : Numbers) (literal : List Nat → Option ℚ) : Expr → Option ℚ
  | .member path => (known.place? path).map numbers.place
  | .constant _ => literal []
  | .binary (.arithmetic .add) left right => do
    let l ← worth? known numbers (fun address => literal (0 :: address)) left
    let r ← worth? known numbers (fun address => literal (1 :: address)) right
    return l + r
  | .binary (.arithmetic .subtract) left right => do
    let l ← worth? known numbers (fun address => literal (0 :: address)) left
    let r ← worth? known numbers (fun address => literal (1 :: address)) right
    return l - r
  | .call "if_not_exists" [.member path, fallback] => do
    let place ← known.place? path
    let number ← worth? known numbers (fun address => literal (1 :: address)) fallback
    return numbers.ifNotExists place number
  | .call "list_append" [first, second] => do
    let f ← worth? known numbers (fun address => literal (0 :: address)) first
    let s ← worth? known numbers (fun address => literal (1 :: address)) second
    return numbers.listAppend f s
  | _ => none

namespace Knowledge

variable {known : Knowledge} {numbers : Numbers} {literal : List Nat → Option ℚ} {x y : ℚ}

theorem worth?_add {left right : Expr}
    (first : known.worth? numbers (fun address => literal (0 :: address)) left = some x)
    (second : known.worth? numbers (fun address => literal (1 :: address)) right = some y) :
    known.worth? numbers literal (.binary (.arithmetic .add) left right) = some (x + y) := by
  simp [worth?, first, second]

theorem worth?_subtract {left right : Expr}
    (first : known.worth? numbers (fun address => literal (0 :: address)) left = some x)
    (second : known.worth? numbers (fun address => literal (1 :: address)) right = some y) :
    known.worth? numbers literal (.binary (.arithmetic .subtract) left right) = some (x - y) := by
  simp [worth?, first, second]

theorem worth?_ifNotExists {path : Path} {place : Place} {fallback : Expr} (tested : known.place? path = some place)
    (inner : known.worth? numbers (fun address => literal (1 :: address)) fallback = some x) :
    known.worth? numbers literal (.call "if_not_exists" [.member path, fallback]) =
      some (numbers.ifNotExists place x) := by
  simp [worth?, tested, inner]

theorem worth?_listAppend {first second : Expr}
    (front : known.worth? numbers (fun address => literal (0 :: address)) first = some x)
    (back : known.worth? numbers (fun address => literal (1 :: address)) second = some y) :
    known.worth? numbers literal (.call "list_append" [first, second]) = some (numbers.listAppend x y) := by
  simp [worth?, front, back]

end Knowledge

namespace TokenValue

/-- What a value over tokens is worth. -/
def worth? (numbers : Numbers) (names : Table String) : TokenValue → Option ℚ
  | .operand (.path path) => (path.place? names).map numbers.place
  | .operand (.value token) => some (numbers.token token)
  | .operand (.size _) => none
  | .add left right => do return (← left.worth? numbers names) + (← right.worth? numbers names)
  | .subtract left right => do return (← left.worth? numbers names) - (← right.worth? numbers names)
  | .ifNotExists path fallback => do
    return numbers.ifNotExists (← path.place? names) (← fallback.worth? numbers names)
  | .listAppend first second => do
    return numbers.listAppend (← first.worth? numbers names) (← second.worth? numbers names)

/-- What the literal at an address is worth: as much as the token that it got. -/
def literal (numbers : Numbers) (value : TokenValue) (address : List Nat) : Option ℚ :=
  (value.valueAt address).map numbers.token

end TokenValue

variable {s t : Session} {numbers : Numbers} {names : Table String}

/-- A value over tokens is worth what its tree is. -/
theorem BindsUpdateValue.worth? {rules : Option Property} {expr : Expr} {value : TokenValue}
    (binds : BindsUpdateValue s rules expr value t) (distinct : s.names.Distinct)
    (more : t.names.bindings <+: names) :
    ∃ number, s.knowledge.worth? numbers (value.literal numbers) expr = some number ∧
      value.worth? numbers names = some number := by
  induction binds with
  | @operand s t rules expr operand noCall binds =>
    cases binds with
    | path resolves =>
      obtain ⟨place, source, bound⟩ := resolves.place? distinct more
      exact ⟨numbers.place place, by simp [Knowledge.worth?, source], by simp [TokenValue.worth?, bound]⟩
    | @value literal stored token =>
      refine ⟨numbers.token token, ?_, rfl⟩
      rw [Knowledge.worth?]
      rfl
    | size => exact absurd rfl (noCall _ _)
  -- The address of a literal in a side goes on from that of the side, in the tree and in the value alike.
  | add first second ihFirst ihSecond =>
    obtain ⟨x, source, bound⟩ := ihFirst distinct (second.grows.prefix_names.trans more)
    obtain ⟨y, sourceOther, boundOther⟩ := ihSecond (first.grows.distinct distinct) more
    rw [first.grows.knowledge] at sourceOther
    exact ⟨x + y, Knowledge.worth?_add source sourceOther, by simp [TokenValue.worth?, bound, boundOther]⟩
  | subtract first second ihFirst ihSecond =>
    obtain ⟨x, source, bound⟩ := ihFirst distinct (second.grows.prefix_names.trans more)
    obtain ⟨y, sourceOther, boundOther⟩ := ihSecond (first.grows.distinct distinct) more
    rw [first.grows.knowledge] at sourceOther
    exact ⟨x - y, Knowledge.worth?_subtract source sourceOther, by simp [TokenValue.worth?, bound, boundOther]⟩
  | ifNotExists resolves fallback ih =>
    obtain ⟨place, source, bound⟩ := resolves.place? distinct (fallback.grows.prefix_names.trans more)
    obtain ⟨x, sourceOther, boundOther⟩ := ih (resolves.grows.distinct distinct) more
    rw [resolves.grows.knowledge] at sourceOther
    exact ⟨numbers.ifNotExists place x, Knowledge.worth?_ifNotExists source sourceOther,
      by simp [TokenValue.worth?, bound, boundOther]⟩
  | listAppend first second ihFirst ihSecond =>
    obtain ⟨x, source, bound⟩ := ihFirst distinct (second.grows.prefix_names.trans more)
    obtain ⟨y, sourceOther, boundOther⟩ := ihSecond (first.grows.distinct distinct) more
    rw [first.grows.knowledge] at sourceOther
    exact ⟨numbers.listAppend x y, Knowledge.worth?_listAppend source sourceOther,
      by simp [TokenValue.worth?, bound, boundOther]⟩

/-! ## Where grouping makes no difference -/

/-- A sum or a difference that is subtracted as a whole. -/
def Expr.SubtractedSum (node : Expr) (i : Nat) : Prop :=
  i = 1 ∧ ∃ left op l r, node = .binary (.arithmetic .subtract) left (.binary (.arithmetic op) l r)

namespace TokenValue

def isSum : TokenValue → Bool
  | .add .. | .subtract .. => true
  | _ => false

/-- Nothing but operands and functions is subtracted anywhere in a value. -/
def SubtractsNoSum : TokenValue → Prop
  | .operand _ => True
  | .add left right | .listAppend left right => left.SubtractsNoSum ∧ right.SubtractsNoSum
  | .subtract left right => left.SubtractsNoSum ∧ right.SubtractsNoSum ∧ right.isSum = false
  | .ifNotExists _ fallback => fallback.SubtractsNoSum

/-- What is put in front of a value in a chain adds some number to it. -/
def Adds (numbers : Numbers) (names : Table String) (before : TokenValue → TokenValue) (number : ℚ) : Prop :=
  ∀ value x, value.worth? numbers names = some x → (before value).worth? numbers names = some (number + x)

theorem adds_id : Adds numbers names id 0 := by
  intro value x worth
  rw [id, worth, zero_add]

theorem adds_add {left : TokenValue} {number : ℚ} (worth : left.worth? numbers names = some number) :
    Adds numbers names (.add left) number := by
  intro value x worthOther
  simp [worth?, worth, worthOther]

/-- A value whose chains are grouped is worth the same, behind anything that adds a number to it. What is no sum is put
behind anything as a whole. -/
theorem worth?_regroupBehind {value : TokenValue} {x : ℚ} (plain : value.SubtractsNoSum)
    (worth : value.worth? numbers names = some x) :
    (∀ before number, Adds numbers names before number →
      (value.regroupBehind before).worth? numbers names = some (number + x)) ∧
    (value.isSum = false → ∃ part, part.worth? numbers names = some x ∧
      ∀ before, value.regroupBehind before = before part) := by
  induction value generalizing x with
  | operand leaf => exact ⟨fun before number adds => adds _ x worth, fun _ => ⟨.operand leaf, worth, fun _ => rfl⟩⟩
  | add left right ihLeft ihRight =>
    simp only [worth?, Option.bind_eq_bind, Option.bind_eq_some_iff, Option.pure_def, Option.some.injEq] at worth
    obtain ⟨l, leftWorth, r, rightWorth, rfl⟩ := worth
    refine ⟨fun before number adds => ?_, fun single => Bool.noConfusion single⟩
    have first := (ihLeft plain.1 leftWorth).1 before number adds
    rw [regroupBehind, (ihRight plain.2 rightWorth).1 _ _ (adds_add first), add_assoc]
  -- The subtracted value is a single part of the chain, so it is subtracted as a whole.
  | subtract left right ihLeft ihRight =>
    simp only [worth?, Option.bind_eq_bind, Option.bind_eq_some_iff, Option.pure_def, Option.some.injEq] at worth
    obtain ⟨l, leftWorth, r, rightWorth, rfl⟩ := worth
    refine ⟨fun before number adds => ?_, fun single => Bool.noConfusion single⟩
    have first := (ihLeft plain.1 leftWorth).1 before number adds
    obtain ⟨part, partWorth, same⟩ := (ihRight plain.2.1 rightWorth).2 plain.2.2
    rw [regroupBehind, same]
    simp [worth?, first, partWorth, add_sub_assoc]
  | ifNotExists path fallback ih =>
    simp only [worth?, Option.bind_eq_bind, Option.bind_eq_some_iff, Option.pure_def, Option.some.injEq] at worth
    obtain ⟨place, found, y, fallbackWorth, rfl⟩ := worth
    have inner := (ih plain fallbackWorth).1 id 0 adds_id
    rw [zero_add] at inner
    have whole : (TokenValue.ifNotExists path (fallback.regroupBehind id)).worth? numbers names =
        some (numbers.ifNotExists place y) := by
      simp [worth?, found, inner]
    exact ⟨fun before number adds => adds _ _ whole, fun _ => ⟨_, whole, fun _ => rfl⟩⟩
  | listAppend first second ihFirst ihSecond =>
    simp only [worth?, Option.bind_eq_bind, Option.bind_eq_some_iff, Option.pure_def, Option.some.injEq] at worth
    obtain ⟨y, firstWorth, z, secondWorth, rfl⟩ := worth
    have front := (ihFirst plain.1 firstWorth).1 id 0 adds_id
    have back := (ihSecond plain.2 secondWorth).1 id 0 adds_id
    rw [zero_add] at front back
    have whole : (TokenValue.listAppend (first.regroupBehind id) (second.regroupBehind id)).worth? numbers names =
        some (numbers.listAppend y z) := by
      simp [worth?, front, back]
    exact ⟨fun before number adds => adds _ _ whole, fun _ => ⟨_, whole, fun _ => rfl⟩⟩

theorem worth?_regroup {value : TokenValue} {x : ℚ} (plain : value.SubtractsNoSum)
    (worth : value.worth? numbers names = some x) : value.regroup.worth? numbers names = some x := by
  have grouped := (worth?_regroupBehind plain worth).1 id 0 adds_id
  rwa [zero_add] at grouped

end TokenValue

theorem BindsUpdateValue.of_isSum {rules : Option Property} {expr : Expr} {value : TokenValue}
    (binds : BindsUpdateValue s rules expr value t) (isSum : value.isSum = true) :
    ∃ op left right, expr = .binary (.arithmetic op) left right := by
  cases binds with
  | add | subtract => exact ⟨_, _, _, rfl⟩
  | operand | ifNotExists | listAppend => cases isSum

theorem BindsUpdateValue.subtractsNoSum {rules : Option Property} {expr : Expr} {value : TokenValue}
    (binds : BindsUpdateValue s rules expr value t)
    (plain : ∀ address, ¬ expr.StandsIn Expr.SubtractedSum address) : value.SubtractsNoSum := by
  induction binds with
  | operand => trivial
  | add _ _ ihFirst ihSecond | listAppend _ _ ihFirst ihSecond =>
    exact ⟨ihFirst fun address stands => plain (0 :: address) (.below rfl stands),
      ihSecond fun address stands => plain (1 :: address) (.below rfl stands)⟩
  | @subtract s u t rules left right l r _ second ihFirst ihSecond =>
    refine ⟨ihFirst fun address stands => plain (0 :: address) (.below rfl stands),
      ihSecond fun address stands => plain (1 :: address) (.below rfl stands), ?_⟩
    by_contra isSum
    obtain ⟨op, first, last, rfl⟩ := second.of_isSum (by simpa using isSum)
    exact plain [1] (.root ⟨rfl, left, op, first, last, rfl⟩)
  | ifNotExists _ _ ih => exact ih fun address stands => plain (1 :: address) (.below rfl stands)

/-! ## The worth of what is read -/

/-- What an update sets is worth what the tree of the assignment is. -/
theorem BindsUpdate.worth? {assignment : Assignment} {path : TokenPath} {value : TokenValue}
    (binds : BindsUpdate s assignment (.set path value) t) (distinct : s.names.Distinct)
    (more : t.names.bindings <+: names) :
    ∃ number, s.knowledge.worth? numbers (value.literal numbers) assignment.value = some number ∧
      value.worth? numbers names = some number := by
  cases binds with
  | set resolves _ bound => exact resolves.grows.knowledge ▸ bound.worth? (resolves.grows.distinct distinct) more

theorem BindsUpdate.subtractsNoSum {assignment : Assignment} {path : TokenPath} {value : TokenValue}
    (binds : BindsUpdate s assignment (.set path value) t)
    (plain : ∀ address, ¬ assignment.value.StandsIn Expr.SubtractedSum address) : value.SubtractsNoSum := by
  cases binds with
  | set _ _ bound => exact bound.subtractsNoSum plain

/-- The text of an update that sets a value is read as the value with its chains grouped to the left. The value is worth
what its tree is, and so is what is read, if no sum or difference is subtracted as a whole anywhere in the tree. -/
theorem readSet?_assignment {session after : Session} {assignment : Assignment} {path : TokenPath} {value : TokenValue}
    (distinct : session.names.Distinct)
    (legible : session.Legible)
    (run : SessionM.assignment assignment session = .ok (.set path value) after) :
    TokenUpdate.readSet? (TokenUpdate.set path value).text = some (path, value.regroup) ∧
      ∀ (numbers : Numbers) (names : Table String), after.names.bindings <+: names →
        ∃ number, session.knowledge.worth? numbers (value.literal numbers) assignment.value = some number ∧
          value.worth? numbers names = some number ∧
          ((∀ address, ¬ assignment.value.StandsIn Expr.SubtractedSum address) →
            value.regroup.worth? numbers names = some number) := by
  have binds := assignment_binds run
  refine ⟨TokenUpdate.readSet?_text (binds.readable legible), ?_⟩
  intro numbers names more
  obtain ⟨number, source, worth⟩ := binds.worth? distinct more
  refine ⟨number, source, worth, ?_⟩
  intro plain
  exact TokenValue.worth?_regroup (binds.subtractsNoSum plain) worth

theorem readSet?_assignment_of_added_difference :
    let start := Session.new .standard none
    let assignment : Assignment := ⟨⟨[.field "total"]⟩,
      .binary (.arithmetic .add) (.constant (.number (.int 1)))
        (.binary (.arithmetic .subtract) (.member ⟨[.field "total"]⟩) (.constant (.number (.int 2))))⟩
    ∃ path value after, SessionM.assignment assignment start = .ok (.set path value) after ∧
      (TokenUpdate.set path value).text = "#total = :p0 + #total - :p1" ∧
      ∃ read, TokenUpdate.readSet? (TokenUpdate.set path value).text = some (path, read) ∧
        ∀ numbers, ∃ number,
          start.knowledge.worth? numbers (value.literal numbers) assignment.value = some number ∧
            read.worth? numbers after.names.bindings = some number := by
  intro start assignment
  have answer : (SessionM.assignment assignment).answer? start = some (.set ⟨"#total", []⟩
      (.add (.operand (.value ":p0")) (.subtract (.operand (.path ⟨"#total", []⟩)) (.operand (.value ":p1"))))) := by
    decide +kernel
  obtain ⟨after, run⟩ := SessionM.answer?_eq_some.1 answer
  obtain ⟨read, worth⟩ := readSet?_assignment (NameTable.distinct_empty _) (legible_new none) run
  refine ⟨_, _, after, run, by decide +kernel, _, read, ?_⟩
  -- The difference is added, and only an operand is subtracted.
  have plain : ∀ address, ¬ assignment.value.StandsIn Expr.SubtractedSum address := by
    refine Expr.not_standsIn_of_children (by rintro _ ⟨_, _, _, _, _, same⟩; cases same) ?_
    refine List.forall_mem_cons.2 ⟨?_, List.forall_mem_cons.2 ⟨?_, nofun⟩⟩
    · exact Expr.not_standsIn_of_children (by rintro _ ⟨_, _, _, _, _, same⟩; cases same) nofun
    · refine Expr.not_standsIn_of_children (by rintro _ ⟨_, _, _, _, _, same⟩; cases same) ?_
      refine List.forall_mem_cons.2 ⟨?_, List.forall_mem_cons.2 ⟨?_, nofun⟩⟩
      · exact Expr.not_standsIn_of_children (by rintro _ ⟨_, _, _, _, _, same⟩; cases same) nofun
      · exact Expr.not_standsIn_of_children (by rintro _ ⟨_, _, _, _, _, same⟩; cases same) nofun
  intro numbers
  obtain ⟨number, source, _, same⟩ := worth numbers after.names.bindings List.prefix_rfl
  exact ⟨number, source, same plain⟩

/-- A difference that is subtracted as a whole has no parentheses around it in the text. -/
theorem readSet?_assignment_differs_of_subtracted_difference :
    let start := Session.new .standard none
    let assignment : Assignment := ⟨⟨[.field "total"]⟩,
      .binary (.arithmetic .subtract) (.member ⟨[.field "total"]⟩)
        (.binary (.arithmetic .subtract) (.constant (.number (.int 1))) (.constant (.number (.int 2))))⟩
    let numbers : Numbers := ⟨fun _ => 0, fun token => if token = ":p0" then 1 else 2, fun _ x => x, fun x _ => x⟩
    ∃ path value after, SessionM.assignment assignment start = .ok (.set path value) after ∧
      (TokenUpdate.set path value).text = "#total = #total - :p0 - :p1" ∧
      ∃ read, TokenUpdate.readSet? (TokenUpdate.set path value).text = some (path, read) ∧
        start.knowledge.worth? numbers (value.literal numbers) assignment.value = some 1 ∧
        read.worth? numbers after.names.bindings = some (-3) := by
  intro start assignment numbers
  have answer : (SessionM.assignment assignment).answer? start = some (.set ⟨"#total", []⟩
      (.subtract (.operand (.path ⟨"#total", []⟩))
        (.subtract (.operand (.value ":p0")) (.operand (.value ":p1"))))) := by
    decide +kernel
  obtain ⟨after, run⟩ := SessionM.answer?_eq_some.1 answer
  have binds := assignment_binds run
  have read := TokenUpdate.readSet?_text (binds.readable (legible_new none))
  obtain ⟨number, source, worth⟩ : ∃ number,
      start.knowledge.worth? numbers (TokenValue.literal numbers _) assignment.value = some number ∧
        TokenValue.worth? numbers after.names.bindings _ = some number :=
    binds.worth? (NameTable.distinct_empty _) List.prefix_rfl
  refine ⟨_, _, after, run, by decide +kernel, _, read, ?_⟩
  cases found : TokenPath.place? after.names.bindings ⟨"#total", []⟩ with
  | none => simp [TokenValue.worth?, found] at worth
  | some place =>
    have meant : (0 : ℚ) - (1 - 2) = number := by simpa [TokenValue.worth?, found, numbers] using worth
    have shown : (0 : ℚ) - 1 - 2 = -3 := by norm_num
    constructor
    · rw [source, ← meant]
      norm_num
    · rw [← shown]
      simp [TokenValue.regroup, TokenValue.regroupBehind, TokenValue.worth?, found, numbers]

end ItemExpr

import ItemExpr.Proofs.Session
import ItemExpr.Request.Draft

/-!
# Runs of value tokens

Whatever is done with a session, its value tokens change in two ways only: a value is bound to a new token, or a token
is inserted for a value. `SessionM.Accounted` says this of an operation, and is proved operation by operation, for those
that fail in the middle as well. So all tokens that are issued in a run are new, and no two of them are the same
(`Session.issues_fresh`).
-/

namespace ItemExpr

open Session

/-! ## Values that are bound -/

/-- A value that is bound: the session before, the value, the token that it gets, and the session afterwards. -/
structure Issue where
  before : Session
  value : AttributeValue
  token : String
  after : Session

/-- What makes the token of a value a new one. -/
structure Issue.Fresh (issue : Issue) : Prop where
  /-- The search for a token ends at the first number from the counter on whose token is not bound, and the counter goes
  on behind it. -/
  search : ∃ n, issue.before.values.FirstFree issue.before.tokens.token issue.before.tokens.issued n ∧
    issue.token = issue.before.tokens.token n ∧ issue.after.tokens = { issue.before.tokens with issued := n + 1 }
  unbound : Table.value? issue.before.values issue.token = none
  /-- Inserting the token for the value cannot meet another binding of it. -/
  inserts : ValueTable.insert issue.before.values issue.token issue.value = .ok issue.after.values
  bound : Table.value? issue.after.values issue.token = some issue.value
  others : ∀ other, other ≠ issue.token →
    Table.value? issue.after.values other = Table.value? issue.before.values other
  frame : issue.after = { issue.before with tokens := issue.after.tokens, values := issue.after.values }

/-- A value can be bound in every session, and gets a new token. -/
theorem fresh_bindValue (value : AttributeValue) (s : Session) :
    ∃ token after, SessionM.bindValue value s = .ok token after ∧ (Issue.mk s value token after).Fresh := by
  obtain ⟨n, first, run⟩ := SessionM.bindValue_run value s
  have unbound : Table.value? s.values (s.tokens.token n) = none := by simpa [Table.binds] using first.free
  refine ⟨_, _, run, ⟨n, first, rfl, rfl⟩, unbound, ?_, Table.value?_append_new value first.free, ?_, rfl⟩
  · simp [ValueTable.insert, unbound]
  · intro other differs
    rw [Table.value?_append, Table.value?_cons, if_neg differs, Table.value?_nil, Option.or_none]

theorem Issue.fresh_of_run {s t : Session} {value : AttributeValue} {token : String}
    (run : SessionM.bindValue value s = .ok token t) : (Issue.mk s value token t).Fresh := by
  obtain ⟨token', t', run', fresh⟩ := fresh_bindValue value s
  rw [run, EStateM.Result.ok.injEq] at run'
  rw [run'.1, run'.2]
  exact fresh

namespace SessionM

variable {α β : Type}

/-- The session that an operation leaves, whether it succeeds or fails. -/
def leaves (x : SessionM α) (s : Session) : Session :=
  match x s with
  | .ok _ t | .error _ t => t

theorem leaves_bind (x : SessionM α) (f : α → SessionM β) (s : Session) :
    (x >>= f).leaves s = match x s with
      | .ok a t => (f a).leaves t
      | .error _ t => t := by
  unfold leaves
  simp only [bind, EStateM.bind]
  cases x s <;> rfl

theorem leaves_query (read : Session → Except Error α) (s : Session) : (query read).leaves s = s := by
  cases found : read s with
  | ok a =>
    have run : query read s = .ok a s := query_eq_ok.2 ⟨found, rfl⟩
    rw [leaves, run]
  | error e =>
    have run : query read s = .error e s := by
      refine bind_eq_error.2 (.inr ⟨s, s, rfl, ?_⟩)
      rw [found]
      rfl
    rw [leaves, run]

end SessionM

/-- What becomes of the value tokens between two sessions: some values are bound, one after the other, and in between
tokens are inserted for values, or refused. Whatever else happens does not touch them. -/
inductive Issues : Session → List Issue → Session → Prop where
  | done {s : Session} : Issues s [] s
  | bound {s u t : Session} {value : AttributeValue} {token : String} {later : List Issue} :
    SessionM.bindValue value s = .ok token u → Issues u later t → Issues s (⟨s, value, token, u⟩ :: later) t
  | inserted {s t : Session} {token : String} {value : AttributeValue} {later : List Issue} :
    Issues ((SessionM.insertValue token value).leaves s) later t → Issues s later t
  | untouched {s u t : Session} {later : List Issue} :
    u.values = s.values → u.tokens = s.tokens → Issues u later t → Issues s later t

namespace Issues

variable {s t u : Session} {issues earlier later : List Issue}

theorem append (first : Issues s earlier u) (second : Issues u later t) : Issues s (earlier ++ later) t := by
  induction first with
  | done => exact second
  | bound run _ ih => exact .bound run (ih second)
  | inserted _ ih => exact .inserted (ih second)
  | untouched values tokens _ ih => exact .untouched values tokens (ih second)

theorem fresh (trace : Issues s issues t) : ∀ issue ∈ issues, issue.Fresh := by
  induction trace with
  | done => exact List.forall_mem_nil _
  | bound run _ ih => exact List.forall_mem_cons.2 ⟨Issue.fresh_of_run run, ih⟩
  | inserted _ ih | untouched _ _ _ ih => exact ih

theorem tokens_insertValue (token : String) (value : AttributeValue) (s : Session) :
    ((SessionM.insertValue token value).leaves s).tokens = s.tokens := by
  unfold SessionM.insertValue
  rw [SessionM.leaves_bind]
  split
  · rename_i run
    obtain ⟨_, rfl⟩ := SessionM.query_eq_ok.1 run
    rfl
  · rename_i run
    have same := SessionM.leaves_query (fun u => (ValueTable.insert u.values token value).mapError .conflict) s
    rw [SessionM.leaves, run] at same
    exact congrArg Session.tokens same

/-- The tokens that are issued have numbers that only grow, from the counter before to the counter afterwards. -/
theorem numbers (trace : Issues s issues t) :
    t.tokens.sigil = s.tokens.sigil ∧ s.tokens.issued ≤ t.tokens.issued ∧
      ∃ numbers : List Nat, issues.map (·.token) = numbers.map s.tokens.token ∧ numbers.Pairwise (· < ·) ∧
        ∀ n ∈ numbers, s.tokens.issued ≤ n ∧ n < t.tokens.issued := by
  induction trace with
  | done => exact ⟨rfl, Nat.le_refl _, [], rfl, .nil, List.forall_mem_nil _⟩
  | bound run _ ih =>
    obtain ⟨n, starts, rfl, _, rfl⟩ := SessionM.bindValue_eq_ok run
    obtain ⟨sigil, further, numbers, tokens, increasing, range⟩ := ih
    dsimp only at sigil further range
    refine ⟨sigil, by omega, n :: numbers, ?_, ?_, ?_⟩
    · rw [List.map_cons, List.map_cons, tokens]
      rfl
    · exact List.pairwise_cons.2 ⟨fun m member => (range m member).1, increasing⟩
    · refine List.forall_mem_cons.2 ⟨⟨starts, by omega⟩, fun m member => ?_⟩
      obtain ⟨behind, before⟩ := range m member
      exact ⟨by omega, before⟩
  | inserted _ ih =>
    rw [tokens_insertValue] at ih
    exact ih
  | untouched _ same _ ih =>
    rw [same] at ih
    exact ih

theorem nodup (trace : Issues s issues t) : (issues.map (·.token)).Nodup := by
  obtain ⟨_, _, numbers, tokens, increasing, _⟩ := trace.numbers
  rw [tokens]
  refine (increasing.imp Nat.ne_of_lt).map _ fun m n differs same => ?_
  exact differs (TokenSource.token_injective same)

end Issues

/-! ## Operations -/

namespace SessionM

variable {α β : Type}

/-- What an operation does to the value tokens, in whatever session it starts and however it ends: it binds values and
inserts tokens, and nothing else. -/
structure Accounted (x : SessionM α) : Prop where
  trace : ∀ s, ∃ issues, Issues s issues (x.leaves s)

namespace Accounted

theorem of_untouched {x : SessionM α}
    (untouched : ∀ s, (x.leaves s).values = s.values ∧ (x.leaves s).tokens = s.tokens) : Accounted x :=
  ⟨fun s => ⟨[], .untouched (untouched s).1 (untouched s).2 .done⟩⟩

theorem pure (a : α) : Accounted (Pure.pure a : SessionM α) :=
  of_untouched fun _ => ⟨rfl, rfl⟩

theorem throw (error : Error) : Accounted (MonadExcept.throw error : SessionM α) :=
  of_untouched fun _ => ⟨rfl, rfl⟩

theorem unsupported (cause : Unsupported) : Accounted (SessionM.unsupported cause : SessionM α) :=
  throw _

theorem get : Accounted (MonadState.get : SessionM Session) :=
  of_untouched fun _ => ⟨rfl, rfl⟩

theorem query (read : Session → Except Error α) : Accounted (SessionM.query read) :=
  of_untouched fun s => by rw [leaves_query]; exact ⟨rfl, rfl⟩

theorem bind {x : SessionM α} {f : α → SessionM β} (first : Accounted x) (later : ∀ a, Accounted (f a)) :
    Accounted (x >>= f) := by
  refine ⟨fun s => ?_⟩
  obtain ⟨issues, trace⟩ := first.trace s
  rw [leaves_bind]
  unfold leaves at trace
  cases run : x s with
  | ok a t =>
    rw [run] at trace
    obtain ⟨more, further⟩ := (later a).trace t
    exact ⟨issues ++ more, trace.append further⟩
  | error e t =>
    rw [run] at trace
    exact ⟨issues, trace⟩

theorem ite {condition : Prop} [Decidable condition] {x y : SessionM α} (holds : Accounted x) (fails : Accounted y) :
    Accounted (if condition then x else y) := by
  split
  · exact holds
  · exact fails

/-- What is done only under a condition, with something behind it in any case. -/
theorem guarded {condition : Prop} [Decidable condition] {x : SessionM PUnit} {rest : PUnit → SessionM β}
    (inside : Accounted x) (behind : ∀ u, Accounted (rest u)) :
    Accounted (if condition then x >>= rest else rest ⟨⟩) :=
  ite (inside.bind behind) (behind ⟨⟩)

theorem mapM {items : List α} {op : α → SessionM β} (each : ∀ item, Accounted (op item)) :
    Accounted (items.mapM op) := by
  induction items with
  | nil => exact pure []
  | cons item rest ih =>
    rw [List.mapM_cons]
    exact (each item).bind fun _ => ih.bind fun _ => pure _

theorem forM {items : List α} {op : α → SessionM PUnit} (each : ∀ item, Accounted (op item)) :
    Accounted (items.forM op) := by
  induction items with
  | nil => exact pure _
  | cons item rest ih => exact (each item).bind fun _ => ih

/-! ### Tables -/

theorem bindValue (value : AttributeValue) : Accounted (SessionM.bindValue value) := by
  refine ⟨fun s => ?_⟩
  obtain ⟨n, _, run⟩ := bindValue_run value s
  rw [leaves, run]
  exact ⟨[_], .bound run .done⟩

theorem insertValue (token : String) (value : AttributeValue) : Accounted (SessionM.insertValue token value) :=
  ⟨fun _ => ⟨[], .inserted .done⟩⟩

theorem bindName (attributeName : String) : Accounted (SessionM.bindName attributeName) :=
  of_untouched fun _ => ⟨rfl, rfl⟩

theorem insertName (token attributeName : String) : Accounted (SessionM.insertName token attributeName) :=
  (query _).bind fun _ => of_untouched fun _ => ⟨rfl, rfl⟩

theorem bindLiteral (value : Value) (rules : Option Property) (spec : Option String) :
    Accounted (SessionM.bindLiteral value rules spec) :=
  (query _).bind bindValue

/-! ### Paths and operands -/

theorem bindStep (step : PathStep) : Accounted (SessionM.bindStep step) := by
  cases step with
  | field name => exact (bindName name).bind fun _ => pure _
  | index position => exact pure _

theorem resolvePath (path : Path) : Accounted (SessionM.resolvePath path) := by
  unfold SessionM.resolvePath
  split
  · refine (query _).bind fun property => (query _).bind fun _ => (bindName _).bind fun token => ?_
    refine (mapM bindStep).bind fun steps => get.bind fun session => ?_
    exact guarded (throw _) fun _ => pure _
  · exact unsupported _

theorem rejectInKeyCondition (construct : String) : Accounted (SessionM.rejectInKeyCondition construct) :=
  get.bind fun _ => ite (unsupported _) (pure _)

theorem operand (rules : Option Property) (expr : Expr) : Accounted (SessionM.operand rules expr) := by
  unfold SessionM.operand
  split
  · exact (resolvePath _).bind fun _ => pure _
  · exact (bindLiteral ..).bind fun _ => pure _
  · refine (rejectInKeyCondition _).bind fun _ => ?_
    split
    · exact (resolvePath _).bind fun _ => pure _
    · exact unsupported _
  · exact unsupported _
  · exact unsupported _

theorem subject (expr : Expr) : Accounted (SessionM.subject expr) := by
  unfold SessionM.subject
  split
  · exact (resolvePath _).bind fun _ => pure _
  · exact (operand ..).bind fun _ => pure _

theorem operandPair (left right : Expr) : Accounted (SessionM.operandPair left right) := by
  unfold SessionM.operandPair
  split
  · exact (resolvePath _).bind fun _ => (operand ..).bind fun _ => pure _
  · exact (resolvePath _).bind fun _ => (operand ..).bind fun _ => pure _
  · exact (operand ..).bind fun _ => (operand ..).bind fun _ => pure _

/-! ### Conditions -/

theorem partitionKeyName? (expr : Expr) : Accounted (SessionM.partitionKeyName? expr) := by
  refine get.bind fun session => ?_
  split
  · exact pure _
  · split
    · exact (query _).bind fun _ => get.bind fun _ => pure _
    · exact pure _

theorem checkPartitionSide (op : Comparison) (side : Expr) : Accounted (SessionM.checkPartitionSide op side) := by
  refine (partitionKeyName? side).bind fun name => ?_
  split
  · exact pure _
  · split
    · exact pure _
    · exact throw _

theorem rejectPartitionKey (expr : Expr) (construct : String) :
    Accounted (SessionM.rejectPartitionKey expr construct) := by
  refine (partitionKeyName? expr).bind fun name => ?_
  split
  · exact pure _
  · exact throw _

theorem markPartitionBound : Accounted SessionM.markPartitionBound :=
  of_untouched fun _ => ⟨rfl, rfl⟩

theorem comparison (op : Comparison) (left right : Expr) : Accounted (SessionM.comparison op left right) := by
  unfold SessionM.comparison
  refine guarded (rejectInKeyCondition _) fun _ => (checkPartitionSide ..).bind fun leftPins => ?_
  refine (checkPartitionSide ..).bind fun rightPins => (operandPair ..).bind ?_
  rintro ⟨l, r⟩
  exact guarded markPartitionBound fun _ => pure _

theorem conditionCall (method : String) (args : List Expr) : Accounted (SessionM.conditionCall method args) := by
  unfold SessionM.conditionCall
  split
  · exact (rejectInKeyCondition _).bind fun _ => (resolvePath _).bind fun _ => pure _
  · exact (rejectInKeyCondition _).bind fun _ => (resolvePath _).bind fun _ => pure _
  · refine (rejectInKeyCondition _).bind fun _ => guarded (unsupported _) fun _ => ?_
    exact (resolvePath _).bind fun _ => (bindValue _).bind fun _ => pure _
  · exact (rejectPartitionKey ..).bind fun _ => (resolvePath _).bind fun _ => (operand ..).bind fun _ => pure _
  · exact (rejectInKeyCondition _).bind fun _ => (resolvePath _).bind fun _ => (operand ..).bind fun _ => pure _
  · refine (rejectPartitionKey ..).bind fun _ => (subject _).bind fun _ => ?_
    exact (operand ..).bind fun _ => (operand ..).bind fun _ => pure _
  · refine (rejectInKeyCondition _).bind fun _ => guarded (unsupported _) fun _ => ?_
    exact (subject _).bind fun _ => (mapM (operand _)).bind fun _ => pure _
  · exact unsupported _

theorem condition (expr : Expr) : Accounted (SessionM.condition expr) := by
  induction expr using SessionM.condition.induct with
  | case1 left right ihLeft ihRight =>
    rw [SessionM.condition]
    exact ihLeft.bind fun _ => ihRight.bind fun _ => pure _
  | case2 left right ihLeft ihRight =>
    rw [SessionM.condition]
    exact (rejectInKeyCondition _).bind fun _ => ihLeft.bind fun _ => ihRight.bind fun _ => pure _
  | case3 op left right =>
    rw [SessionM.condition]
    exact comparison op left right
  | case4 op left right notAnd notOr notComparison =>
    rw [SessionM.condition]
    · exact unsupported _
    all_goals assumption
  | case5 inner ih =>
    rw [SessionM.condition]
    exact (rejectInKeyCondition _).bind fun _ => ih.bind fun _ => pure _
  | case6 method args =>
    rw [SessionM.condition]
    exact conditionCall method args
  | case7 expr =>
    rw [SessionM.condition]
    · exact unsupported _
    all_goals assumption

theorem projection (path : Path) : Accounted (SessionM.projection path) :=
  (resolvePath path).bind fun _ => pure _

/-! ### Updates -/

theorem updateValue (rules : Option Property) (expr : Expr) : Accounted (SessionM.updateValue rules expr) := by
  induction rules, expr using SessionM.updateValue.induct with
  | case1 rules left right ihLeft ihRight | case2 rules left right ihLeft ihRight =>
    rw [SessionM.updateValue]
    exact ihLeft.bind fun _ => ihRight.bind fun _ => pure _
  | case3 rules op left right notAdd notSubtract =>
    rw [SessionM.updateValue]
    · exact unsupported _
    all_goals assumption
  | case4 rules path fallback ih =>
    rw [SessionM.updateValue]
    exact (resolvePath path).bind fun resolved => (ih resolved).bind fun _ => pure _
  | case5 rules first second ihFirst ihSecond =>
    rw [SessionM.updateValue]
    exact ihFirst.bind fun _ => ihSecond.bind fun _ => pure _
  | case6 rules method args notDefault notAppend =>
    rw [SessionM.updateValue]
    · exact unsupported _
    all_goals assumption
  | case7 rules inner =>
    rw [SessionM.updateValue]
    exact unsupported _
  | case8 rules path | case9 rules value =>
    rw [SessionM.updateValue]
    exact (operand ..).bind fun _ => pure _

theorem assignment (update : Assignment) : Accounted (SessionM.assignment update) := by
  unfold SessionM.assignment
  refine (resolvePath _).bind fun target => guarded (throw _) fun _ => ?_
  split
  · exact pure _
  · exact (operand ..).bind fun _ => pure _
  · exact (operand ..).bind fun _ => pure _
  · exact (operand ..).bind fun _ => pure _
  · exact (updateValue ..).bind fun _ => pure _

/-! ### Templates and raw texts -/

theorem template (text : String) (args : List Value) : Accounted (Template.compile text args) := by
  refine (query _).bind fun segments => (mapM fun segment => ?_).bind fun _ => pure _
  cases segment with
  | text chars => exact pure _
  | argument index spec => exact bindLiteral ..

theorem rawText (raw : RawText) : Accounted raw.compile := by
  refine get.bind fun session => guarded (unsupported _) fun _ => ?_
  exact (forM fun _ => insertName ..).bind fun _ => (forM fun _ => insertValue ..).bind fun _ => pure _

end Accounted

end SessionM

/-! ## Runs -/

/-- What can be done with a session. -/
inductive Operation where
  | bindValue (value : AttributeValue)
  | bindLiteral (value : Value) (rules : Option Property) (spec : Option String)
  | insertValue (token : String) (value : AttributeValue)
  | bindName (attributeName : String)
  | insertName (token attributeName : String)
  | condition (expr : Expr)
  | assignment (update : Assignment)
  | projection (path : Path)
  | template (text : String) (args : List Value)
  | rawText (raw : RawText)
  | useIndex (name : String)
  | setMode (mode : Mode)
  | setEncryptor (encryptor : Encryptor)
  | setGeoEncoder (encoder : GeoEncoder)
  | setLocalClock (clock : LocalClock)
  | markPartitionBound

namespace Operation

/-- Does an operation, whose answer is not looked at. -/
def run : Operation → SessionM Unit
  | .bindValue value => do let _ ← SessionM.bindValue value
  | .bindLiteral value rules spec => do let _ ← SessionM.bindLiteral value rules spec
  | .insertValue token value => SessionM.insertValue token value
  | .bindName attributeName => do let _ ← SessionM.bindName attributeName
  | .insertName token attributeName => SessionM.insertName token attributeName
  | .condition expr => do let _ ← SessionM.condition expr
  | .assignment update => do let _ ← SessionM.assignment update
  | .projection path => do let _ ← SessionM.projection path
  | .template text args => do let _ ← Template.compile text args
  | .rawText raw => do let _ ← raw.compile
  | .useIndex name => SessionM.useIndex name
  | .setMode mode => do let _ ← SessionM.setMode mode
  | .setEncryptor encryptor => SessionM.setEncryptor encryptor
  | .setGeoEncoder encoder => SessionM.setGeoEncoder encoder
  | .setLocalClock clock => SessionM.setLocalClock clock
  | .markPartitionBound => SessionM.markPartitionBound

open SessionM in
theorem accounted_run (operation : Operation) : Accounted operation.run := by
  cases operation with
  | bindValue value => exact (Accounted.bindValue value).bind fun _ => .pure _
  | bindLiteral value rules spec => exact (Accounted.bindLiteral value rules spec).bind fun _ => .pure _
  | insertValue token value => exact Accounted.insertValue token value
  | bindName attributeName => exact (Accounted.bindName attributeName).bind fun _ => .pure _
  | insertName token attributeName => exact Accounted.insertName token attributeName
  | condition expr => exact (Accounted.condition expr).bind fun _ => .pure _
  | assignment update => exact (Accounted.assignment update).bind fun _ => .pure _
  | projection path => exact (Accounted.projection path).bind fun _ => .pure _
  | template text args => exact (Accounted.template text args).bind fun _ => .pure _
  | rawText raw => exact (Accounted.rawText raw).bind fun _ => .pure _
  | useIndex name => exact (Accounted.query _).bind fun _ => .of_untouched fun _ => ⟨rfl, rfl⟩
  | setMode | setEncryptor | setGeoEncoder | setLocalClock | markPartitionBound =>
    exact .of_untouched fun _ => ⟨rfl, rfl⟩

end Operation

namespace Session

/-- The session after some operations. One that fails leaves what it did before it failed. -/
def performAll (s : Session) (operations : List Operation) : Session :=
  operations.foldl (fun session operation => operation.run.leaves session) s

theorem issues_performAll (s : Session) (operations : List Operation) :
    ∃ issues, Issues s issues (s.performAll operations) := by
  induction operations generalizing s with
  | nil => exact ⟨[], .done⟩
  | cons operation rest ih =>
    obtain ⟨earlier, trace⟩ := (operation.accounted_run).trace s
    obtain ⟨later, further⟩ := ih (operation.run.leaves s)
    exact ⟨earlier ++ later, trace.append further⟩

/-- In every run of operations each value that is bound gets a new token, and no two values get the same one; and behind
it a further value can be bound, to a token that none has got. -/
theorem issues_fresh (s : Session) (operations : List Operation) :
    ∃ issues, Issues s issues (s.performAll operations) ∧ (∀ issue ∈ issues, issue.Fresh) ∧
      (issues.map (·.token)).Nodup ∧
      ∀ value, ∃ token after, SessionM.bindValue value (s.performAll operations) = .ok token after ∧
        (Issue.mk (s.performAll operations) value token after).Fresh ∧ token ∉ issues.map (·.token) := by
  obtain ⟨issues, trace⟩ := issues_performAll s operations
  refine ⟨issues, trace, trace.fresh, trace.nodup, fun value => ?_⟩
  obtain ⟨token, after, run, fresh⟩ := fresh_bindValue value (s.performAll operations)
  refine ⟨token, after, run, fresh, fun member => ?_⟩
  -- One more value makes a longer run, in which the last token is new as well.
  have distinct := (trace.append (.bound run .done)).nodup
  rw [List.map_append] at distinct
  exact (List.nodup_append.1 distinct).2.2 token member token (List.mem_singleton.2 rfl) rfl

/-- Tokens that are taken in advance are passed over, and a binding that is refused changes nothing. -/
example :
    let session := (new .standard none).performAll
      [.insertValue ":p0" (.string "a"), .insertValue ":p2" (.string "b"), .bindValue (.string "c"),
        .insertValue ":p1" (.string "d"), .bindValue (.string "e")]
    session.values.map (·.1) = [":p0", ":p2", ":p1", ":p3"] := by
  decide +kernel

end Session

end ItemExpr

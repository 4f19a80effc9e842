import ItemExpr.Proofs.Binding
import ItemExpr.Proofs.Update.Lexing

/-!
# What is bound is readable

A session is legible if its tokens look like tokens to a reader of texts: `#` or `:` with letters, digits and
underscores behind it, whatever else its sigils have in them. A legible session stays so while it grows, and every token
in what it binds can be read.
-/

namespace ItemExpr

open NameTable (Spelled)

/-! ## Legible tables and sessions -/

theorem NameTable.Spelled.trans {first second token : String} (outer : Spelled first second)
    (inner : Spelled second token) : Spelled first token := by
  obtain ⟨chars, rfl, all⟩ := outer
  obtain ⟨more, rfl, allMore⟩ := inner
  refine ⟨chars ++ more, ?_, ?_⟩
  · apply String.toList_injective
    simp
  · exact fun c member => (List.mem_append.1 member).elim (all c) (allMore c)

/-- Every token of a table can be read as a name, and so can every token that it makes. -/
structure NameTable.Legible (table : NameTable) : Prop where
  sigil : Spelled "#" table.sigil
  bindings : ∀ binding ∈ table.bindings, Spelled "#" binding.1

theorem NameTable.Legible.bind {table : NameTable} (legible : table.Legible) (attributeName : String) :
    (table.bind attributeName).2.Legible ∧ Spelled "#" (table.bind attributeName).1 := by
  obtain ⟨token, found, bound⟩ | ⟨n, _, _, bound⟩ := NameTable.bind_cases table attributeName <;> rw [bound]
  · exact ⟨legible, legible.bindings _ (NameTable.mem_of_token? found)⟩
  · have made := legible.sigil.trans (NameTable.spelled_candidate table.sigil attributeName n)
    refine ⟨⟨legible.sigil, ?_⟩, made⟩
    intro binding member
    rcases List.mem_append.1 member with old | new
    · exact legible.bindings binding old
    · cases List.mem_singleton.1 new
      exact made

theorem NameTable.Legible.bindAll {table : NameTable} (legible : table.Legible) (attributeNames : List String) :
    (table.bindAll attributeNames).Legible := by
  induction attributeNames generalizing table with
  | nil => exact legible
  | cons attributeName rest ih => exact ih (legible.bind attributeName).1

/-- A session whose tokens can be read. -/
structure Session.Legible (session : Session) : Prop where
  names : session.names.Legible
  valueSigil : Spelled ":" session.tokens.sigil

/-- A session in which nothing is bound issues tokens of the standard form. -/
theorem Session.legible_new (entity : Option Entity) : (Session.new .standard entity).Legible where
  names := ⟨⟨[], rfl, nofun⟩, nofun⟩
  valueSigil := by
    refine ⟨['p'], rfl, ?_⟩
    intro c member
    obtain rfl := List.mem_singleton.1 member
    decide

variable {s t : Session}

theorem Session.Grows.legible {before after : Session} (grows : Grows before after) (legible : before.Legible) :
    after.Legible := by
  obtain ⟨attributeNames, bound⟩ := grows.names
  exact ⟨bound ▸ legible.names.bindAll attributeNames, grows.sigil ▸ legible.valueSigil⟩

theorem spelled_bindValue {value : AttributeValue} {token : String} (run : SessionM.bindValue value s = .ok token t)
    (legible : s.Legible) : Spelled ":" token := by
  obtain ⟨n, _, rfl, _, _⟩ := SessionM.bindValue_eq_ok run
  exact legible.valueSigil.trans ⟨Text.digits n, by simp [TokenSource.token, Text.digits],
    fun _ => NameTable.isTokenChar_of_mem_digits⟩

/-! ## Paths and operands -/

theorem BindsSteps.readable {first final : NameTable} {tail : List PathStep} {steps : List TokenStep}
    (binds : BindsSteps first tail steps final) (legible : first.Legible) : ∀ step ∈ steps, step.Readable := by
  induction binds with
  | nil => exact fun _ member => absurd member List.not_mem_nil
  | @field first final name rest steps _ ih =>
    exact List.forall_mem_cons.2 ⟨(legible.bind name).2, ih (legible.bind name).1⟩
  | index _ ih => exact List.forall_mem_cons.2 ⟨trivial, ih legible⟩

theorem Resolves.readable {path : Path} {resolved : ResolvedPath} (resolves : Resolves s path resolved t)
    (legible : s.Legible) : resolved.path.Readable := by
  cases resolves with
  | root found checked flat steps =>
    exact ⟨(legible.names.bind _).2, steps.readable (legible.names.bind _).1⟩

theorem BindsOperand.readable {rules : Option Property} {expr : Expr} {operand : TokenOperand}
    (binds : BindsOperand s rules expr operand t) (legible : s.Legible) : operand.Readable := by
  cases binds with
  | path resolves => exact resolves.readable legible
  | value _ run => exact spelled_bindValue run legible
  | size _ resolves => exact resolves.readable legible

theorem BindsAll.readable {rules : Option Property} {exprs : List Expr} {operands : List TokenOperand}
    (binds : BindsAll rules s exprs operands t) (legible : s.Legible) : ∀ operand ∈ operands, operand.Readable := by
  induction binds with
  | nil => exact fun _ member => absurd member List.not_mem_nil
  | cons first _ ih => exact List.forall_mem_cons.2 ⟨first.readable legible, ih (first.grows.legible legible)⟩

theorem BindsAll.ne_nil {rules : Option Property} {exprs : List Expr} {operands : List TokenOperand}
    (binds : BindsAll rules s exprs operands t) (nonempty : exprs ≠ []) : operands ≠ [] := by
  cases binds with
  | nil => exact absurd rfl nonempty
  | cons => simp

theorem BindsPair.readable {left right : Expr} {l r : TokenOperand} (binds : BindsPair s left right l r t)
    (legible : s.Legible) : l.Readable ∧ r.Readable := by
  cases binds with
  | pathLeft resolves other =>
    exact ⟨resolves.readable legible, other.readable (resolves.grows.legible legible)⟩
  | pathRight _ resolves other =>
    exact ⟨other.readable (resolves.grows.legible legible), resolves.readable legible⟩
  | noPath _ _ first second => exact ⟨first.readable legible, second.readable (first.grows.legible legible)⟩

theorem BindsSubject.readable {expr : Expr} {operand : TokenOperand} {rules : Option Property}
    (binds : BindsSubject s expr operand rules t) (legible : s.Legible) : operand.Readable := by
  cases binds with
  | path resolves => exact resolves.readable legible
  | other _ bound => exact bound.readable legible

/-! ## Conditions -/

theorem BindsCondition.readable_of_legible {expr : Expr} {c : TokenCondition} (binds : BindsCondition s expr c t)
    (legible : s.Legible) : c.Readable := by
  induction binds with
  | and left _ ihLeft ihRight => exact ⟨ihLeft legible, ihRight (left.grows.legible legible)⟩
  | or _ left _ ihLeft ihRight => exact ⟨ihLeft legible, ihRight (left.grows.legible legible)⟩
  | not _ _ ih => exact ih legible
  | compare _ _ _ pair => exact pair.readable legible
  | «exists» _ resolves => exact resolves.readable legible
  | notExists _ resolves => exact resolves.readable legible
  | hasType _ _ resolves run =>
    exact ⟨resolves.readable legible, spelled_bindValue run (resolves.grows.legible legible)⟩
  | beginsWith _ resolves other =>
    exact ⟨resolves.readable legible, other.readable (resolves.grows.legible legible)⟩
  | contains _ resolves other =>
    exact ⟨resolves.readable legible, other.readable (resolves.grows.legible legible)⟩
  | between _ subject low high =>
    have afterSubject := subject.grows.legible legible
    exact ⟨subject.readable legible, low.readable afterSubject, high.readable (low.grows.legible afterSubject)⟩
  | isIn _ nonempty subject all =>
    exact ⟨subject.readable legible, all.ne_nil nonempty, all.readable (subject.grows.legible legible)⟩

/-! ## Updates -/

theorem BindsUpdateValue.readable {rules : Option Property} {expr : Expr} {value : TokenValue}
    (binds : BindsUpdateValue s rules expr value t) (legible : s.Legible) : value.Readable := by
  induction binds with
  | operand _ binds => exact binds.readable legible
  | add first _ ihFirst ihSecond | subtract first _ ihFirst ihSecond | listAppend first _ ihFirst ihSecond =>
    exact ⟨ihFirst legible, ihSecond (first.grows.legible legible)⟩
  | ifNotExists resolves _ ih => exact ⟨resolves.readable legible, ih (resolves.grows.legible legible)⟩

theorem BindsUpdate.readable {assignment : Assignment} {update : TokenUpdate}
    (binds : BindsUpdate s assignment update t) (legible : s.Legible) : update.Readable := by
  cases binds with
  | set resolves _ value => exact ⟨resolves.readable legible, value.readable (resolves.grows.legible legible)⟩
  | remove resolves => exact resolves.readable legible
  | add _ resolves _ operand | delete resolves _ operand =>
    exact ⟨resolves.readable legible, operand.readable (resolves.grows.legible legible)⟩

end ItemExpr

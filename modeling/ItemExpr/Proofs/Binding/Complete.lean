import ItemExpr.Proofs.Binding.Run

/-!
# Derivations are runs

The converse of taking runs apart: where there is a derivation, the operation runs, and it answers and leaves what the
derivation says. So an operation is shown to succeed by giving its derivation (`BindsCondition.run`, `BindsUpdate.run`).
-/

namespace ItemExpr

open Session SessionM

variable {s t : Session}

/-! ## Paths and operands -/

theorem BindsSteps.run {first final : NameTable} {tail : List PathStep} {steps : List TokenStep}
    (binds : BindsSteps first tail steps final) (named : s.names = first) :
    tail.mapM bindStep s = .ok steps { s with names := final } := by
  induction binds generalizing s with
  | nil =>
    subst named
    rfl
  | @field first final name rest steps _ ih =>
    subst named
    rw [List.mapM_cons, bind_eq_ok]
    refine ⟨.field (s.names.bind name).1, { s with names := (s.names.bind name).2 }, rfl, ?_⟩
    exact bind_pure_eq_ok.2 ⟨steps, ih rfl, rfl⟩
  | @index first final position rest steps _ ih =>
    rw [List.mapM_cons, bind_eq_ok]
    exact ⟨.index position, s, rfl, bind_pure_eq_ok.2 ⟨steps, ih named, rfl⟩⟩

theorem Resolves.run {path : Path} {resolved : ResolvedPath} (resolves : Resolves s path resolved t) :
    resolvePath path s = .ok resolved t := by
  cases resolves with
  | @root root tail property steps names found checked flat binds =>
    refine query_bind_eq_ok.2 ⟨property, found, query_bind_eq_ok.2 ⟨(), checked, ?_⟩⟩
    refine bind_eq_ok.2 ⟨_, _, bindName_eq_ok.2 ⟨rfl, rfl⟩, ?_⟩
    refine bind_eq_ok.2 ⟨steps, _, binds.run rfl, ?_⟩
    refine bind_eq_ok.2 ⟨_, _, get_eq_ok.2 ⟨rfl, rfl⟩, ?_⟩
    -- The path is not refused: it is not nested, or no condition on keys of a known entity is compiled.
    have allowed : ¬ (!tail.isEmpty && s.keysOnly && s.entity.isSome) = true := by
      intro refused
      simp only [Bool.and_eq_true, Bool.not_eq_true', List.isEmpty_eq_false_iff] at refused
      have unknown := flat refused.1.1 refused.1.2
      simp [unknown] at refused
    show (if (!tail.isEmpty && s.keysOnly && s.entity.isSome) = true then _ else pure _ : SessionM ResolvedPath) _ = _
    rw [if_neg allowed]
    rfl

theorem BindsOperand.run {rules : Option Property} {expr : Expr} {bound : TokenOperand}
    (binds : BindsOperand s rules expr bound t) : operand rules expr s = .ok bound t := by
  cases binds with
  | path resolves => exact bind_pure_eq_ok.2 ⟨_, resolves.run, rfl⟩
  | value encoded run =>
    exact bind_pure_eq_ok.2 ⟨_, query_bind_eq_ok.2 ⟨_, encoded, run⟩, rfl⟩
  | size unrestricted resolves =>
    exact reject_bind_eq_ok.2 ⟨unrestricted, bind_pure_eq_ok.2 ⟨_, resolves.run, rfl⟩⟩

theorem BindsAll.run {rules : Option Property} {exprs : List Expr} {operands : List TokenOperand}
    (binds : BindsAll rules s exprs operands t) : exprs.mapM (operand rules) s = .ok operands t := by
  induction binds with
  | nil => rfl
  | cons first _ ih =>
    rw [List.mapM_cons]
    exact bind_eq_ok.2 ⟨_, _, first.run, bind_pure_eq_ok.2 ⟨_, ih, rfl⟩⟩

theorem BindsSubject.run {expr : Expr} {bound : TokenOperand} {rules : Option Property}
    (binds : BindsSubject s expr bound rules t) : subject expr s = .ok (bound, rules) t := by
  cases binds with
  | path resolves => exact bind_pure_eq_ok.2 ⟨_, resolves.run, rfl⟩
  | other noPath binds =>
    rw [subject]
    · exact bind_pure_eq_ok.2 ⟨_, binds.run, rfl⟩
    · exact noPath

theorem BindsPair.run {left right : Expr} {l r : TokenOperand} (binds : BindsPair s left right l r t) :
    operandPair left right s = .ok (l, r) t := by
  cases binds with
  | pathLeft resolves other =>
    exact bind_eq_ok.2 ⟨_, _, resolves.run, bind_pure_eq_ok.2 ⟨_, other.run, rfl⟩⟩
  | pathRight noPath resolves other =>
    rw [operandPair]
    · exact bind_eq_ok.2 ⟨_, _, resolves.run, bind_pure_eq_ok.2 ⟨_, other.run, rfl⟩⟩
    · exact noPath
  | noPath noLeft noRight first second =>
    rw [operandPair]
    · exact bind_eq_ok.2 ⟨_, _, first.run, bind_pure_eq_ok.2 ⟨_, second.run, rfl⟩⟩
    · exact noLeft
    · exact noRight

/-! ## Partition keys -/

/-- A tree is no path from a property that is not mapped. -/
def Session.Maps (session : Session) (expr : Expr) : Prop :=
  ∀ root tail, expr = .member ⟨.field root :: tail⟩ → ∃ property, session.property root = .ok property

theorem Resolves.maps {path : Path} {resolved : ResolvedPath} (resolves : Resolves s path resolved t) :
    s.Maps (.member path) := by
  rintro _ _ same
  cases resolves with
  | root found =>
    cases same
    exact ⟨_, found⟩

theorem maps_of_not_member {expr : Expr} (noPath : ∀ path, expr ≠ .member path) : s.Maps expr :=
  fun _ _ same => absurd same (noPath _)

theorem Session.Grows.maps {before after : Session} {expr : Expr} (grows : Grows before after) :
    after.Maps expr ↔ before.Maps expr := by
  simp only [Session.Maps, grows.property]

theorem BindsOperand.maps {rules : Option Property} {expr : Expr} {operand : TokenOperand}
    (binds : BindsOperand s rules expr operand t) : s.Maps expr := by
  cases binds with
  | path resolves => exact resolves.maps
  | value | size => exact maps_of_not_member nofun

theorem BindsSubject.maps {expr : Expr} {operand : TokenOperand} {rules : Option Property}
    (binds : BindsSubject s expr operand rules t) : s.Maps expr := by
  cases binds with
  | path resolves => exact resolves.maps
  | other noPath => exact maps_of_not_member noPath

theorem BindsPair.maps {left right : Expr} {l r : TokenOperand} (binds : BindsPair s left right l r t) :
    s.Maps left ∧ s.Maps right := by
  cases binds with
  | pathLeft resolves other => exact ⟨resolves.maps, resolves.grows.maps.1 other.maps⟩
  | pathRight noPath resolves => exact ⟨maps_of_not_member noPath, resolves.maps⟩
  | noPath noLeft noRight => exact ⟨maps_of_not_member noLeft, maps_of_not_member noRight⟩

theorem partitionKeyName?_run {expr : Expr} (maps : s.Maps expr) : ∃ name, partitionKeyName? expr s = .ok name s := by
  unfold partitionKeyName?
  by_cases keys : s.keysOnly = true
  · split
    · rename_i root tail
      obtain ⟨property, found⟩ := maps root tail rfl
      refine ⟨if s.isPartitionKey property then some property.logicalName else none, ?_⟩
      refine bind_eq_ok.2 ⟨s, s, rfl, ?_⟩
      rw [if_neg (by simp [keys])]
      exact query_bind_eq_ok.2 ⟨property, found, rfl⟩
    · refine ⟨none, bind_eq_ok.2 ⟨s, s, rfl, ?_⟩⟩
      rw [if_neg (by simp [keys])]
      rfl
  · refine ⟨none, bind_eq_ok.2 ⟨s, s, rfl, ?_⟩⟩
    rw [if_pos (by simp [keys])]
    rfl

theorem checkPartitionSide_run {op : Comparison} {side : Expr} (maps : s.Maps side)
    (equality : s.PinsPartition side → op = .eq) : ∃ pins, checkPartitionSide op side s = .ok pins s := by
  obtain ⟨name, run⟩ := partitionKeyName?_run maps
  obtain ⟨pinned, _⟩ := partitionKeyName?_eq_ok run
  cases name with
  | none => exact ⟨false, bind_eq_ok.2 ⟨none, s, run, rfl⟩⟩
  | some name =>
    refine ⟨true, bind_eq_ok.2 ⟨some name, s, run, ?_⟩⟩
    simp only [if_pos (equality (pinned.1 rfl))]
    rfl

theorem rejectPartitionKey_run {expr : Expr} (maps : s.Maps expr) (free : ¬ s.PinsPartition expr)
    (construct : String) : rejectPartitionKey expr construct s = .ok () s := by
  obtain ⟨name, run⟩ := partitionKeyName?_run maps
  obtain ⟨pinned, _⟩ := partitionKeyName?_eq_ok run
  cases name with
  | none => exact bind_eq_ok.2 ⟨none, s, run, rfl⟩
  | some name => exact absurd (pinned.1 rfl) free

/-! ## Conditions -/

theorem comparison_run {op : Comparison} {left right : Expr} {l r : TokenOperand} {pins : Bool}
    (unrestricted : op = .ne → s.keysOnly = false)
    (pinned : pins = true ↔ s.PinsPartition left ∨ s.PinsPartition right) (equality : pins = true → op = .eq)
    (pair : BindsPair s left right l r t) : comparison op left right s = .ok (.compare op l r) (t.noting pins) := by
  obtain ⟨mapsLeft, mapsRight⟩ := pair.maps
  obtain ⟨leftPins, checkLeft⟩ := checkPartitionSide_run mapsLeft fun pins => equality (pinned.2 (.inl pins))
  obtain ⟨rightPins, checkRight⟩ := checkPartitionSide_run mapsRight fun pins => equality (pinned.2 (.inr pins))
  have same : (leftPins || rightPins) = pins := by
    rw [Bool.eq_iff_iff, Bool.or_eq_true, (checkPartitionSide_eq_ok checkLeft).1,
      (checkPartitionSide_eq_ok checkRight).1, pinned]
  unfold comparison
  refine unless_rejected.2 ⟨unrestricted, ?_⟩
  refine bind_eq_ok.2 ⟨leftPins, s, checkLeft, bind_eq_ok.2 ⟨rightPins, s, checkRight, ?_⟩⟩
  refine bind_eq_ok.2 ⟨(l, r), t, pair.run, ?_⟩
  -- The flag is set or left alone, and both are what `noting` does.
  simp only [same]
  cases pins with
  | false =>
    rw [noting_false]
    rfl
  | true => exact bind_pure_eq_ok.2 ⟨(), markPartitionBound_eq_ok.2 rfl, rfl⟩

theorem BindsCondition.run {expr : Expr} {bound : TokenCondition} (binds : BindsCondition s expr bound t) :
    condition expr s = .ok bound t := by
  induction binds with
  | and _ _ ihLeft ihRight =>
    rw [condition]
    exact bind_eq_ok.2 ⟨_, _, ihLeft, bind_pure_eq_ok.2 ⟨_, ihRight, rfl⟩⟩
  | or unrestricted _ _ ihLeft ihRight =>
    rw [condition]
    exact reject_bind_eq_ok.2 ⟨unrestricted, bind_eq_ok.2 ⟨_, _, ihLeft, bind_pure_eq_ok.2 ⟨_, ihRight, rfl⟩⟩⟩
  | not unrestricted _ ih =>
    rw [condition]
    exact reject_bind_eq_ok.2 ⟨unrestricted, bind_pure_eq_ok.2 ⟨_, ih, rfl⟩⟩
  | compare unrestricted pinned equality pair =>
    rw [condition]
    exact comparison_run unrestricted pinned equality pair
  | «exists» unrestricted resolves | notExists unrestricted resolves =>
    rw [condition]
    exact reject_bind_eq_ok.2 ⟨unrestricted, bind_pure_eq_ok.2 ⟨_, resolves.run, rfl⟩⟩
  | hasType unrestricted known resolves run =>
    rw [condition]
    refine reject_bind_eq_ok.2 ⟨unrestricted, ?_⟩
    simp only [List.contains_eq_mem, known, decide_true, Bool.not_true, if_neg Bool.false_ne_true]
    exact bind_eq_ok.2 ⟨_, _, resolves.run, bind_pure_eq_ok.2 ⟨_, run, rfl⟩⟩
  | beginsWith free resolves other =>
    rw [condition]
    refine bind_eq_ok.2 ⟨(), _, rejectPartitionKey_run resolves.maps free _, ?_⟩
    exact bind_eq_ok.2 ⟨_, _, resolves.run, bind_pure_eq_ok.2 ⟨_, other.run, rfl⟩⟩
  | contains unrestricted resolves other =>
    rw [condition]
    refine reject_bind_eq_ok.2 ⟨unrestricted, ?_⟩
    exact bind_eq_ok.2 ⟨_, _, resolves.run, bind_pure_eq_ok.2 ⟨_, other.run, rfl⟩⟩
  | between free tested low high =>
    rw [condition]
    refine bind_eq_ok.2 ⟨(), _, rejectPartitionKey_run tested.maps free _, ?_⟩
    refine bind_eq_ok.2 ⟨(_, _), _, tested.run, ?_⟩
    exact bind_eq_ok.2 ⟨_, _, low.run, bind_pure_eq_ok.2 ⟨_, high.run, rfl⟩⟩
  | @isIn s u t tested candidates subject operands rules unrestricted nonempty binds all =>
    rw [condition]
    refine reject_bind_eq_ok.2 ⟨unrestricted, ?_⟩
    cases candidates with
    | nil => exact absurd rfl nonempty
    | cons candidate rest =>
      exact bind_eq_ok.2 ⟨(_, _), _, binds.run, bind_pure_eq_ok.2 ⟨_, all.run, rfl⟩⟩

/-- A tree is compiled as a condition where there is a derivation for it, and nowhere else. -/
theorem condition_eq_ok {expr : Expr} {bound : TokenCondition} :
    condition expr s = .ok bound t ↔ BindsCondition s expr bound t :=
  ⟨condition_binds, BindsCondition.run⟩

/-! ## Updates -/

theorem BindsUpdateValue.run {rules : Option Property} {expr : Expr} {bound : TokenValue}
    (binds : BindsUpdateValue s rules expr bound t) : updateValue rules expr s = .ok bound t := by
  induction binds with
  | @operand s t rules expr operand noCall binds =>
    -- An operand that is no call is a path or a literal, and those are what `updateValue` takes for operands.
    cases binds with
    | path resolves =>
      rw [updateValue]
      exact bind_pure_eq_ok.2 ⟨_, (BindsOperand.path resolves).run, rfl⟩
    | value encoded run =>
      rw [updateValue]
      exact bind_pure_eq_ok.2 ⟨_, (BindsOperand.value encoded run).run, rfl⟩
    | size => exact absurd rfl (noCall _ _)
  | add _ _ ihLeft ihRight | subtract _ _ ihLeft ihRight =>
    rw [updateValue]
    exact bind_eq_ok.2 ⟨_, _, ihLeft, bind_pure_eq_ok.2 ⟨_, ihRight, rfl⟩⟩
  | ifNotExists resolves _ ih =>
    rw [updateValue]
    exact bind_eq_ok.2 ⟨_, _, resolves.run, bind_pure_eq_ok.2 ⟨_, ih, rfl⟩⟩
  | listAppend _ _ ihFirst ihSecond =>
    rw [updateValue]
    exact bind_eq_ok.2 ⟨_, _, ihFirst, bind_pure_eq_ok.2 ⟨_, ihSecond, rfl⟩⟩

/-- A call that is a value to set is none of the calls that remove, add or delete. -/
theorem BindsUpdateValue.longCall {rules : Option Property} {method : String} {args : List Expr} {bound : TokenValue}
    (binds : BindsUpdateValue s rules (.call method args) bound t) : 2 ≤ args.length := by
  cases binds with
  | operand noCall => exact absurd rfl (noCall _ _)
  | ifNotExists | listAppend => exact Nat.le_refl 2

theorem BindsUpdate.run {update : Assignment} {bound : TokenUpdate} (binds : BindsUpdate s update bound t) :
    assignment update s = .ok bound t := by
  -- No rule is for a property of the key.
  have notKey {property : Property} (role : property.keyRole = .none) : ¬ property.keyRole.isKey = true := by
    simp [KeyRole.isKey_eq_false_iff, role]
  unfold assignment
  cases binds with
  | set resolves role binds =>
    refine bind_eq_ok.2 ⟨_, _, resolves.run, ?_⟩
    simp only [if_neg (notKey role)]
    split
    case h_5 => exact bind_pure_eq_ok.2 ⟨_, binds.run, rfl⟩
    -- The other calls have fewer arguments than any that is a value to set.
    all_goals exact absurd binds.longCall (by simp)
  | remove resolves role =>
    refine bind_eq_ok.2 ⟨_, _, resolves.run, ?_⟩
    rw [if_neg (notKey role)]
    rfl
  | add method resolves role operand =>
    refine bind_eq_ok.2 ⟨_, _, resolves.run, ?_⟩
    rw [if_neg (notKey role)]
    obtain rfl | rfl := method <;> exact bind_pure_eq_ok.2 ⟨_, operand.run, rfl⟩
  | delete resolves role operand =>
    refine bind_eq_ok.2 ⟨_, _, resolves.run, ?_⟩
    rw [if_neg (notKey role)]
    exact bind_pure_eq_ok.2 ⟨_, operand.run, rfl⟩

/-- An assignment is compiled where there is a derivation for it, and nowhere else. -/
theorem assignment_eq_ok {update : Assignment} {bound : TokenUpdate} :
    assignment update s = .ok bound t ↔ BindsUpdate s update bound t :=
  ⟨assignment_binds, BindsUpdate.run⟩

end ItemExpr

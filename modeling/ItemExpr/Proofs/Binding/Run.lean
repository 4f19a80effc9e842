import ItemExpr.Proofs.Binding

/-!
# Runs are derivations

A run that succeeds is taken apart here, once for each function that binds, and nowhere else: what it answers and the
session that it leaves are those of a derivation (`condition_binds`, `assignment_binds`).
-/

namespace ItemExpr

open Session SessionM

variable {s t : Session}

/-! ## Paths and operands -/

theorem bindSteps_mapM {tail : List PathStep} {steps : List TokenStep} (run : tail.mapM bindStep s = .ok steps t) :
    BindsSteps s.names tail steps t.names ∧ t = { s with names := t.names } := by
  induction tail generalizing s steps with
  | nil =>
    obtain ⟨rfl, rfl⟩ := pure_eq_ok.1 run
    exact ⟨.nil, rfl⟩
  | cons step rest ih =>
    rw [List.mapM_cons] at run
    obtain ⟨first, u, bindsFirst, run⟩ := bind_eq_ok.1 run
    obtain ⟨later, bindsLater, rfl⟩ := bind_pure_eq_ok.1 run
    obtain ⟨derived, frame⟩ := ih bindsLater
    cases step with
    | field name =>
      obtain ⟨token, bound, rfl⟩ := bind_pure_eq_ok.1 bindsFirst
      obtain ⟨rfl, rfl⟩ := bindName_eq_ok.1 bound
      exact ⟨.field derived, frame⟩
    | index position =>
      obtain ⟨rfl, rfl⟩ := pure_eq_ok.1 bindsFirst
      exact ⟨.index derived, frame⟩

theorem resolvePath_resolves : ∀ {path : Path} {resolved : ResolvedPath},
    resolvePath path s = .ok resolved t → Resolves s path resolved t
  | ⟨[]⟩, _, run => absurd run unsupported_ne_ok
  | ⟨.index _ :: _⟩, _, run => absurd run unsupported_ne_ok
  | ⟨.field root :: tail⟩, resolved, run => by
    obtain ⟨property, found, run⟩ := query_bind_eq_ok.1 run
    obtain ⟨_, checked, run⟩ := query_bind_eq_ok.1 run
    obtain ⟨token, u, bound, run⟩ := bind_eq_ok.1 run
    obtain ⟨rfl, rfl⟩ := bindName_eq_ok.1 bound
    obtain ⟨tokens, v, boundSteps, run⟩ := bind_eq_ok.1 run
    obtain ⟨derived, frame⟩ := bindSteps_mapM boundSteps
    obtain ⟨_, _, read, run⟩ := bind_eq_ok.1 run
    obtain ⟨rfl, rfl⟩ := get_eq_ok.1 read
    split at run
    · obtain ⟨_, _, thrown, _⟩ := bind_eq_ok.1 run
      exact absurd thrown throw_ne_ok
    · rename_i allowed
      obtain ⟨rfl, rfl⟩ := pure_eq_ok.1 run
      -- A nested path is refused last, and by then nothing but the names has changed.
      have flat : tail ≠ [] → s.keysOnly = true → s.entity = none := by
        intro nested keys
        rw [frame] at allowed
        have mode : s.mode = .keysOnly := by simpa [keysOnly] using keys
        simpa [nested, keysOnly, mode] using allowed
      rw [frame]
      exact .root found checked flat derived

theorem operand_binds {rules : Option Property} {expr : Expr} {bound : TokenOperand}
    (run : operand rules expr s = .ok bound t) : BindsOperand s rules expr bound t := by
  unfold operand at run
  split at run
  case h_1 path =>
    obtain ⟨resolved, resolves, rfl⟩ := bind_pure_eq_ok.1 run
    exact .path (resolvePath_resolves resolves)
  case h_2 value =>
    obtain ⟨token, binds, rfl⟩ := bind_pure_eq_ok.1 run
    obtain ⟨stored, v, encodes, binds⟩ := bind_eq_ok.1 binds
    obtain ⟨encoded, rfl⟩ := query_eq_ok.1 encodes
    exact .value encoded binds
  case h_3 args =>
    obtain ⟨_, u, allowed, run⟩ := bind_eq_ok.1 run
    obtain ⟨unrestricted, rfl⟩ := rejectInKeyCondition_eq_ok.1 allowed
    split at run
    · obtain ⟨resolved, resolves, rfl⟩ := bind_pure_eq_ok.1 run
      exact .size unrestricted (resolvePath_resolves resolves)
    · exact absurd run unsupported_ne_ok
  case h_4 | h_5 => exact absurd run unsupported_ne_ok

theorem mapM_operand_binds {rules : Option Property} {exprs : List Expr} {operands : List TokenOperand}
    (run : exprs.mapM (operand rules) s = .ok operands t) : BindsAll rules s exprs operands t := by
  induction exprs generalizing s operands with
  | nil =>
    obtain ⟨rfl, rfl⟩ := pure_eq_ok.1 run
    exact .nil
  | cons expr rest ih =>
    rw [List.mapM_cons] at run
    obtain ⟨first, u, bindsFirst, run⟩ := bind_eq_ok.1 run
    obtain ⟨later, bindsLater, rfl⟩ := bind_pure_eq_ok.1 run
    exact .cons (operand_binds bindsFirst) (ih bindsLater)

theorem subject_binds {expr : Expr} {bound : TokenOperand} {rules : Option Property}
    (run : subject expr s = .ok (bound, rules) t) : BindsSubject s expr bound rules t := by
  unfold subject at run
  split at run
  case h_1 path =>
    obtain ⟨resolved, resolves, same⟩ := bind_pure_eq_ok.1 run
    cases same
    exact .path (resolvePath_resolves resolves)
  case h_2 noPath =>
    obtain ⟨bound, binds, same⟩ := bind_pure_eq_ok.1 run
    cases same
    exact .other noPath (operand_binds binds)

theorem operandPair_binds {left right : Expr} {l r : TokenOperand}
    (run : operandPair left right s = .ok (l, r) t) : BindsPair s left right l r t := by
  unfold operandPair at run
  split at run
  case h_1 path =>
    obtain ⟨resolved, u, resolves, run⟩ := bind_eq_ok.1 run
    obtain ⟨other, binds, same⟩ := bind_pure_eq_ok.1 run
    cases same
    exact .pathLeft (resolvePath_resolves resolves) (operand_binds binds)
  case h_2 path noPath =>
    obtain ⟨resolved, u, resolves, run⟩ := bind_eq_ok.1 run
    obtain ⟨other, binds, same⟩ := bind_pure_eq_ok.1 run
    cases same
    exact .pathRight noPath (resolvePath_resolves resolves) (operand_binds binds)
  case h_3 noLeft noRight =>
    obtain ⟨first, u, bindsLeft, run⟩ := bind_eq_ok.1 run
    obtain ⟨second, bindsRight, same⟩ := bind_pure_eq_ok.1 run
    cases same
    exact .noPath noLeft noRight (operand_binds bindsLeft) (operand_binds bindsRight)

/-! ## Partition keys

A condition on keys looks at the partition key before anything is bound, so the session is as it was. -/

theorem partitionKeyName?_eq_ok {expr : Expr} {name : Option String}
    (run : partitionKeyName? expr s = .ok name t) : (name.isSome = true ↔ s.PinsPartition expr) ∧ s = t := by
  obtain ⟨_, _, read, run⟩ := bind_eq_ok.1 run
  obtain ⟨rfl, rfl⟩ := get_eq_ok.1 read
  by_cases keys : s.keysOnly = true
  · rw [if_neg (by simp [keys])] at run
    split at run
    case h_1 root tail _ =>
      obtain ⟨property, found, run⟩ := query_bind_eq_ok.1 run
      obtain ⟨_, _, read, run⟩ := bind_eq_ok.1 run
      obtain ⟨rfl, rfl⟩ := get_eq_ok.1 read
      obtain ⟨rfl, rfl⟩ := pure_eq_ok.1 run
      refine ⟨⟨fun named => ⟨keys, root, tail, property, rfl, found, ?_⟩, ?_⟩, rfl⟩
      · by_cases partition : s.isPartitionKey property = true
        · exact partition
        · simp [partition] at named
      · rintro ⟨_, _, _, other, same, alsoFound, partition⟩
        cases same
        cases found.symm.trans alsoFound
        simp [partition]
    case h_2 _ noPath =>
      obtain ⟨rfl, rfl⟩ := pure_eq_ok.1 run
      refine ⟨⟨fun named => (by cases named), ?_⟩, rfl⟩
      rintro ⟨_, root, tail, _, rfl, _⟩
      exact absurd rfl (noPath root tail)
  · rw [if_pos (by simp [keys])] at run
    obtain ⟨rfl, rfl⟩ := pure_eq_ok.1 run
    exact ⟨⟨fun named => (by cases named), fun pins => absurd pins.1 keys⟩, rfl⟩

theorem checkPartitionSide_eq_ok {op : Comparison} {side : Expr} {pins : Bool}
    (run : checkPartitionSide op side s = .ok pins t) :
    (pins = true ↔ s.PinsPartition side) ∧ (pins = true → op = .eq) ∧ s = t := by
  obtain ⟨name, u, named, run⟩ := bind_eq_ok.1 run
  obtain ⟨pinned, rfl⟩ := partitionKeyName?_eq_ok named
  cases name with
  | none =>
    obtain ⟨rfl, rfl⟩ := pure_eq_ok.1 run
    exact ⟨by simpa using pinned, by simp, rfl⟩
  | some name =>
    by_cases equal : op = .eq
    · simp only [if_pos equal] at run
      obtain ⟨rfl, rfl⟩ := pure_eq_ok.1 run
      exact ⟨by simpa using pinned, fun _ => equal, rfl⟩
    · simp only [if_neg equal] at run
      exact absurd run throw_ne_ok

theorem rejectPartitionKey_eq_ok {expr : Expr} {construct : String}
    (run : rejectPartitionKey expr construct s = .ok () t) : ¬ s.PinsPartition expr ∧ s = t := by
  obtain ⟨name, u, named, run⟩ := bind_eq_ok.1 run
  obtain ⟨pinned, rfl⟩ := partitionKeyName?_eq_ok named
  cases name with
  | none => exact ⟨by simpa using pinned, (pure_eq_ok.1 run).2⟩
  | some name => exact absurd run throw_ne_ok

theorem noting_false (session : Session) : session.noting false = session := by
  simp [noting]

theorem markPartitionBound_eq_ok : markPartitionBound s = .ok () t ↔ s.noting true = t := by
  rw [markPartitionBound, modify_eq_ok, noting, Bool.or_true]

theorem unless_rejected {α : Type} {refused : Prop} [Decidable refused] {construct : String} {rest : Unit → SessionM α}
    {a : α} : (if refused then rejectInKeyCondition construct >>= rest else rest ()) s = .ok a t ↔
      (refused → s.keysOnly = false) ∧ rest () s = .ok a t := by
  by_cases asked : refused
  · rw [if_pos asked, reject_bind_eq_ok]
    simp [asked]
  · rw [if_neg asked]
    simp [asked]

theorem comparison_binds {op : Comparison} {left right : Expr} {bound : TokenCondition}
    (run : comparison op left right s = .ok bound t) :
    BindsCondition s (.binary (.comparison op) left right) bound t := by
  unfold comparison at run
  obtain ⟨unrestricted, run⟩ := unless_rejected.1 run
  -- Both sides are checked before either is bound, so both checks are about `s`.
  obtain ⟨leftPins, _, checkLeft, run⟩ := bind_eq_ok.1 run
  obtain ⟨pinsLeft, leftEq, rfl⟩ := checkPartitionSide_eq_ok checkLeft
  obtain ⟨rightPins, _, checkRight, run⟩ := bind_eq_ok.1 run
  obtain ⟨pinsRight, rightEq, rfl⟩ := checkPartitionSide_eq_ok checkRight
  obtain ⟨⟨l, r⟩, u, pair, run⟩ := bind_eq_ok.1 run
  -- The flag is set or left alone, and both are what `noting` does.
  have outcome : bound = .compare op l r ∧ t = u.noting (leftPins || rightPins) := by
    by_cases pins : (leftPins || rightPins) = true
    · simp only [if_pos pins] at run
      obtain ⟨_, noted, rfl⟩ := bind_pure_eq_ok.1 run
      rw [← markPartitionBound_eq_ok.1 noted, pins]
      exact ⟨rfl, rfl⟩
    · simp only [if_neg pins] at run
      obtain ⟨rfl, rfl⟩ := pure_eq_ok.1 run
      rw [Bool.not_eq_true _ |>.mp pins, noting_false]
      exact ⟨rfl, rfl⟩
  obtain ⟨rfl, rfl⟩ := outcome
  refine .compare unrestricted ?_ ?_ (operandPair_binds pair)
  · rw [Bool.or_eq_true, pinsLeft, pinsRight]
  · intro pins
    rcases Bool.or_eq_true _ _ |>.mp pins with pins | pins
    · exact leftEq pins
    · exact rightEq pins


/-! ## Conditions -/

theorem conditionCall_binds {method : String} {args : List Expr} {bound : TokenCondition}
    (run : conditionCall method args s = .ok bound t) : BindsCondition s (.call method args) bound t := by
  unfold conditionCall at run
  split at run
  case h_1 path =>
    obtain ⟨unrestricted, run⟩ := reject_bind_eq_ok.1 run
    obtain ⟨resolved, resolves, rfl⟩ := bind_pure_eq_ok.1 run
    exact .exists unrestricted (resolvePath_resolves resolves)
  case h_2 path =>
    obtain ⟨unrestricted, run⟩ := reject_bind_eq_ok.1 run
    obtain ⟨resolved, resolves, rfl⟩ := bind_pure_eq_ok.1 run
    exact .notExists unrestricted (resolvePath_resolves resolves)
  case h_3 path descriptor =>
    obtain ⟨unrestricted, run⟩ := reject_bind_eq_ok.1 run
    by_cases known : descriptor ∈ AttributeValue.descriptors
    · simp only [List.contains_eq_mem, known, decide_true, Bool.not_true, if_neg Bool.false_ne_true] at run
      obtain ⟨resolved, u, resolves, run⟩ := bind_eq_ok.1 run
      obtain ⟨token, binds, rfl⟩ := bind_pure_eq_ok.1 run
      exact .hasType unrestricted known (resolvePath_resolves resolves) binds
    · simp only [List.contains_eq_mem, known, decide_false, Bool.not_false, if_true] at run
      obtain ⟨_, _, refused, _⟩ := bind_eq_ok.1 run
      exact absurd refused unsupported_ne_ok
  case h_4 path start =>
    obtain ⟨_, _, allowed, run⟩ := bind_eq_ok.1 run
    obtain ⟨free, rfl⟩ := rejectPartitionKey_eq_ok allowed
    obtain ⟨resolved, u, resolves, run⟩ := bind_eq_ok.1 run
    obtain ⟨token, binds, rfl⟩ := bind_pure_eq_ok.1 run
    exact .beginsWith free (resolvePath_resolves resolves) (operand_binds binds)
  case h_5 path element =>
    obtain ⟨unrestricted, run⟩ := reject_bind_eq_ok.1 run
    obtain ⟨resolved, u, resolves, run⟩ := bind_eq_ok.1 run
    obtain ⟨token, binds, rfl⟩ := bind_pure_eq_ok.1 run
    exact .contains unrestricted (resolvePath_resolves resolves) (operand_binds binds)
  case h_6 tested low high =>
    obtain ⟨_, _, allowed, run⟩ := bind_eq_ok.1 run
    obtain ⟨free, rfl⟩ := rejectPartitionKey_eq_ok allowed
    obtain ⟨⟨subject, rules⟩, u, bindsTested, run⟩ := bind_eq_ok.1 run
    obtain ⟨l, v, bindsLow, run⟩ := bind_eq_ok.1 run
    obtain ⟨h, bindsHigh, rfl⟩ := bind_pure_eq_ok.1 run
    exact .between free (subject_binds bindsTested) (operand_binds bindsLow) (operand_binds bindsHigh)
  case h_7 tested candidates =>
    obtain ⟨unrestricted, run⟩ := reject_bind_eq_ok.1 run
    cases candidates with
    | nil =>
      obtain ⟨_, _, refused, _⟩ := bind_eq_ok.1 run
      exact absurd refused unsupported_ne_ok
    | cons candidate rest =>
      obtain ⟨⟨subject, rules⟩, u, bindsTested, run⟩ := bind_eq_ok.1 run
      obtain ⟨operands, bindsRest, rfl⟩ := bind_pure_eq_ok.1 run
      exact .isIn unrestricted (by simp) (subject_binds bindsTested) (mapM_operand_binds bindsRest)
  case h_8 => exact absurd run unsupported_ne_ok

theorem condition_binds {expr : Expr} {bound : TokenCondition} (run : condition expr s = .ok bound t) :
    BindsCondition s expr bound t := by
  -- The cases are those of `condition`; `case4` and `case7` are the trees that it refuses.
  induction expr using condition.induct generalizing s t bound with
  | case1 left right ihLeft ihRight =>
    rw [condition] at run
    obtain ⟨l, u, bindsLeft, run⟩ := bind_eq_ok.1 run
    obtain ⟨r, bindsRight, rfl⟩ := bind_pure_eq_ok.1 run
    exact .and (ihLeft bindsLeft) (ihRight bindsRight)
  | case2 left right ihLeft ihRight =>
    rw [condition] at run
    obtain ⟨unrestricted, run⟩ := reject_bind_eq_ok.1 run
    obtain ⟨l, u, bindsLeft, run⟩ := bind_eq_ok.1 run
    obtain ⟨r, bindsRight, rfl⟩ := bind_pure_eq_ok.1 run
    exact .or unrestricted (ihLeft bindsLeft) (ihRight bindsRight)
  | case3 op left right =>
    rw [condition] at run
    exact comparison_binds run
  | case4 op left right notAnd notOr notComparison =>
    rw [condition] at run
    · exact absurd run unsupported_ne_ok
    all_goals assumption
  | case5 inner ih =>
    rw [condition] at run
    obtain ⟨unrestricted, run⟩ := reject_bind_eq_ok.1 run
    obtain ⟨c, binds, rfl⟩ := bind_pure_eq_ok.1 run
    exact .not unrestricted (ih binds)
  | case6 method args =>
    rw [condition] at run
    exact conditionCall_binds run
  | case7 expr =>
    rw [condition] at run
    · exact absurd run unsupported_ne_ok
    all_goals assumption

/-! ## Updates -/

theorem updateValue_binds {rules : Option Property} {expr : Expr} {bound : TokenValue}
    (run : updateValue rules expr s = .ok bound t) : BindsUpdateValue s rules expr bound t := by
  induction rules, expr using updateValue.induct generalizing s t bound with
  | case1 rules left right ihLeft ihRight =>
    rw [updateValue] at run
    obtain ⟨l, u, bindsLeft, run⟩ := bind_eq_ok.1 run
    obtain ⟨r, bindsRight, rfl⟩ := bind_pure_eq_ok.1 run
    exact .add (ihLeft bindsLeft) (ihRight bindsRight)
  | case2 rules left right ihLeft ihRight =>
    rw [updateValue] at run
    obtain ⟨l, u, bindsLeft, run⟩ := bind_eq_ok.1 run
    obtain ⟨r, bindsRight, rfl⟩ := bind_pure_eq_ok.1 run
    exact .subtract (ihLeft bindsLeft) (ihRight bindsRight)
  | case3 rules op left right notAdd notSubtract =>
    rw [updateValue] at run
    · exact absurd run unsupported_ne_ok
    all_goals assumption
  | case4 rules path fallback ih =>
    rw [updateValue] at run
    obtain ⟨resolved, u, resolves, run⟩ := bind_eq_ok.1 run
    obtain ⟨value, binds, rfl⟩ := bind_pure_eq_ok.1 run
    exact .ifNotExists (resolvePath_resolves resolves) (ih _ binds)
  | case5 rules first second ihFirst ihSecond =>
    rw [updateValue] at run
    obtain ⟨l, u, bindsFirst, run⟩ := bind_eq_ok.1 run
    obtain ⟨r, bindsSecond, rfl⟩ := bind_pure_eq_ok.1 run
    exact .listAppend (ihFirst bindsFirst) (ihSecond bindsSecond)
  | case6 rules method args notDefault notAppend =>
    rw [updateValue] at run
    · exact absurd run unsupported_ne_ok
    all_goals assumption
  | case7 rules inner =>
    rw [updateValue] at run
    exact absurd run unsupported_ne_ok
  | case8 rules path | case9 rules value =>
    rw [updateValue] at run
    obtain ⟨operand, binds, rfl⟩ := bind_pure_eq_ok.1 run
    exact .operand (by simp) (operand_binds binds)

theorem assignment_binds {update : Assignment} {bound : TokenUpdate}
    (run : assignment update s = .ok bound t) : BindsUpdate s update bound t := by
  obtain ⟨target, value⟩ := update
  obtain ⟨resolved, u, resolves, run⟩ := bind_eq_ok.1 run
  have resolves := resolvePath_resolves resolves
  by_cases key : resolved.property.keyRole.isKey = true
  · simp only [if_pos key] at run
    obtain ⟨_, _, refused, _⟩ := bind_eq_ok.1 run
    exact absurd refused throw_ne_ok
  · simp only [if_neg key] at run
    have role := KeyRole.isKey_eq_false_iff.1 (Bool.not_eq_true _ |>.mp key)
    split at run
    case h_1 =>
      obtain ⟨rfl, rfl⟩ := pure_eq_ok.1 run
      exact .remove resolves role
    -- `increment` and `add_to_set` are one rule: over tokens there is no difference between them.
    case h_2 value _ | h_3 value _ =>
      obtain ⟨operand, binds, rfl⟩ := bind_pure_eq_ok.1 run
      exact .add (by simp) resolves role (operand_binds binds)
    case h_4 value _ =>
      obtain ⟨operand, binds, rfl⟩ := bind_pure_eq_ok.1 run
      exact .delete resolves role (operand_binds binds)
    case h_5 =>
      obtain ⟨operand, binds, rfl⟩ := bind_pure_eq_ok.1 run
      exact .set resolves role (updateValue_binds binds)

end ItemExpr

import ItemExpr.Proofs.Encryption
import ItemExpr.Proofs.Literals
import ItemExpr.Proofs.Request.Accumulation

/-!
# The literals of a request

What compiling a part binds stays bound up to the end of the request. So in a finished request each value token of a
condition or an action stands for its literal, which was encoded under the rules of its own property in the session in
which that part was compiled.
-/

namespace ItemExpr

open Session SessionM

variable {s t : Session}

/-- Where a fragment was compiled, and that what was bound there is bound at the end. -/
theorem Performs.compiled {tasks : List Task} {fragments : List Fragment} (performs : Performs s tasks fragments t)
    {fragment : Fragment} (member : fragment ∈ fragments) :
    fragment.start.entity = s.entity ∧
      ∃ u, fragment.part.compile fragment.start = .ok (fragment.clause, fragment.text) u ∧ u.values <+: t.values := by
  obtain ⟨earlier, u, compiles, later⟩ := performs.compiled_between member
  exact ⟨earlier.entity, u, compiles, later.values⟩

/-! ## Finished requests -/

/-- The value tokens of a condition or an action that methods made stand for its literals, one by one and in their
order: each is bound to what is stored for its literal in the session that the fragment was compiled in. -/
structure Fragment.BindsLiterals (fragment : Fragment) (values : Table AttributeValue) : Prop where
  condition : ∀ clause condition, fragment.part = .condition clause (.typed condition) → condition.OfMethods →
    ∃ c after, SessionM.condition condition.toExpr fragment.start = .ok c after ∧ fragment.text = c.text ∧
      List.Forall₂ (Literal.StandsFor fragment.start values) condition.literals (valueTokens c.lexemes)
  action : ∀ action, fragment.part = .action action → action.OfMethods →
    ∃ update after, SessionM.assignment action.toAssignment fragment.start = .ok update after ∧
      fragment.text = update.text ∧
      List.Forall₂ (Literal.StandsFor fragment.start values) action.literals (valueTokens update.lexemes)

theorem Fragment.bindsLiterals {fragment : Fragment} {values : Table AttributeValue}
    (compiles : fragment.part.compile fragment.start = .ok (fragment.clause, fragment.text) t)
    (stays : t.values <+: values) : fragment.BindsLiterals values where
  condition clause condition same typed := by
    rw [same] at compiles
    obtain ⟨text, run, shown⟩ := bind_pure_eq_ok.1 compiles
    obtain ⟨c, run, written⟩ := compile_typed run
    have stands := (condition_binds run).literals typed
    exact ⟨c, t, run, (congrArg Prod.snd shown).symm.trans written.symm, stand_mono stands (.refl _) stays⟩
  action action same typed := by
    rw [same] at compiles
    obtain ⟨update, run, shown⟩ := bind_pure_eq_ok.1 compiles
    have stands := (assignment_binds run).literals typed
    exact ⟨update, t, run, (congrArg Prod.snd shown).symm, stand_mono stands (.refl _) stays⟩

/-- In a finished request every literal that a method took is bound under the rules of its own property. -/
theorem Recipe.literals_bound {recipe : Recipe} {entity : Entity} {settings : Settings} {compiled : Compiled}
    (built : recipe.build entity settings = .ok compiled) :
    ∃ fragments, recipe.Yields entity settings fragments compiled ∧
      fragments.map (·.part) = recipe.tasks.filterMap Task.part? ∧
      ∀ fragment ∈ fragments, fragment.start.entity = some entity ∧ fragment.BindsLiterals compiled.values := by
  obtain ⟨fragments, yields⟩ := recipe.yields_of_build built
  obtain ⟨after, performs, _, values⟩ := yields.performs
  refine ⟨fragments, yields, performs.parts, ?_⟩
  intro fragment member
  obtain ⟨known, u, compiles, stays⟩ := performs.compiled member
  exact ⟨known, Fragment.bindsLiterals compiles (values ▸ stays)⟩

/-! Literals below an encrypted property, beside one that is not encrypted, and beside a size; and an instant that is
stored as the clock of the host shows it. -/

/-- The clock of a place that is one hour ahead of universal time, and two in summer. -/
def LocalClock.summerTime : LocalClock where
  offsetAt t := if 4 ≤ t.date.month ∧ t.date.month ≤ 9 then 7200 else 3600
  offsetAt_gt t := by split <;> decide
  offsetAt_lt t := by split <;> decide

def seenAccounts : Entity :=
  { accounts with
    properties := accounts.properties ++ [{ Property.plain "SeenAt" "seen_at" with timezone := .local }] }

/-- Just after half past eleven in the evening before July, in universal time. -/
def DateTime.lateInJune : DateTime :=
  .ofUtc ⟨2024, 6, 30, by decide, by decide, by decide, by decide⟩ ⟨84600, 250000000, by decide, by decide⟩

def replaceCard : Recipe :=
  .update
    [.encryptor tagging,
      .localClock .summerTime,
      .actions [.setIfNotExists ((PropertyPath.ofName "CardNumber").index 0) (.literal (.string "4111"))],
      .condition (.typed (.and (.isIn (.ofName "Status") [.literal (.string "new"), .property (.ofName "CardNumber")])
        (.compareSize .lt (.ofName "CardNumber") 20))),
      .condition (.typed (.compare .lt (.ofName "SeenAt") (.literal (.dateTime .lateInJune))))]

theorem literals_bound_of_replaceCard :
    ∃ compiled, replaceCard.build seenAccounts .standard = .ok compiled ∧
      compiled.texts =
        ["SET #card[0] = if_not_exists(#card[0], :p0)",
          "(#status IN (:p1, #card) AND size(#card) < :p2) AND (#seen_at < :p3)"] ∧
      (compiled.values.value? ":p3").bind (·.string?) = some "2024-07-01T01:30:00.2500000+02:00" ∧
      ∃ fragments, replaceCard.Yields seenAccounts .standard fragments compiled ∧
        fragments.map (·.part) = replaceCard.tasks.filterMap Task.part? ∧
        ∀ fragment ∈ fragments,
          fragment.start.entity = some seenAccounts ∧ fragment.BindsLiterals compiled.values := by
  have finished : (replaceCard.build seenAccounts .standard).toOption.map
      (fun compiled => (compiled.texts, (compiled.values.value? ":p3").bind (·.string?))) =
        some (["SET #card[0] = if_not_exists(#card[0], :p0)",
          "(#status IN (:p1, #card) AND size(#card) < :p2) AND (#seen_at < :p3)"],
          some "2024-07-01T01:30:00.2500000+02:00") := by
    decide +kernel
  obtain ⟨compiled, given, both⟩ := Option.map_eq_some_iff.1 finished
  obtain ⟨texts, seenAt⟩ := Prod.mk.inj both
  have built := toOption_eq_some.1 given
  exact ⟨compiled, built, texts, seenAt, Recipe.literals_bound built⟩

end ItemExpr

import Mathlib.Data.List.Perm.Basic
import ItemExpr.Proofs.Placeholder.Tokens
import ItemExpr.Proofs.Request.Recipe

/-!
# Tokens in the texts of a request

The texts of a request are put together from those that were added to its clauses, with separators, parentheses and
keywords that have no tokens in them. So the tokens in them are those in the fragments, though clauses may change their
order.
-/

namespace ItemExpr

/-- The tokens in some texts, each of which is read on its own. -/
def tokensInAll (sigil : Char) (texts : List String) : List String :=
  texts.flatMap fun text => tokensIn sigil text.toList

/-- All clauses, in the order in which a request has them. -/
def Clause.all : List Clause :=
  [.conditions .key, .conditions .filter, .projection] ++ UpdateClause.all.map .actions ++ [.conditions .guard]

variable {sigil : Char}

/-! ## Joined texts -/

/-- What stands between texts ends a token in front of it and has none of its own. -/
structure Separates (sigil : Char) (separator : List Char) : Prop where
  ends : ∀ rest, Ends (separator ++ rest)
  plain : sigil ∉ separator

theorem tokensIn_intercalate {separator : List Char} (separates : Separates sigil separator)
    (texts : List (List Char)) : tokensIn sigil (separator.intercalate texts) = texts.flatMap (tokensIn sigil) := by
  induction texts with
  | nil => rfl
  | cons first rest ih =>
    cases rest with
    | nil => simp
    | cons second later =>
      rw [List.intercalate_cons_cons, List.append_assoc, tokensIn_append (separates.ends _),
        tokensIn_of_plain separates.plain, ih, List.flatMap_cons, List.flatMap_cons, List.flatMap_cons]

theorem tokensIn_intercalate_text {separator : String} (separates : Separates sigil separator.toList)
    (texts : List String) : tokensIn sigil (separator.intercalate texts).toList = tokensInAll sigil texts := by
  rw [String.toList_intercalate, tokensIn_intercalate separates, List.flatMap_map]
  rfl

section Layout

variable (known : sigil = '#' ∨ sigil = ':')
include known

theorem separates_and : Separates sigil " AND ".toList :=
  ⟨fun _ => ends_blank, by rcases known with rfl | rfl <;> decide⟩

theorem separates_comma : Separates sigil ", ".toList :=
  ⟨fun _ => ends_comma, by rcases known with rfl | rfl <;> decide⟩

theorem separates_blank : Separates sigil " ".toList :=
  ⟨fun _ => ends_blank, by rcases known with rfl | rfl <;> decide⟩

theorem tokensIn_parenthesized (text : String) :
    tokensIn sigil ("(" ++ text ++ ")").toList = tokensIn sigil text.toList := by
  have opens : sigil ∉ ['('] := by rcases known with rfl | rfl <;> decide
  have closes : tokensIn sigil [')'] = [] := by rcases known with rfl | rfl <;> rfl
  calc
    _ = tokensIn sigil (['('] ++ (text.toList ++ [')'])) := by simp
    _ = tokensIn sigil text.toList := by
      rw [tokensIn_of_plain opens, tokensIn_append ends_close, closes, List.append_nil]

theorem tokensInAll_joinConditions (texts : List String) :
    tokensInAll sigil (joinConditions texts).toList = tokensInAll sigil texts := by
  match texts with
  | [] => rfl
  | [_] => rfl
  | first :: second :: rest =>
    have joined : joinConditions (first :: second :: rest) =
        some (" AND ".intercalate ((first :: second :: rest).map fun text => "(" ++ text ++ ")")) := rfl
    rw [joined, Option.toList_some, tokensInAll, List.flatMap_singleton,
      tokensIn_intercalate_text (separates_and known), tokensInAll, List.flatMap_map]
    simp only [tokensIn_parenthesized known, tokensInAll]

theorem tokensInAll_joinProjection (texts : List String) :
    tokensInAll sigil (joinProjection texts).toList = tokensInAll sigil texts := by
  cases texts with
  | nil => rfl
  | cons first rest =>
    rw [joinProjection, List.isEmpty_cons, if_neg Bool.false_ne_true, Option.toList_some, tokensInAll,
      List.flatMap_singleton, tokensIn_intercalate_text (separates_comma known)]

theorem tokensInAll_actionsText? (clause : UpdateClause) (texts : List String) :
    tokensInAll sigil (actionsText? clause texts).toList = tokensInAll sigil texts := by
  cases texts with
  | nil => rfl
  | cons first rest =>
    have plain : sigil ∉ (clause.keyword ++ " ").toList := by
      rcases known with rfl | rfl <;> cases clause <;> decide
    have shown : actionsText? clause (first :: rest) =
        some (clause.keyword ++ " " ++ ", ".intercalate (first :: rest)) := rfl
    rw [shown, Option.toList_some, tokensInAll, List.flatMap_singleton, String.toList_append, tokensIn_of_plain plain,
      tokensIn_intercalate_text (separates_comma known)]

theorem tokensInAll_updateText? (texts : UpdateClause → List String) :
    tokensInAll sigil (updateText? texts).toList =
      UpdateClause.all.flatMap fun clause => tokensInAll sigil (texts clause) := by
  have joined : tokensInAll sigil (updateText? texts).toList =
      tokensInAll sigil (UpdateClause.all.filterMap fun clause => actionsText? clause (texts clause)) := by
    unfold updateText?
    split
    · rename_i absent
      rw [absent]
      rfl
    · rw [Option.toList_some, tokensInAll, List.flatMap_singleton, tokensIn_intercalate_text (separates_blank known)]
  rw [joined, tokensInAll, List.filterMap_eq_flatMap_toList, List.flatMap_assoc]
  exact congrArg (List.flatMap · UpdateClause.all)
    (funext fun clause => tokensInAll_actionsText? known clause (texts clause))

/-- The tokens in the texts of a request are those in the texts of its clauses. -/
theorem tokensInAll_layout (texts : Clause → List String) :
    tokensInAll sigil (Compiled.layout texts) = Clause.all.flatMap fun clause => tokensInAll sigil (texts clause) := by
  have append : ∀ first second, tokensInAll sigil (first ++ second) =
      tokensInAll sigil first ++ tokensInAll sigil second := fun _ _ => List.flatMap_append
  simp only [Compiled.layout, Clause.all, append, tokensInAll_joinConditions known, tokensInAll_joinProjection known,
    tokensInAll_updateText? known, List.flatMap_append, List.flatMap_cons, List.flatMap_nil, List.flatMap_map,
    List.append_nil, List.append_assoc]

end Layout

/-! ## Clauses and fragments -/

/-- Taken clause by clause the tokens are the same, but maybe in another order. -/
theorem tokensInAll_textsOf_perm (sigil : Char) (fragments : List Fragment) :
    (Clause.all.flatMap fun clause => tokensInAll sigil (textsOf clause fragments)).Perm
      (tokensInAll sigil (fragments.map (·.text))) := by
  induction fragments with
  | nil => simp [textsOf, tokensInAll]
  | cons fragment rest ih =>
    -- Each fragment belongs to one clause.
    have once : (Clause.all.flatMap fun clause => tokensInAll sigil (textsOf clause [fragment])) =
        tokensIn sigil fragment.text.toList := by
      cases place : fragment.clause with
      | conditions clause => cases clause <;> simp [Clause.all, UpdateClause.all, textsOf, tokensInAll, place]
      | projection => simp [Clause.all, UpdateClause.all, textsOf, tokensInAll, place]
      | actions clause => cases clause <;> simp [Clause.all, UpdateClause.all, textsOf, tokensInAll, place]
    have split : ∀ clause, tokensInAll sigil (textsOf clause (fragment :: rest)) =
        tokensInAll sigil (textsOf clause [fragment]) ++ tokensInAll sigil (textsOf clause rest) := by
      intro clause
      rw [← List.singleton_append, textsOf_append]
      exact List.flatMap_append
    simp only [split]
    refine (List.flatMap_append_perm ..).symm.trans ?_
    rw [once]
    exact ih.append_left _

/-- The tokens in the texts of a request are those in its fragments. -/
theorem Recipe.Yields.tokens_perm {recipe : Recipe} {entity : Entity} {settings : Settings}
    {fragments : List Fragment} {compiled : Compiled} (yields : recipe.Yields entity settings fragments compiled)
    (known : sigil = '#' ∨ sigil = ':') :
    (tokensInAll sigil compiled.texts).Perm (tokensInAll sigil (fragments.map (·.text))) := by
  rw [yields.texts, tokensInAll_layout known]
  exact tokensInAll_textsOf_perm sigil fragments

end ItemExpr

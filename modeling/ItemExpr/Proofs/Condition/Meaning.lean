import ItemExpr.Proofs.Binding.Readable
import ItemExpr.Proofs.Binding.Run
import ItemExpr.Proofs.Condition.Reading

/-!
# Conditions keep their meaning

The text of a compiled condition, read by the grammar of condition texts, with its tokens resolved in the tables of the
request, says what the tree says. Three facts meet here: binding keeps the formula, what it binds has readable tokens,
and grouping chains to the right changes no formula.
-/

namespace ItemExpr

variable {names : Table String} {values : Table AttributeValue}

/-! ## Grouping keeps the formula -/

namespace TokenCondition

open Formula (Same)

theorem formula?_and {left right : TokenCondition} {f : Formula Atom} :
    (TokenCondition.and left right).formula? names values = some f ↔
      ∃ g h, left.formula? names values = some g ∧ right.formula? names values = some h ∧ .and g h = f := by
  simp [formula?, Option.bind_eq_some_iff]

theorem formula?_or {left right : TokenCondition} {f : Formula Atom} :
    (TokenCondition.or left right).formula? names values = some f ↔
      ∃ g h, left.formula? names values = some g ∧ right.formula? names values = some h ∧ .or g h = f := by
  simp [formula?, Option.bind_eq_some_iff]

theorem formula?_conjoin {left right : TokenCondition} {f g : Formula Atom}
    (first : left.formula? names values = some f) (second : right.formula? names values = some g) :
    ∃ joined, (left.conjoin right).formula? names values = some joined ∧ Same joined (.and f g) := by
  induction left generalizing f with
  | and head chain _ ih =>
    obtain ⟨h, rest, headMeans, chainMeans, rfl⟩ := formula?_and.1 first
    -- The head stays where it is, and what is joined goes behind the rest of the chain.
    obtain ⟨joined, joinedMeans, same⟩ := ih chainMeans
    refine ⟨.and h joined, formula?_and.2 ⟨h, joined, headMeans, joinedMeans, rfl⟩, ?_⟩
    exact (Same.and (.refl h) same).trans (Formula.and_assoc h rest g).symm
  | _ => exact ⟨.and f g, formula?_and.2 ⟨f, g, first, second, rfl⟩, .refl _⟩

theorem formula?_disjoin {left right : TokenCondition} {f g : Formula Atom}
    (first : left.formula? names values = some f) (second : right.formula? names values = some g) :
    ∃ joined, (left.disjoin right).formula? names values = some joined ∧ Same joined (.or f g) := by
  induction left generalizing f with
  | or head chain _ ih =>
    obtain ⟨h, rest, headMeans, chainMeans, rfl⟩ := formula?_or.1 first
    obtain ⟨joined, joinedMeans, same⟩ := ih chainMeans
    refine ⟨.or h joined, formula?_or.2 ⟨h, joined, headMeans, joinedMeans, rfl⟩, ?_⟩
    exact (Same.or (.refl h) same).trans (Formula.or_assoc h rest g).symm
  | _ => exact ⟨.or f g, formula?_or.2 ⟨f, g, first, second, rfl⟩, .refl _⟩

theorem formula?_regroup {condition : TokenCondition} {f : Formula Atom}
    (meant : condition.formula? names values = some f) :
    ∃ grouped, condition.regroup.formula? names values = some grouped ∧ Same grouped f := by
  induction condition generalizing f with
  | and left right ihLeft ihRight =>
    obtain ⟨l, r, leftMeans, rightMeans, rfl⟩ := formula?_and.1 meant
    obtain ⟨first, firstMeans, sameFirst⟩ := ihLeft leftMeans
    obtain ⟨second, secondMeans, sameSecond⟩ := ihRight rightMeans
    obtain ⟨joined, joinedMeans, same⟩ := formula?_conjoin firstMeans secondMeans
    exact ⟨joined, joinedMeans, same.trans (sameFirst.and sameSecond)⟩
  | or left right ihLeft ihRight =>
    obtain ⟨l, r, leftMeans, rightMeans, rfl⟩ := formula?_or.1 meant
    obtain ⟨first, firstMeans, sameFirst⟩ := ihLeft leftMeans
    obtain ⟨second, secondMeans, sameSecond⟩ := ihRight rightMeans
    obtain ⟨joined, joinedMeans, same⟩ := formula?_disjoin firstMeans secondMeans
    exact ⟨joined, joinedMeans, same.trans (sameFirst.or sameSecond)⟩
  | not inner ih =>
    simp only [formula?, Option.map_eq_some_iff] at meant
    obtain ⟨g, innerMeans, rfl⟩ := meant
    obtain ⟨grouped, groupedMeans, same⟩ := ih innerMeans
    exact ⟨.not grouped, by simp [regroup, formula?, groupedMeans], same.not⟩
  | _ => exact ⟨f, meant, .refl f⟩

end TokenCondition

/-! ## What is bound is readable -/

/-- A session whose names are bound by their attributes alone, and which issues tokens of the standard form. -/
structure Session.Standard (session : Session) : Prop where
  nameSigil : session.names.sigil = "#"
  names : session.names.AllSpelled
  valueSigil : session.tokens.sigil = ":p"

variable {s t : Session}

theorem Session.Standard.legible (standard : s.Standard) : s.Legible where
  names := ⟨⟨[], by simp [standard.nameSigil]⟩, standard.nameSigil ▸ standard.names⟩
  valueSigil := by
    refine ⟨['p'], standard.valueSigil, ?_⟩
    intro c member
    obtain rfl := List.mem_singleton.1 member
    decide

theorem BindsCondition.readable {expr : Expr} {c : TokenCondition} (binds : BindsCondition s expr c t)
    (standard : s.Standard) : c.Readable :=
  binds.readable_of_legible standard.legible

/-! ## The meaning of a compiled condition -/

theorem standard_of_bindAll {attributeNames : List String}
    (names : s.names = (NameTable.empty Settings.standard.nameSigil).bindAll attributeNames)
    (tokens : s.tokens.sigil = Settings.standard.valueSigil) : s.Standard where
  nameSigil := by rw [names, NameTable.sigil_bindAll]; rfl
  names := names ▸ (NameTable.allSpelled_empty _).bindAll attributeNames
  valueSigil := tokens

/-- What is read from the text of a compiled condition says what the tree says, whatever attributes and values are bound
before and afterwards. Texts are read by `TokenCondition.read?`; the tokens must have the standard form, and names must
be bound by their attributes alone. -/
theorem read?_condition {session after : Session} {attributeNames : List String} {expr : Expr} {c : TokenCondition}
    (names : session.names = (NameTable.empty Settings.standard.nameSigil).bindAll attributeNames)
    (tokens : session.tokens.sigil = Settings.standard.valueSigil)
    (run : SessionM.condition expr session = .ok c after) :
    ∃ source parsed, session.knowledge.formula? expr = some source ∧ TokenCondition.read? c.text = some parsed ∧
      ∀ names values, after.Within names values →
        ∃ reading, parsed.formula? names values = some reading ∧ Formula.Same reading source := by
  have standard := standard_of_bindAll names tokens
  have distinct : session.names.Distinct := names ▸ (NameTable.distinct_empty _).bindAll attributeNames
  have binds := condition_binds run
  have read := TokenCondition.read?_text (binds.readable standard)
  obtain ⟨source, meant, _⟩ := binds.formula? distinct ⟨List.prefix_rfl, List.prefix_rfl⟩
  refine ⟨source, c.regroup, meant, read, ?_⟩
  intro names values within
  obtain ⟨formula, meantLater, bound⟩ := binds.formula? distinct within
  -- The formula of the tree does not depend on the tables, so it is the same for all of them.
  obtain rfl : source = formula := Option.some.inj (meant.symm.trans meantLater)
  exact TokenCondition.formula?_regroup bound

/-- Names that differ only in what a token cannot show, a `BETWEEN` in an alternative, and a negation of it. -/
theorem read?_condition_of_negated_alternative :
    let start := Session.new .standard none
    let expr : Expr := .binary (.logical .and)
      (.not (.binary (.logical .or)
        (.call "between" [.member ⟨[.field "a b"]⟩, .constant (.string "x"), .constant (.string "y")])
        (.binary (.comparison .eq) (.member ⟨[.field "a#b", .index 2]⟩) (.constant (.bool true)))))
      (.call "attribute_exists" [.member ⟨[.field "(c"]⟩])
    ∃ c after, SessionM.condition expr start = .ok c after ∧
      c.text = "NOT (#a_b BETWEEN :p0 AND :p1 OR #a_b_1[2] = :p2) AND attribute_exists(#_c)" ∧
      ∃ source parsed, start.knowledge.formula? expr = some source ∧ TokenCondition.read? c.text = some parsed ∧
        ∀ names values, after.Within names values →
          ∃ reading, parsed.formula? names values = some reading ∧ Formula.Same reading source := by
  intro start expr
  have answer : (SessionM.condition expr).answer? start = some
      (.and (.not (.or (.between (.path ⟨"#a_b", []⟩) (.value ":p0") (.value ":p1"))
        (.compare .eq (.path ⟨"#a_b_1", [.index 2]⟩) (.value ":p2")))) (.exists ⟨"#_c", []⟩)) := by
    decide +kernel
  obtain ⟨after, run⟩ := SessionM.answer?_eq_some.1 answer
  have names : start.names = (NameTable.empty Settings.standard.nameSigil).bindAll [] := rfl
  exact ⟨_, after, run, by decide +kernel, read?_condition names rfl run⟩

end ItemExpr

import ItemExpr.Proofs.Names

/-!
# Runs of name tables

A table of names is used by two calls in any order: attributes are bound, and tokens are inserted for attributes. What
is bound stays, so an attribute keeps its token, and a token its attribute (`NameTable.performAll_consistent`).

The table finds the token of an attribute by looking through its bindings. An index of tokens that is kept beside the
table would answer the same: `IndexedNames` is a table with such an index, which its two calls change by different
rules.
-/

namespace ItemExpr

namespace NameTable

variable {table : NameTable} {attributeName token : String}

/-! ## Tokens of attributes -/

theorem token?_concat (table : NameTable) (token bound attributeName : String) :
    token? { table with bindings := table.bindings ++ [(token, bound)] } attributeName =
      (table.token? attributeName).or (if bound = attributeName then some token else none) := by
  unfold token?
  rw [List.find?_append]
  generalize List.find? _ table.bindings = found
  cases found with
  | some binding => simp
  | none => by_cases same : bound = attributeName <;> simp [same]

/-- An attribute that a token stands for has a token, though it need not be this one. -/
theorem isSome_token? (bound : table.attribute? token = some attributeName) :
    (table.token? attributeName).isSome = true := by
  obtain ⟨before, after, split, _⟩ := List.lookup_eq_some_iff.1 bound
  rw [token?, Option.isSome_map, List.find?_isSome]
  exact ⟨(token, attributeName), by simp [split], beq_self_eq_true _⟩

/-- Where no token is bound twice, the token of an attribute leads back to it. -/
theorem attribute?_of_token? (distinct : table.Distinct) (found : table.token? attributeName = some token) :
    table.attribute? token = some attributeName :=
  Table.value?_of_mem distinct (mem_of_token? found)

theorem bind_of_token? (found : table.token? attributeName = some token) :
    table.bind attributeName = (token, table) := by
  simp [bind, found]

theorem token?_bind (table : NameTable) (attributeName : String) :
    (table.bind attributeName).2.token? attributeName = some (table.bind attributeName).1 := by
  obtain ⟨token, found, bound⟩ | ⟨n, unknown, _, bound⟩ := bind_cases table attributeName <;> rw [bound]
  · exact found
  · rw [token?_concat, unknown, Option.none_or, if_pos rfl]

/-! ## Insertions -/

/-- What inserting a token does: it adds a binding if the token is new, and else changes nothing. -/
theorem insert_cases (table : NameTable) (token attributeName : String) :
    (table.bindings.binds token = false ∧ table.insert token attributeName =
      .ok { table with bindings := table.bindings ++ [(token, attributeName)] }) ∨
    (table.attribute? token = some attributeName ∧ table.insert token attributeName = .ok table) ∨
    ∃ existing, table.attribute? token = some existing ∧ existing ≠ attributeName ∧
      table.insert token attributeName = .error ⟨token, existing, attributeName⟩ := by
  cases found : table.attribute? token with
  | none =>
    have unbound : table.bindings.value? token = none := found
    exact .inl ⟨by simp [Table.binds, unbound], by simp [insert, found]⟩
  | some existing =>
    by_cases same : existing = attributeName
    · exact .inr (.inl ⟨by rw [same], by simp [insert, found, same]⟩)
    · exact .inr (.inr ⟨existing, rfl, same, by simp [insert, found, same]⟩)

end NameTable

/-! ## Runs -/

/-- A call to a table of names. -/
inductive NameCall where
  | bind (attributeName : String)
  | insert (token attributeName : String)

namespace NameTable

variable {table : NameTable} {attributeName token : String}

/-- The table after a call. An insertion that is refused leaves it as it was. -/
def perform (table : NameTable) : NameCall → NameTable
  | .bind attributeName => (table.bind attributeName).2
  | .insert token attributeName =>
    match table.insert token attributeName with
    | .ok next => next
    | .error _ => table

def performAll (table : NameTable) (calls : List NameCall) : NameTable :=
  calls.foldl perform table

/-- All that a call can do to a table: it binds a token that is not bound, or does nothing. -/
theorem perform_cases (table : NameTable) (call : NameCall) :
    table.perform call = table ∨ ∃ token attributeName, table.bindings.binds token = false ∧
      table.perform call = { table with bindings := table.bindings ++ [(token, attributeName)] } := by
  cases call with
  | bind attributeName =>
    rw [perform]
    obtain ⟨token, _, bound⟩ | ⟨n, _, first, bound⟩ := bind_cases table attributeName <;> rw [bound]
    · exact .inl rfl
    · exact .inr ⟨_, attributeName, first.free, rfl⟩
  | insert token attributeName =>
    obtain ⟨free, inserted⟩ | ⟨_, inserted⟩ | ⟨existing, _, _, refused⟩ := insert_cases table token attributeName
    · exact .inr ⟨token, attributeName, free, by simp [perform, inserted]⟩
    · exact .inl (by simp [perform, inserted])
    · exact .inl (by simp [perform, refused])

theorem Distinct.perform (distinct : table.Distinct) (call : NameCall) : (table.perform call).Distinct := by
  obtain same | ⟨token, attributeName, free, added⟩ := perform_cases table call
  · rwa [same]
  · rw [added]
    exact distinct.append_new attributeName free

theorem sigil_perform (table : NameTable) (call : NameCall) : (table.perform call).sigil = table.sigil := by
  obtain same | ⟨token, attributeName, _, added⟩ := perform_cases table call
  · rw [same]
  · rw [added]

/-- An attribute keeps the token that it has. -/
theorem token?_perform (found : table.token? attributeName = some token) (call : NameCall) :
    (table.perform call).token? attributeName = some token := by
  obtain same | ⟨other, bound, _, added⟩ := perform_cases table call
  · rwa [same]
  · rw [added, token?_concat, found, Option.some_or]

theorem Distinct.performAll (distinct : table.Distinct) (calls : List NameCall) :
    (table.performAll calls).Distinct := by
  induction calls generalizing table with
  | nil => exact distinct
  | cons call rest ih => exact ih (distinct.perform call)

theorem sigil_performAll (table : NameTable) (calls : List NameCall) :
    (table.performAll calls).sigil = table.sigil := by
  induction calls generalizing table with
  | nil => rfl
  | cons call rest ih => exact (ih _).trans (sigil_perform table call)

theorem token?_performAll (found : table.token? attributeName = some token) (calls : List NameCall) :
    (table.performAll calls).token? attributeName = some token := by
  induction calls generalizing table with
  | nil => exact found
  | cons call rest ih => exact ih (token?_perform found call)

/-- What binding an attribute in a table comes to, now and after any further calls. -/
structure BindsFor (table : NameTable) (attributeName : String) : Prop where
  /-- The token stands for the attribute. -/
  bound : (table.bind attributeName).2.attribute? (table.bind attributeName).1 = some attributeName
  /-- The attribute gets the same token again. -/
  again : ∀ calls, (((table.bind attributeName).2.performAll calls).bind attributeName).1 = (table.bind attributeName).1
  /-- No other attribute gets the token. -/
  own : ∀ calls other, (((table.bind attributeName).2.performAll calls).bind other).1 = (table.bind attributeName).1 →
    other = attributeName
  /-- Nothing is changed, or the first candidate that is not bound is added: a token of the right shape. -/
  added : (table.bind attributeName).2 = table ∨ ∃ n,
    table.bindings.FirstFree (candidate (stem table.sigil attributeName)) 0 n ∧
      table.bind attributeName = (candidate (stem table.sigil attributeName) n,
        { table with
          bindings := table.bindings ++ [(candidate (stem table.sigil attributeName) n, attributeName)] }) ∧
      Spelled table.sigil (table.bind attributeName).1

theorem Distinct.bindsFor (distinct : table.Distinct) (attributeName : String) : table.BindsFor attributeName where
  bound := attribute?_bind distinct attributeName
  again calls := by rw [bind_of_token? (token?_performAll (token?_bind table attributeName) calls)]
  own calls other same := by
    let last := (table.bind attributeName).2.performAll calls
    have stays : last.token? attributeName = some (table.bind attributeName).1 :=
      token?_performAll (token?_bind table attributeName) calls
    have distinctLast : last.Distinct := (distinct.bind attributeName).performAll calls
    -- The token is bound to both attributes in the table after `other` was bound as well.
    have first := attribute?_of_token? (distinctLast.bind other) (token?_perform stays (.bind other))
    have second := attribute?_bind distinctLast other
    rw [same] at second
    exact Option.some.inj (second.symm.trans first)
  added := by
    obtain ⟨token, _, bound⟩ | ⟨n, _, first, bound⟩ := bind_cases table attributeName
    · exact .inl (by rw [bound])
    · exact .inr ⟨n, first, bound, bound ▸ spelled_candidate table.sigil attributeName n⟩

end NameTable

/-! ## An index of the tokens -/

/-- A table of names, and beside it an index from attributes to their tokens. -/
structure IndexedNames where
  names : NameTable
  tokens : Table String

namespace IndexedNames

def empty (sigil : String) : IndexedNames :=
  ⟨.empty sigil, []⟩

/-- The token of an attribute: the one in the index, or else a new one, which is put into both tables. -/
def bind (indexed : IndexedNames) (attributeName : String) : String × IndexedNames :=
  match indexed.tokens.value? attributeName with
  | some token => (token, indexed)
  | none =>
    let token := NameTable.firstFree indexed.names.bindings (NameTable.stem indexed.names.sigil attributeName)
      indexed.names.bindings.length 0
    (token, {
      names := { indexed.names with bindings := indexed.names.bindings ++ [(token, attributeName)] }
      tokens := indexed.tokens ++ [(attributeName, token)] })

/-- Puts a token into the table. It goes into the index only if its attribute has no other token. -/
def insert (indexed : IndexedNames) (token attributeName : String) : Except Conflict IndexedNames :=
  match indexed.names.attribute? token with
  | some existing => if existing = attributeName then .ok indexed else .error ⟨token, existing, attributeName⟩
  | none => .ok {
      names := { indexed.names with bindings := indexed.names.bindings ++ [(token, attributeName)] }
      tokens :=
        if indexed.tokens.binds attributeName then indexed.tokens
        else indexed.tokens ++ [(attributeName, token)] }

def perform (indexed : IndexedNames) : NameCall → IndexedNames
  | .bind attributeName => (indexed.bind attributeName).2
  | .insert token attributeName =>
    match indexed.insert token attributeName with
    | .ok next => next
    | .error _ => indexed

def performAll (indexed : IndexedNames) (calls : List NameCall) : IndexedNames :=
  calls.foldl perform indexed

/-- The index answers what is found in the table. -/
def Faithful (indexed : IndexedNames) : Prop :=
  ∀ attributeName, indexed.tokens.value? attributeName = indexed.names.token? attributeName

variable {indexed : IndexedNames}

/-- A binding that is put into both tables. -/
theorem Faithful.concat (faithful : indexed.Faithful) (token attributeName : String) :
    Faithful {
      names := { indexed.names with bindings := indexed.names.bindings ++ [(token, attributeName)] }
      tokens := indexed.tokens ++ [(attributeName, token)] } := by
  intro other
  dsimp only
  rw [Table.value?_append, NameTable.token?_concat, faithful other, Table.value?_cons, Table.value?_nil]
  simp only [eq_comm]

theorem Faithful.bind (faithful : indexed.Faithful) (attributeName : String) :
    (indexed.bind attributeName).1 = (indexed.names.bind attributeName).1 ∧
      (indexed.bind attributeName).2.names = (indexed.names.bind attributeName).2 ∧
      (indexed.bind attributeName).2.Faithful := by
  have same := faithful attributeName
  cases found : indexed.names.token? attributeName with
  | some token =>
    rw [found] at same
    simpa [IndexedNames.bind, NameTable.bind, found, same] using faithful
  | none =>
    rw [found] at same
    simpa [IndexedNames.bind, NameTable.bind, found, same] using faithful.concat _ attributeName

/-- An insertion does the same to the table, and the index stays faithful. -/
theorem Faithful.insert (faithful : indexed.Faithful) (token attributeName : String) :
    (indexed.perform (.insert token attributeName)).names = indexed.names.perform (.insert token attributeName) ∧
      (indexed.perform (.insert token attributeName)).Faithful := by
  cases found : indexed.names.attribute? token with
  | some existing =>
    by_cases same : existing = attributeName <;>
      simpa [perform, NameTable.perform, IndexedNames.insert, NameTable.insert, found, same] using faithful
  | none =>
    refine ⟨by simp [perform, NameTable.perform, IndexedNames.insert, NameTable.insert, found], ?_⟩
    cases known : indexed.names.token? attributeName with
    | none =>
      have absent : indexed.tokens.binds attributeName = false := by simp [Table.binds, faithful attributeName, known]
      simpa [perform, IndexedNames.insert, found, absent] using faithful.concat token attributeName
    -- The attribute keeps the token that is in the index already, in the table as well.
    | some first =>
      have present : indexed.tokens.binds attributeName = true := by simp [Table.binds, faithful attributeName, known]
      simp only [perform, IndexedNames.insert, found, present, if_true]
      intro other
      dsimp only
      rw [NameTable.token?_concat, faithful other]
      by_cases same : attributeName = other
      · rw [← same, known, Option.some_or]
      · rw [if_neg same, Option.or_none]

theorem Faithful.perform (faithful : indexed.Faithful) (call : NameCall) :
    (indexed.perform call).names = indexed.names.perform call ∧ (indexed.perform call).Faithful := by
  cases call with
  | bind attributeName => exact (faithful.bind attributeName).2
  | insert token attributeName => exact faithful.insert token attributeName

theorem Faithful.performAll (faithful : indexed.Faithful) (calls : List NameCall) :
    (indexed.performAll calls).names = indexed.names.performAll calls ∧ (indexed.performAll calls).Faithful := by
  induction calls generalizing indexed with
  | nil => exact ⟨rfl, faithful⟩
  | cons call rest ih =>
    obtain ⟨names, next⟩ := faithful.perform call
    obtain ⟨later, last⟩ := ih next
    exact ⟨later.trans (congrArg (·.performAll rest) names), last⟩

theorem faithful_empty (sigil : String) : (empty sigil).Faithful :=
  fun _ => rfl

end IndexedNames

/-- Whatever calls a table has seen, binding an attribute answers a token that stands for it now and later, and that no
other attribute gets. A table with an index of tokens beside it answers the same, and its two tables agree. -/
theorem NameTable.performAll_consistent (sigil : String) (calls : List NameCall) :
    (∀ attributeName, ((empty sigil).performAll calls).BindsFor attributeName) ∧
      ((empty sigil).performAll calls).sigil = sigil ∧
      ((IndexedNames.empty sigil).performAll calls).names = (empty sigil).performAll calls ∧
      (∀ attributeName, (((IndexedNames.empty sigil).performAll calls).bind attributeName).1 =
        (((empty sigil).performAll calls).bind attributeName).1) ∧
      (∀ attributeName token, ((IndexedNames.empty sigil).performAll calls).tokens.value? attributeName = some token →
        ((empty sigil).performAll calls).attribute? token = some attributeName) ∧
      ∀ token attributeName, ((empty sigil).performAll calls).attribute? token = some attributeName →
        ∃ first, ((IndexedNames.empty sigil).performAll calls).tokens.value? attributeName = some first := by
  have distinct : ((empty sigil).performAll calls).Distinct := (distinct_empty sigil).performAll calls
  obtain ⟨same, faithful⟩ := (IndexedNames.faithful_empty sigil).performAll calls
  have answers := faithful
  rw [IndexedNames.Faithful, same] at answers
  refine ⟨distinct.bindsFor, sigil_performAll .., same, ?_, ?_, ?_⟩
  · intro attributeName
    rw [(faithful.bind attributeName).1, same]
    rfl
  · intro attributeName token found
    exact attribute?_of_token? distinct ((answers attributeName).symm.trans found)
  · intro token attributeName bound
    exact Option.isSome_iff_exists.1 ((answers attributeName).symm ▸ isSome_token? bound)

/-- Attributes that differ only in what a token cannot show, and one whose token another attribute has taken. -/
example :
    let table := (NameTable.empty "#").performAll
      [.bind "a-b", .bind "a.b", .insert "#c" "d", .insert "#c" "c", .bind "c", .bind "d"]
    table.bindings = [("#a_b", "a-b"), ("#a_b_1", "a.b"), ("#c", "d"), ("#c_1", "c")] := by
  decide +kernel

end ItemExpr

import ItemExpr.Placeholder

/-!
# Name tables

What binding attributes does to a table of names. A table in which no token is bound twice answers for the token of an
attribute with that attribute, and goes on doing so when more is bound. In a table that was made by binding attributes
alone every token is the sigil with letters, digits and underscores behind it.
-/

namespace ItemExpr

namespace Table

variable {α : Type}

/-- A binding stays where more is bound behind it. -/
theorem value?_of_prefix {first second : Table α} {name : String} {value : α}
    (more : first <+: second) (bound : value? first name = some value) : value? second name = some value := by
  obtain ⟨rest, rfl⟩ := more
  rw [value?_append, bound, Option.some_or]

/-- The binding behind a table that does not bind its name. -/
theorem value?_append_new {table : Table α} {name : String} (value : α) (new : binds table name = false) :
    value? (table ++ [(name, value)]) name = some value := by
  have unbound : value? table name = none := by simpa [binds] using new
  rw [value?_append, unbound, Option.none_or, value?_cons, if_pos rfl]

/-- Where no name is bound twice each binding counts. -/
theorem value?_of_mem {table : Table α} (distinct : (table.map (·.1)).Nodup) {name : String} {value : α}
    (member : (name, value) ∈ table) : value? table name = some value := by
  induction table with
  | nil => cases member
  | cons binding rest ih =>
    obtain ⟨key, old⟩ := binding
    rw [List.map_cons, List.nodup_cons] at distinct
    rw [value?_cons]
    rcases List.mem_cons.1 member with same | later
    · cases same
      rw [if_pos rfl]
    -- The keys are distinct, so the head cannot bind the name as well.
    · have differs : name ≠ key := by
        rintro rfl
        exact distinct.1 (List.mem_map.2 ⟨_, later, rfl⟩)
      rw [if_neg differs]
      exact ih distinct.2 later

/-- A search through numbered names that goes from one number to another and stops there, because this is the first name
that is not bound. It has no more steps than there are bindings. -/
structure FirstFree (table : Table α) (names : Nat → String) (start last : Nat) : Prop where
  starts : start ≤ last
  ends : last ≤ start + table.length
  passed : ∀ n, start ≤ n → n < last → table.binds (names n) = true
  free : table.binds (names last) = false

end Table

namespace NameTable

/-! ## Binding one attribute -/

/-- No token is bound twice. -/
def Distinct (table : NameTable) : Prop :=
  (table.bindings.map (·.1)).Nodup

theorem Distinct.append_new {table : NameTable} (distinct : table.Distinct) {token : String} (attributeName : String)
    (new : table.bindings.binds token = false) :
    Distinct { table with bindings := table.bindings ++ [(token, attributeName)] } := by
  have absent : token ∉ table.bindings.map (·.1) := by
    intro member
    rw [← Table.binds_iff, new] at member
    cases member
  simp only [Distinct, List.map_append, List.map_cons, List.map_nil]
  refine List.nodup_append.2 ⟨distinct, by simp, ?_⟩
  rintro old member _ same rfl
  obtain rfl := List.mem_singleton.1 same
  exact absent member

/-- The search ends at a candidate, and those that it passed over are bound. -/
theorem firstFree_passed (bindings : Table String) (stem : String) (attempts start : Nat) :
    ∃ last, firstFree bindings stem attempts start = candidate stem last ∧ start ≤ last ∧ last ≤ start + attempts ∧
      ∀ n, start ≤ n → n < last → bindings.binds (candidate stem n) = true := by
  induction attempts generalizing start with
  | zero => exact ⟨start, rfl, Nat.le_refl _, Nat.le_refl _, fun n _ _ => by omega⟩
  | succ attempts ih =>
    rw [firstFree]
    split
    · rename_i bound
      obtain ⟨last, found, later, few, passed⟩ := ih (start + 1)
      refine ⟨last, found, by omega, by omega, fun n behind before => ?_⟩
      obtain rfl | further := Nat.eq_or_lt_of_le behind
      · exact bound
      · exact passed n further before
    · exact ⟨start, rfl, Nat.le_refl _, by omega, fun n _ _ => by omega⟩

/-- The search has one candidate more than there are bindings, so it ends at the first free one. -/
theorem firstFree_eq (bindings : Table String) (stem : String) :
    ∃ last, firstFree bindings stem bindings.length 0 = candidate stem last ∧
      bindings.FirstFree (candidate stem) 0 last := by
  obtain ⟨last, found, starts, ends, passed⟩ := firstFree_passed bindings stem bindings.length 0
  exact ⟨last, found, starts, ends, passed, found ▸ binds_firstFree bindings stem⟩

theorem mem_of_token? {table : NameTable} {attributeName token : String}
    (found : table.token? attributeName = some token) : (token, attributeName) ∈ table.bindings := by
  obtain ⟨⟨first, bound⟩, hit, rfl⟩ := Option.map_eq_some_iff.1 found
  have same : bound = attributeName := by simpa using List.find?_some hit
  exact same ▸ List.mem_of_find?_eq_some hit

/-- What binding an attribute does: nothing where it has a token, and else one new binding of the first free
candidate. -/
theorem bind_cases (table : NameTable) (attributeName : String) :
    (∃ token, table.token? attributeName = some token ∧ table.bind attributeName = (token, table)) ∨
    (∃ n, table.token? attributeName = none ∧
      table.bindings.FirstFree (candidate (stem table.sigil attributeName)) 0 n ∧
      table.bind attributeName = (candidate (stem table.sigil attributeName) n,
        { table with
          bindings := table.bindings ++ [(candidate (stem table.sigil attributeName) n, attributeName)] })) := by
  cases found : table.token? attributeName with
  | some token => exact .inl ⟨token, rfl, by simp [bind, found]⟩
  | none =>
    obtain ⟨n, chosen, first⟩ := firstFree_eq table.bindings (stem table.sigil attributeName)
    exact .inr ⟨n, rfl, first, by simp [bind, found, chosen]⟩

@[simp] theorem sigil_bind (table : NameTable) (attributeName : String) :
    (table.bind attributeName).2.sigil = table.sigil := by
  obtain ⟨token, _, bound⟩ | ⟨n, _, _, bound⟩ := bind_cases table attributeName <;> rw [bound]

theorem bindings_prefix_bind (table : NameTable) (attributeName : String) :
    table.bindings <+: (table.bind attributeName).2.bindings := by
  obtain ⟨token, _, bound⟩ | ⟨n, _, _, bound⟩ := bind_cases table attributeName
  · exact bound ▸ List.prefix_rfl
  · exact bound ▸ List.prefix_append ..

theorem Distinct.bind {table : NameTable} (distinct : table.Distinct) (attributeName : String) :
    (table.bind attributeName).2.Distinct := by
  obtain ⟨token, _, bound⟩ | ⟨n, _, first, bound⟩ := bind_cases table attributeName <;> rw [bound]
  · exact distinct
  · exact distinct.append_new attributeName first.free

/-- The token of an attribute stands for the attribute. -/
theorem attribute?_bind {table : NameTable} (distinct : table.Distinct) (attributeName : String) :
    (table.bind attributeName).2.attribute? (table.bind attributeName).1 = some attributeName := by
  obtain ⟨token, found, bound⟩ | ⟨n, _, first, bound⟩ := bind_cases table attributeName <;> rw [bound]
  · exact Table.value?_of_mem distinct (mem_of_token? found)
  · exact Table.value?_append_new attributeName first.free

/-! ## Binding many -/

/-- Binds some attributes, one after the other. -/
def bindAll (table : NameTable) (attributeNames : List String) : NameTable :=
  attributeNames.foldl (fun table attributeName => (table.bind attributeName).2) table

@[simp] theorem bindAll_nil (table : NameTable) : table.bindAll [] = table := rfl

@[simp] theorem bindAll_cons (table : NameTable) (attributeName : String) (rest : List String) :
    table.bindAll (attributeName :: rest) = (table.bind attributeName).2.bindAll rest := rfl

theorem bindAll_append (table : NameTable) (first second : List String) :
    table.bindAll (first ++ second) = (table.bindAll first).bindAll second :=
  List.foldl_append

@[simp] theorem sigil_bindAll (table : NameTable) (attributeNames : List String) :
    (table.bindAll attributeNames).sigil = table.sigil := by
  induction attributeNames generalizing table with
  | nil => rfl
  | cons attributeName rest ih => rw [bindAll_cons, ih, sigil_bind]

theorem bindings_prefix_bindAll (table : NameTable) (attributeNames : List String) :
    table.bindings <+: (table.bindAll attributeNames).bindings := by
  induction attributeNames generalizing table with
  | nil => exact List.prefix_rfl
  | cons attributeName rest ih => exact (bindings_prefix_bind table attributeName).trans (ih _)

theorem Distinct.bindAll {table : NameTable} (distinct : table.Distinct) (attributeNames : List String) :
    (table.bindAll attributeNames).Distinct := by
  induction attributeNames generalizing table with
  | nil => exact distinct
  | cons attributeName rest ih => exact ih (distinct.bind attributeName)

theorem distinct_empty (sigil : String) : (empty sigil).Distinct :=
  List.nodup_nil

/-! ## The shape of tokens -/

/-- A character that a token may have behind its sigil. -/
def isTokenChar (c : Char) : Bool :=
  c.isAlphanum || c == '_'

/-- A text that is a sigil with letters, digits and underscores behind it. -/
def Spelled (sigil token : String) : Prop :=
  ∃ chars : List Char, token = sigil ++ String.ofList chars ∧ ∀ c ∈ chars, isTokenChar c = true

/-- Every token of a table is spelled with its sigil. -/
def AllSpelled (table : NameTable) : Prop :=
  ∀ binding ∈ table.bindings, Spelled table.sigil binding.1

theorem isTokenChar_tokenChar (c : Char) : isTokenChar (tokenChar c) = true := by
  unfold tokenChar
  split
  · assumption
  · decide

theorem isTokenChar_of_mem_digits {n : Nat} {c : Char} (member : c ∈ Text.digits n) : isTokenChar c = true := by
  have digit : c.isDigit = true := Nat.isDigit_of_mem_toDigits (by decide) (by decide) member
  simp [isTokenChar, Char.isAlphanum, digit]

theorem spelled_candidate (sigil attributeName : String) (n : Nat) :
    Spelled sigil (candidate (stem sigil attributeName) n) := by
  have stemChars : ∀ c ∈ attributeName.toList.map tokenChar, isTokenChar c = true := by
    intro c member
    obtain ⟨d, _, rfl⟩ := List.mem_map.1 member
    exact isTokenChar_tokenChar d
  cases n with
  | zero => exact ⟨_, rfl, stemChars⟩
  | succ n =>
    refine ⟨attributeName.toList.map tokenChar ++ '_' :: Text.digits (n + 1), ?_, ?_⟩
    · apply String.toList_injective
      simp [candidate, stem]
    · intro c member
      rcases List.mem_append.1 member with inStem | behind
      · exact stemChars c inStem
      · rcases List.mem_cons.1 behind with rfl | digit
        · decide
        · exact isTokenChar_of_mem_digits digit

theorem AllSpelled.bind {table : NameTable} (spelled : table.AllSpelled) (attributeName : String) :
    (table.bind attributeName).2.AllSpelled ∧ Spelled table.sigil (table.bind attributeName).1 := by
  obtain ⟨token, found, bound⟩ | ⟨n, _, _, bound⟩ := bind_cases table attributeName <;> rw [bound]
  · exact ⟨spelled, spelled _ (mem_of_token? found)⟩
  · refine ⟨?_, spelled_candidate ..⟩
    intro binding member
    rcases List.mem_append.1 member with old | new
    · exact spelled binding old
    · cases List.mem_singleton.1 new
      exact spelled_candidate ..

theorem AllSpelled.bindAll {table : NameTable} (spelled : table.AllSpelled) (attributeNames : List String) :
    (table.bindAll attributeNames).AllSpelled := by
  induction attributeNames generalizing table with
  | nil => exact spelled
  | cons attributeName rest ih => exact ih (spelled.bind attributeName).1

theorem allSpelled_empty (sigil : String) : (empty sigil).AllSpelled := by
  intro binding member
  cases member

end NameTable

end ItemExpr

import ItemExpr.AttributeValue
import ItemExpr.Text.Digits

/-!
# Placeholders

A request names attributes and values by tokens and sends two tables along that say what each token stands for. The
tables only grow: a token that is bound keeps its binding, and binding it again to something else is refused.

A name token is made from the attribute it stands for and used again for it. A value token is numbered, and its number
is never used again.
-/

namespace ItemExpr

/-- A token is bound already, and not to what it should be bound to. -/
structure Conflict where
  token : String
  existing : String
  attempted : String
deriving DecidableEq, Repr

/-! ## Name tokens -/

/-- Tokens for attributes: what each starts with, and their bindings in the order in which they were made. -/
structure NameTable where
  sigil : String
  bindings : Table String
deriving Repr

namespace NameTable

def empty (sigil : String) : NameTable :=
  ⟨sigil, []⟩

def attribute? (table : NameTable) (token : String) : Option String :=
  table.bindings.value? token

/-- The token that was first bound to an attribute. -/
def token? (table : NameTable) (attributeName : String) : Option String :=
  (List.find? (fun (_, bound) => bound == attributeName) table.bindings).map (·.1)

/-- A character of an attribute's name as it stands in a token: letters, digits and underscores of ASCII stay, and
everything else becomes an underscore. -/
def tokenChar (c : Char) : Char :=
  if c.isAlphanum || c == '_' then c else '_'

/-- The token of an attribute where no other one stands in its way. -/
def stem (sigil attributeName : String) : String :=
  sigil ++ String.ofList (attributeName.toList.map tokenChar)

/-- The tokens that are tried for a stem, in order: the stem itself, and then the stem with a number behind it. -/
def candidate (stem : String) : Nat → String
  | 0 => stem
  | n + 1 => stem ++ "_" ++ String.ofList (Text.digits (n + 1))

/-- The first candidate from `start` on that is not bound. Of `attempts + 1` candidates one is free if there are at most
`attempts` bindings, because no two candidates are the same. -/
def firstFree (bindings : Table String) (stem : String) : (attempts start : Nat) → String
  | 0, start => candidate stem start
  | attempts + 1, start =>
    if bindings.binds (candidate stem start) then firstFree bindings stem attempts (start + 1)
    else candidate stem start

/-- The token of an attribute: the one it has, or else a new one. -/
def bind (table : NameTable) (attributeName : String) : String × NameTable :=
  match table.token? attributeName with
  | some token => (token, table)
  | none =>
    let token := firstFree table.bindings (stem table.sigil attributeName) table.bindings.length 0
    (token, { table with bindings := table.bindings ++ [(token, attributeName)] })

def insert (table : NameTable) (token attributeName : String) : Except Conflict NameTable :=
  match table.attribute? token with
  | none => .ok { table with bindings := table.bindings ++ [(token, attributeName)] }
  | some existing =>
    if existing = attributeName then .ok table else .error ⟨token, existing, attributeName⟩

theorem candidate_injective {stem : String} {m n : Nat} (h : candidate stem m = candidate stem n) : m = n := by
  have lists := congrArg String.toList h
  match m, n with
  | 0, 0 => rfl
  | 0, n + 1 => simp [candidate] at lists
  | m + 1, 0 => simp [candidate] at lists
  | m + 1, n + 1 =>
    simp [candidate] at lists
    exact Text.digits_injective lists

/-- The search finds a free candidate if every bound one is among so many names as it has attempts. -/
theorem binds_firstFree_of_length {bindings : Table String} {stem : String} {attempts start : Nat}
    (used : List String) (few : used.length ≤ attempts)
    (covers : ∀ n, start ≤ n → bindings.binds (candidate stem n) = true → candidate stem n ∈ used) :
    bindings.binds (firstFree bindings stem attempts start) = false := by
  induction attempts generalizing start used with
  | zero =>
    have none : used = [] := List.eq_nil_of_length_eq_zero (by omega)
    have free := covers start (Nat.le_refl start)
    rw [none] at free
    simpa [firstFree] using free
  | succ attempts ih =>
    by_cases bound : bindings.binds (candidate stem start) = true
    · have member := covers start (Nat.le_refl start) bound
      have shorter := List.length_erase_of_mem member
      simp only [firstFree, bound, if_true]
      refine ih (used.erase (candidate stem start)) (by omega) fun n later boundLater => ?_
      have differs : candidate stem n ≠ candidate stem start := fun same => by
        have := candidate_injective same
        omega
      exact (List.mem_erase_of_ne differs).2 (covers n (by omega) boundLater)
    · simp [firstFree, bound]

/-- A new name token is not bound before. -/
theorem binds_firstFree (bindings : Table String) (stem : String) :
    bindings.binds (firstFree bindings stem bindings.length 0) = false :=
  binds_firstFree_of_length (bindings.map (·.1)) (by simp) fun _ _ bound => (Table.binds_iff ..).1 bound

end NameTable

/-! ## Value tokens -/

/-- A source of numbered tokens: what each starts with, and how many have been issued. -/
structure TokenSource where
  sigil : String
  issued : Nat
deriving DecidableEq, Repr

namespace TokenSource

def new (sigil : String) : TokenSource :=
  ⟨sigil, 0⟩

def token (source : TokenSource) (number : Nat) : String :=
  source.sigil ++ String.ofList (Text.digits number)

def next (source : TokenSource) : String × TokenSource :=
  (source.token source.issued, { source with issued := source.issued + 1 })

/-- Issues tokens until one is not bound. Of `attempts + 1` tokens one is free if there are at most `attempts`
bindings. -/
def nextFree (source : TokenSource) (bindings : Table AttributeValue) : (attempts : Nat) → String × TokenSource
  | 0 => source.next
  | attempts + 1 =>
    let (token, source) := source.next
    if bindings.binds token then source.nextFree bindings attempts else (token, source)

theorem token_injective {source : TokenSource} {m n : Nat} (h : source.token m = source.token n) : m = n := by
  have lists := congrArg String.toList h
  simp [token] at lists
  exact Text.digits_injective lists

/-- The search finds a free token if every bound one is among so many names as it has attempts. -/
theorem binds_nextFree_of_length {source : TokenSource} {bindings : Table AttributeValue} {attempts : Nat}
    (used : List String) (few : used.length ≤ attempts)
    (covers : ∀ n, source.issued ≤ n → bindings.binds (source.token n) = true → source.token n ∈ used) :
    bindings.binds (source.nextFree bindings attempts).1 = false := by
  induction attempts generalizing source used with
  | zero =>
    have none : used = [] := List.eq_nil_of_length_eq_zero (by omega)
    have free := covers source.issued (Nat.le_refl _)
    rw [none] at free
    simpa [nextFree, next] using free
  | succ attempts ih =>
    by_cases bound : bindings.binds (source.token source.issued) = true
    · have member := covers source.issued (Nat.le_refl _) bound
      have shorter := List.length_erase_of_mem member
      simp only [nextFree, next, bound, if_true]
      refine ih (used.erase (source.token source.issued)) (by omega) fun n later boundLater => ?_
      have differs : source.token n ≠ source.token source.issued := fun same => by
        have := token_injective same
        dsimp only at later
        omega
      dsimp only at later
      exact (List.mem_erase_of_ne differs).2 (covers n (by omega) boundLater)
    · simp [nextFree, next, bound]

/-- A new value token is not bound before. -/
theorem binds_nextFree (source : TokenSource) (bindings : Table AttributeValue) :
    bindings.binds (source.nextFree bindings bindings.length).1 = false :=
  binds_nextFree_of_length (bindings.map (·.1)) (by simp) fun _ _ bound => (Table.binds_iff ..).1 bound

end TokenSource

/-- Bindings of value tokens, in the order in which they were made. -/
abbrev ValueTable := Table AttributeValue

namespace ValueTable

def insert (table : ValueTable) (token : String) (value : AttributeValue) : Except Conflict ValueTable :=
  match Table.value? table token with
  | none => .ok (table ++ [(token, value)])
  | some existing =>
    if existing.same value then .ok table else .error ⟨token, existing.display, value.display⟩

end ValueTable

end ItemExpr

import ItemExpr.Binding
import ItemExpr.Proofs.Names

/-!
# Runs of session operations

How an operation that succeeds is taken apart, and what every operation that binds tokens leaves as it was: the entity,
the index, the mode and the encoders stay, and the two tables only grow. The order `Session.Grows` says so. What is
looked up in the session, and how a literal is encoded in it, is the same before and after.
-/

namespace ItemExpr

/-! ## Results -/

theorem mapError_eq_ok {ε δ α : Type} {x : Except ε α} {f : ε → δ} {a : α} : x.mapError f = .ok a ↔ x = .ok a := by
  cases x with
  | ok b =>
    show Except.ok b = .ok a ↔ Except.ok b = .ok a
    rw [Except.ok.injEq, Except.ok.injEq]
  | error e => exact ⟨nofun, nofun⟩

theorem map_eq_ok {ε α β : Type} {f : α → β} {x : Except ε α} {b : β} : x.map f = .ok b ↔ ∃ a, x = .ok a ∧ f a = b := by
  cases x <;> simp [Except.map]

theorem toOption_eq_some {ε α : Type} {x : Except ε α} {a : α} : x.toOption = some a ↔ x = .ok a := by
  cases x <;> simp [Except.toOption]

namespace TokenSource

/-- The search issues a numbered token, and those that it passed over are bound. -/
theorem nextFree_passed (source : TokenSource) (bindings : Table AttributeValue) (attempts : Nat) :
    ∃ last, source.nextFree bindings attempts = (source.token last, { source with issued := last + 1 }) ∧
      source.issued ≤ last ∧ last ≤ source.issued + attempts ∧
      ∀ n, source.issued ≤ n → n < last → bindings.binds (source.token n) = true := by
  induction attempts generalizing source with
  | zero => exact ⟨source.issued, rfl, Nat.le_refl _, Nat.le_refl _, fun n _ _ => by omega⟩
  | succ attempts ih =>
    -- A number whose token is bound is passed over for good, also in later searches.
    by_cases bound : bindings.binds (source.token source.issued) = true
    · obtain ⟨last, issued, later, few, passed⟩ := ih { source with issued := source.issued + 1 }
      dsimp only at later few passed
      refine ⟨last, ?_, by omega, by omega, fun n behind before => ?_⟩
      · simp only [nextFree, next, bound, if_true]
        exact issued
      · obtain rfl | further := Nat.eq_or_lt_of_le behind
        · exact bound
        · exact passed n further before
    · exact ⟨source.issued, by simp [nextFree, next, bound], Nat.le_refl _, by omega, fun n _ _ => by omega⟩

/-- The search issues one token more than there are bindings, so it ends at the first free one. -/
theorem nextFree_eq (source : TokenSource) (bindings : Table AttributeValue) :
    ∃ last, source.nextFree bindings bindings.length = (source.token last, { source with issued := last + 1 }) ∧
      bindings.FirstFree source.token source.issued last := by
  obtain ⟨last, issued, starts, ends, passed⟩ := nextFree_passed source bindings bindings.length
  have free := binds_nextFree source bindings
  rw [issued] at free
  exact ⟨last, issued, starts, ends, passed, free⟩

end TokenSource

namespace SessionM

/-! ## Taking successful runs apart -/

variable {α β : Type} {s t : Session}

theorem bind_eq_ok {x : SessionM α} {f : α → SessionM β} {b : β} :
    (x >>= f) s = .ok b t ↔ ∃ a u, x s = .ok a u ∧ f a u = .ok b t := by
  cases result : x s with
  | ok a u =>
    simp only [bind, EStateM.bind, result, EStateM.Result.ok.injEq]
    exact ⟨fun run => ⟨a, u, ⟨rfl, rfl⟩, run⟩, fun ⟨_, _, ⟨rfl, rfl⟩, run⟩ => run⟩
  | error e u => simp [bind, EStateM.bind, result]

theorem pure_eq_ok {a b : α} : (pure a : SessionM α) s = .ok b t ↔ a = b ∧ s = t := by
  simp [pure, EStateM.pure]

theorem bind_eq_error {x : SessionM α} {f : α → SessionM β} {e : Error} :
    (x >>= f) s = .error e t ↔ x s = .error e t ∨ ∃ a u, x s = .ok a u ∧ f a u = .error e t := by
  cases result : x s with
  | ok a u =>
    simp only [bind, EStateM.bind, result, EStateM.Result.ok.injEq, reduceCtorEq, false_or]
    exact ⟨fun run => ⟨a, u, ⟨rfl, rfl⟩, run⟩, fun ⟨_, _, ⟨rfl, rfl⟩, run⟩ => run⟩
  | error other u => simp [bind, EStateM.bind, result]

/-- An operation whose answer is only put into something. -/
theorem bind_pure_eq_ok {x : SessionM α} {f : α → β} {b : β} :
    (x >>= fun a => pure (f a)) s = .ok b t ↔ ∃ a, x s = .ok a t ∧ f a = b := by
  rw [bind_eq_ok]
  constructor
  · rintro ⟨a, u, run, done⟩
    obtain ⟨rfl, rfl⟩ := pure_eq_ok.1 done
    exact ⟨a, run, rfl⟩
  · rintro ⟨a, run, rfl⟩
    exact ⟨a, t, run, rfl⟩

theorem bind_pure_eq_error {x : SessionM α} {f : α → β} {e : Error} :
    (x >>= fun a => pure (f a)) s = .error e t ↔ x s = .error e t := by
  simp [bind_eq_error, pure, EStateM.pure]

theorem get_eq_ok {u : Session} : (get : SessionM Session) s = .ok u t ↔ s = u ∧ s = t := by
  show EStateM.Result.ok s s = .ok u t ↔ s = u ∧ s = t
  rw [EStateM.Result.ok.injEq]

theorem modify_eq_ok {change : Session → Session} {result : PUnit} :
    (modify change : SessionM PUnit) s = .ok result t ↔ change s = t := by
  show EStateM.Result.ok PUnit.unit (change s) = .ok result t ↔ change s = t
  rw [EStateM.Result.ok.injEq]
  exact and_iff_right rfl

theorem throw_ne_ok {e : Error} {a : α} : (throw e : SessionM α) s ≠ .ok a t := by
  show EStateM.Result.error e s ≠ .ok a t
  exact nofun

theorem unsupported_ne_ok {cause : Unsupported} {a : α} : (unsupported cause : SessionM α) s ≠ .ok a t :=
  throw_ne_ok

theorem query_eq_ok {read : Session → Except Error α} {a : α} :
    query read s = .ok a t ↔ read s = .ok a ∧ s = t := by
  simp only [query, bind_eq_ok, get_eq_ok]
  constructor
  · rintro ⟨_, _, ⟨rfl, rfl⟩, run⟩
    cases result : read s with
    | ok b =>
      rw [result] at run
      obtain ⟨rfl, rfl⟩ := pure_eq_ok.1 run
      exact ⟨rfl, rfl⟩
    | error e => simp [result, throw_ne_ok] at run
  · rintro ⟨result, rfl⟩
    exact ⟨s, s, ⟨rfl, rfl⟩, by rw [result]; rfl⟩

theorem query_bind_eq_ok {read : Session → Except Error α} {f : α → SessionM β} {b : β} :
    (query read >>= f) s = .ok b t ↔ ∃ a, read s = .ok a ∧ f a s = .ok b t := by
  rw [bind_eq_ok]
  constructor
  · rintro ⟨a, u, run, later⟩
    obtain ⟨found, rfl⟩ := query_eq_ok.1 run
    exact ⟨a, found, later⟩
  · rintro ⟨a, found, later⟩
    exact ⟨a, s, query_eq_ok.2 ⟨found, rfl⟩, later⟩

theorem rejectInKeyCondition_eq_ok {construct : String} :
    rejectInKeyCondition construct s = .ok () t ↔ s.keysOnly = false ∧ s = t := by
  simp only [rejectInKeyCondition, bind_eq_ok, get_eq_ok]
  constructor
  · rintro ⟨_, _, ⟨rfl, rfl⟩, run⟩
    split at run
    · exact absurd run unsupported_ne_ok
    · rename_i unrestricted
      exact ⟨by simpa using unrestricted, (pure_eq_ok.1 run).2⟩
  · rintro ⟨unrestricted, rfl⟩
    exact ⟨s, s, ⟨rfl, rfl⟩, by simp [unrestricted, pure, EStateM.pure]⟩

/-- What a construct does that conditions on keys must not use. -/
theorem reject_bind_eq_ok {construct : String} {f : Unit → SessionM α} {a : α} :
    (rejectInKeyCondition construct >>= f) s = .ok a t ↔ s.keysOnly = false ∧ f () s = .ok a t := by
  rw [bind_eq_ok]
  constructor
  · rintro ⟨_, u, run, later⟩
    obtain ⟨unrestricted, rfl⟩ := rejectInKeyCondition_eq_ok.1 run
    exact ⟨unrestricted, later⟩
  · rintro ⟨unrestricted, later⟩
    exact ⟨(), s, rejectInKeyCondition_eq_ok.2 ⟨unrestricted, rfl⟩, later⟩

theorem bindName_eq_ok {attributeName token : String} :
    bindName attributeName s = .ok token t ↔
      (s.names.bind attributeName).1 = token ∧ { s with names := (s.names.bind attributeName).2 } = t := by
  show EStateM.Result.ok (s.names.bind attributeName).1 { s with names := (s.names.bind attributeName).2 } =
    .ok token t ↔ _
  rw [EStateM.Result.ok.injEq]

/-- Binding a value never fails. It issues the first numbered token that is not bound, and binds it to the value. -/
theorem bindValue_run (value : AttributeValue) (s : Session) :
    ∃ n, Table.FirstFree s.values s.tokens.token s.tokens.issued n ∧
      bindValue value s = .ok (s.tokens.token n) { s with
        tokens := { s.tokens with issued := n + 1 }
        values := s.values ++ [(s.tokens.token n, value)] } := by
  obtain ⟨n, issued, first⟩ := TokenSource.nextFree_eq s.tokens s.values
  have both : bindValue value s = .ok (s.tokens.nextFree s.values s.values.length).1 { s with
      tokens := (s.tokens.nextFree s.values s.values.length).2
      values := s.values ++ [((s.tokens.nextFree s.values s.values.length).1, value)] } := rfl
  rw [issued] at both
  exact ⟨n, first, both⟩

theorem bindValue_eq_ok {value : AttributeValue} {token : String} (run : bindValue value s = .ok token t) :
    ∃ n, s.tokens.issued ≤ n ∧ token = s.tokens.token n ∧ Table.binds s.values token = false ∧
      t = { s with
        tokens := { s.tokens with issued := n + 1 }
        values := s.values ++ [(token, value)] } := by
  obtain ⟨n, first, always⟩ := bindValue_run value s
  cases always.symm.trans run
  exact ⟨n, first.starts, rfl, first.free, rfl⟩

/-- What an operation answers if it succeeds. -/
def answer? (x : SessionM α) (s : Session) : Option α :=
  match x s with
  | .ok a _ => some a
  | .error .. => none

theorem answer?_eq_some {x : SessionM α} {a : α} : x.answer? s = some a ↔ ∃ t, x s = .ok a t := by
  unfold answer?
  cases x s <;> simp

end SessionM

namespace Session

/-! ## Looking up -/

section

variable {session : Session} {entity : Entity} {root : String} {property : Property}

theorem property_of_property? (known : session.entity = some entity) (found : entity.property? root = some property) :
    session.property root = .ok property := by
  simp [Session.property, known, found]

theorem property?_of_property (known : session.entity = some entity) (found : session.property root = .ok property) :
    entity.property? root = some property := by
  unfold Session.property at found
  rw [known] at found
  dsimp only at found
  split at found <;> simp_all

end

/-! ## Growth -/

/-- A session after some operations that bind tokens in one before: both tables have grown, the names by attributes that
were bound, and nothing else has changed but what is known about the partition key. -/
structure Grows (before after : Session) : Prop where
  frame : after = { before with
    names := after.names, values := after.values, tokens := after.tokens, partitionBound := after.partitionBound }
  names : ∃ attributeNames, after.names = before.names.bindAll attributeNames
  values : before.values <+: after.values
  sigil : after.tokens.sigil = before.tokens.sigil
  partition : before.partitionBound = true → after.partitionBound = true

theorem Grows.refl (session : Session) : Grows session session :=
  ⟨rfl, ⟨[], rfl⟩, List.prefix_rfl, rfl, id⟩

theorem Grows.trans {first second third : Session} (earlier : Grows first second) (later : Grows second third) :
    Grows first third where
  frame := by rw [later.frame, earlier.frame]
  names := by
    obtain ⟨firstNames, bound⟩ := earlier.names
    obtain ⟨secondNames, boundLater⟩ := later.names
    exact ⟨firstNames ++ secondNames, by rw [boundLater, bound, NameTable.bindAll_append]⟩
  values := earlier.values.trans later.values
  sigil := later.sigil.trans earlier.sigil
  partition := later.partition ∘ earlier.partition

variable {before after : Session}

theorem Grows.prefix_names (grows : Grows before after) : before.names.bindings <+: after.names.bindings := by
  obtain ⟨attributeNames, bound⟩ := grows.names
  exact bound ▸ NameTable.bindings_prefix_bindAll ..

theorem Grows.distinct (grows : Grows before after) (distinct : before.names.Distinct) : after.names.Distinct := by
  obtain ⟨attributeNames, bound⟩ := grows.names
  exact bound ▸ distinct.bindAll attributeNames

/-! What the tables and the partition flag say has no part in what follows, so each is the same before and after. -/

theorem Grows.keysOnly (grows : Grows before after) : after.keysOnly = before.keysOnly := by
  rw [grows.frame]; rfl

theorem Grows.entity (grows : Grows before after) : after.entity = before.entity := by
  rw [grows.frame]

theorem Grows.index (grows : Grows before after) : after.index = before.index := by
  rw [grows.frame]

theorem Grows.encryptor (grows : Grows before after) : after.encryptor = before.encryptor := by
  rw [grows.frame]

theorem Grows.property (grows : Grows before after) : after.property = before.property := by
  rw [grows.frame]; rfl

theorem Grows.isKey (grows : Grows before after) : after.isKey = before.isKey := by
  rw [grows.frame]; rfl

theorem Grows.isPartitionKey (grows : Grows before after) : after.isPartitionKey = before.isPartitionKey := by
  rw [grows.frame]; rfl

theorem Grows.encode (grows : Grows before after) : after.encode = before.encode := by
  rw [grows.frame]; rfl

end Session

open Session SessionM

/-! ## Growth by a value -/

theorem grows_bindValue {s t : Session} {value : AttributeValue} {token : String}
    (run : bindValue value s = .ok token t) : Grows s t := by
  obtain ⟨n, _, _, _, rfl⟩ := bindValue_eq_ok run
  exact ⟨rfl, ⟨[], rfl⟩, List.prefix_append .., rfl, id⟩

/-- The token of a value is bound to it from then on. -/
theorem value?_bindValue {s t u : Session} {value : AttributeValue} {token : String}
    (run : bindValue value s = .ok token t) (later : Grows t u) : Table.value? u.values token = some value := by
  obtain ⟨n, _, _, free, rfl⟩ := bindValue_eq_ok run
  exact Table.value?_of_prefix later.values (Table.value?_append_new value free)

end ItemExpr

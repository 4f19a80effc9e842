import ItemExpr.Proofs.Binding.Run
import ItemExpr.Proofs.Condition.Keys
import ItemExpr.Request.Draft

/-!
# Steps of a draft

A step of a draft either succeeds, and nothing failed before it, or leaves a failure. Whatever a condition comes from, a
tree, a template or a raw text, compiling it keeps what the session knows and adds to the tables.
-/

namespace ItemExpr

open Session SessionM

/-! ## Sessions that grow -/

/-- A session after some tasks: it has the same entity, and what was bound stays bound. -/
structure Session.Accumulates (before after : Session) : Prop where
  entity : after.entity = before.entity
  names : before.names.bindings <+: after.names.bindings
  distinct : before.names.Distinct → after.names.Distinct
  values : before.values <+: after.values

/-- A session that knows the same as one before, and binds what that one binds. -/
structure Session.Extends (before after : Session) : Prop extends Session.Accumulates before after where
  index : after.index = before.index
  partition : after.partitionBound = before.partitionBound

namespace Session

variable {s t u : Session}

theorem Accumulates.refl (session : Session) : Accumulates session session :=
  ⟨rfl, List.prefix_rfl, id, List.prefix_rfl⟩

theorem Accumulates.trans (earlier : Accumulates s u) (later : Accumulates u t) : Accumulates s t where
  entity := later.entity.trans earlier.entity
  names := earlier.names.trans later.names
  distinct := later.distinct ∘ earlier.distinct
  values := earlier.values.trans later.values

theorem Grows.accumulates (grows : Grows s t) : Accumulates s t :=
  ⟨grows.entity, grows.prefix_names, grows.distinct, grows.values⟩

/-- The mode has no part in what is bound. -/
theorem accumulates_mode (session : Session) (mode : Mode) : Accumulates session { session with mode } :=
  ⟨rfl, List.prefix_rfl, id, List.prefix_rfl⟩

/-- What is done in a mode of its own, behind which the mode is another one again. -/
theorem Accumulates.within {mode : Mode} (inside : Accumulates { s with mode } t) (again : Mode) :
    Accumulates s { t with mode := again } :=
  ((accumulates_mode s mode).trans inside).trans (accumulates_mode t again)

theorem Extends.refl (session : Session) : Extends session session :=
  ⟨.refl session, rfl, rfl⟩

theorem Extends.trans (earlier : Extends s u) (later : Extends u t) : Extends s t where
  toAccumulates := earlier.toAccumulates.trans later.toAccumulates
  index := later.index.trans earlier.index
  partition := later.partition.trans earlier.partition

/-- The mode has no part in it. -/
theorem Extends.withMode {mode before after : Mode} (growth : Extends { s with mode } t) :
    Extends { s with mode := before } { t with mode := after } :=
  ⟨⟨growth.entity, growth.names, growth.distinct, growth.values⟩, growth.index, growth.partition⟩

theorem Grows.extends (grows : Grows s t) (partition : t.partitionBound = s.partitionBound) : Extends s t :=
  ⟨grows.accumulates, grows.index, partition⟩

/-- What is kept by what is done for each of some items is kept by all of it. -/
theorem forM_keeps {α : Type} {items : List α} {op : α → SessionM PUnit} (kept : Session → Prop)
    (each : ∀ item ∈ items, ∀ {s t}, op item s = .ok () t → kept s → kept t) (run : items.forM op s = .ok () t)
    (before : kept s) : kept t := by
  induction items generalizing s with
  | nil =>
    obtain ⟨_, rfl⟩ := pure_eq_ok.1 run
    exact before
  | cons first rest ih =>
    have both : (op first >>= fun _ => rest.forM op) s = .ok () t := run
    obtain ⟨_, u, done, later⟩ := bind_eq_ok.1 both
    rw [List.forall_mem_cons] at each
    exact ih each.2 later (each.1 done before)

theorem mapM_keeps {α β : Type} {items : List α} {op : α → SessionM β} {results : List β} (kept : Session → Prop)
    (each : ∀ {item result s t}, op item s = .ok result t → kept s → kept t) (run : items.mapM op s = .ok results t)
    (before : kept s) : kept t := by
  induction items generalizing s results with
  | nil =>
    obtain ⟨_, rfl⟩ := pure_eq_ok.1 run
    exact before
  | cons first rest ih =>
    rw [List.mapM_cons] at run
    obtain ⟨_, u, done, run⟩ := bind_eq_ok.1 run
    obtain ⟨_, later, _⟩ := bind_pure_eq_ok.1 run
    exact ih later (each done before)

theorem forM_extends {α : Type} {items : List α} {op : α → SessionM PUnit}
    (each : ∀ {item s t}, op item s = .ok () t → Extends s t) (run : items.forM op s = .ok () t) : Extends s t :=
  forM_keeps (Extends s) (fun _ _ _ _ run grown => grown.trans (each run)) run (.refl s)

theorem mapM_extends {α β : Type} {items : List α} {op : α → SessionM β} {results : List β}
    (each : ∀ {item result s t}, op item s = .ok result t → Extends s t) (run : items.mapM op s = .ok results t) :
    Extends s t :=
  mapM_keeps (Extends s) (fun run grown => grown.trans (each run)) run (.refl s)

/-! ## Templates and raw texts -/

theorem extends_bindLiteral {value : Value} {rules : Option Property} {spec : Option String} {token : String}
    (run : bindLiteral value rules spec s = .ok token t) : Extends s t := by
  obtain ⟨stored, _, binds⟩ := query_bind_eq_ok.1 run
  exact (grows_bindValue binds).extends (partitionBound_of_bindValue binds)

theorem extends_template {template text : String} {args : List Value}
    (run : Template.compile template args s = .ok text t) : Extends s t := by
  obtain ⟨segments, _, run⟩ := query_bind_eq_ok.1 run
  obtain ⟨parts, compiles, _⟩ := bind_pure_eq_ok.1 run
  -- Texts bind nothing, and each marker binds one literal.
  refine mapM_extends (fun {segment part before after} compile => ?_) compiles
  cases segment with
  | text chars =>
    obtain ⟨_, rfl⟩ := pure_eq_ok.1 compile
    exact .refl before
  | argument index spec => exact extends_bindLiteral compile

theorem extends_insertName {token attributeName : String} (run : insertName token attributeName s = .ok () t) :
    Extends s t := by
  obtain ⟨names, inserted, changes⟩ := query_bind_eq_ok.1 run
  obtain rfl := modify_eq_ok.1 changes
  unfold NameTable.insert at inserted
  split at inserted
  · rename_i new
    cases inserted
    have unbound : s.names.bindings.binds token = false := by
      simpa [Table.binds, NameTable.attribute?] using new
    have stays : s.names.Distinct → _ := fun distinct => distinct.append_new attributeName unbound
    exact ⟨⟨rfl, List.prefix_append .., stays, List.prefix_rfl⟩, rfl, rfl⟩
  · split at inserted
    · cases inserted
      exact .refl s
    · cases inserted

theorem extends_insertValue {token : String} {value : AttributeValue} (run : insertValue token value s = .ok () t) :
    Extends s t := by
  obtain ⟨values, inserted, changes⟩ := query_bind_eq_ok.1 run
  obtain rfl := modify_eq_ok.1 changes
  have more : s.values <+: values := by
    unfold ValueTable.insert at inserted
    split at inserted
    · cases inserted
      exact List.prefix_append ..
    · split at inserted
      · cases inserted
        exact List.prefix_rfl
      · cases inserted
  exact ⟨⟨rfl, List.prefix_rfl, id, more⟩, rfl, rfl⟩

theorem extends_rawText {raw : RawText} {text : String} (run : raw.compile s = .ok text t) : Extends s t := by
  unfold RawText.compile at run
  obtain ⟨_, _, read, run⟩ := bind_eq_ok.1 run
  obtain ⟨rfl, rfl⟩ := get_eq_ok.1 read
  split at run
  · obtain ⟨_, _, thrown, _⟩ := bind_eq_ok.1 run
    exact absurd thrown unsupported_ne_ok
  · obtain ⟨_, u, names, run⟩ := bind_eq_ok.1 run
    obtain ⟨_, values, _⟩ := bind_pure_eq_ok.1 run
    exact (forM_extends extends_insertName names).trans (forM_extends extends_insertValue values)

/-! ## Conditions and paths -/

theorem extends_condition {expr : Expr} {c : TokenCondition} (binds : BindsCondition s expr c t)
    (unrestricted : s.keysOnly = false) : Extends s t :=
  binds.grows.extends (binds.partitionBound unrestricted)

theorem extends_projection {path : Path} {shown : TokenPath} (run : projection path s = .ok shown t) :
    Extends s t := by
  obtain ⟨resolved, resolves, _⟩ := bind_pure_eq_ok.1 run
  have derived := resolvePath_resolves resolves
  exact derived.grows.extends derived.partitionBound

theorem compile_typed {condition : Condition} {text : String}
    (run : (ConditionSource.typed condition).compile s = .ok text t) :
    ∃ c, SessionM.condition condition.toExpr s = .ok c t ∧ c.text = text := by
  obtain ⟨c, compiles, same⟩ := bind_pure_eq_ok.1 run
  exact ⟨c, compiles, same⟩

/-- Outside of conditions on keys each source of a condition only adds to the tables. -/
theorem extends_source {source : ConditionSource} {text : String} (run : source.compile s = .ok text t)
    (unrestricted : s.keysOnly = false) : Extends s t := by
  cases source with
  | typed condition =>
    obtain ⟨c, compiles, _⟩ := compile_typed run
    exact extends_condition (condition_binds compiles) unrestricted
  | template template args => exact extends_template run
  | raw raw => exact extends_rawText run

end Session

/-! ## Steps -/

namespace Draft

variable {α : Type}

theorem run_of_ok {draft : Draft} {mode : Mode} {step : SessionM α} {a : α} {t : Session}
    (working : draft.failure = none) (ok : step { draft.session with mode } = .ok a t) :
    draft.run mode step = (some a, { draft with session := { t with mode := draft.session.mode } }) := by
  simp [run, working, EStateM.run, ok]

/-- A step succeeds in a draft without a failure, or leaves a failure. -/
theorem run_cases (draft : Draft) (mode : Mode) (step : SessionM α) :
    (∃ a t, draft.failure = none ∧ step { draft.session with mode } = .ok a t ∧
      draft.run mode step = (some a, { draft with session := { t with mode := draft.session.mode } })) ∨
    (∃ next, draft.run mode step = (none, next) ∧ next.failure ≠ none) := by
  cases failed : draft.failure with
  | some error => exact .inr ⟨draft, by simp [run, failed], by simp [failed]⟩
  | none =>
    cases result : step { draft.session with mode } with
    | ok a t => exact .inl ⟨a, t, rfl, rfl, by rw [run_of_ok failed result, failed]⟩
    | error error t => exact .inr ⟨_, by simp [run, failed, EStateM.run, result]; rfl, by simp⟩

/-- To put the answer of a step into something has no part in what the step does. -/
theorem run_map {β : Type} (draft : Draft) (mode : Mode) (step : SessionM α) (f : α → β) :
    draft.run mode (step >>= fun a => pure (f a)) = ((draft.run mode step).1.map f, (draft.run mode step).2) := by
  unfold run
  cases draft.failure with
  | some error => rfl
  | none =>
    cases result : step { draft.session with mode } with
    | ok a t =>
      simp only [EStateM.run, bind, EStateM.bind, result]
      rfl
    | error error t => simp [EStateM.run, bind, EStateM.bind, result]

/-- A failure stays. -/
theorem failure_of_run {draft : Draft} {mode : Mode} {step : SessionM α}
    (fine : (draft.run mode step).2.failure = none) : draft.failure = none := by
  obtain ⟨_, _, working, _⟩ | ⟨next, ran, failed⟩ := draft.run_cases mode step
  · exact working
  · rw [ran] at fine
    exact absurd fine failed

end Draft

end ItemExpr

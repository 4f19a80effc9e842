import Mathlib.Data.List.Forall2
import ItemExpr.Proofs.Session
import ItemExpr.Template

/-!
# Compiling a template

A template that is compiled is its segments with a token in the place of each marker. Each marker gets a token of its
own that was not bound before, and the token is bound to what the argument of the marker is rendered to; nothing else is
bound. A template that cannot be read, or that has a marker without an argument, is refused before anything is bound
(`Template.compile_exact`).
-/

namespace ItemExpr.Template

open Session SessionM

/-! ## Markers -/

/-- The markers of segments in order: the position of the argument and the specifier of each. -/
def markers : List Segment → List (Nat × Option String)
  | [] => []
  | .text _ :: rest => markers rest
  | .argument index spec :: rest => (index, spec) :: markers rest

/-- The text of segments in which the next of some tokens stands for each marker. -/
def filled : List Segment → List String → String
  | .text chars :: rest, tokens => String.ofList chars ++ filled rest tokens
  | .argument _ _ :: rest, token :: tokens => token ++ filled rest tokens
  | _, _ => ""

/-- The value that the argument of a marker is rendered to by the marker's specifier, or without one as a plain literal
with the default date format. -/
def Renders (args : List Value) (dateFormat : String) (marker : Nat × Option String) (value : AttributeValue) : Prop :=
  ∃ literal, args[marker.1]? = some literal ∧ literal.render marker.2 dateFormat = .ok value

/-- What the markers of some segments add to a session: in order, a new token for each, bound to the value of its
argument, and no two the same. The names, and all else but the counter of tokens, are as before. -/
structure Binds (segments : List Segment) (args : List Value) (s : Session)
    (bindings : List (String × AttributeValue)) (t : Session) : Prop where
  renders : List.Forall₂ (Renders args s.dateFormat) (markers segments) (bindings.map (·.2))
  distinct : (bindings.map (·.1)).Nodup
  unbound : ∀ binding ∈ bindings, Table.value? s.values binding.1 = none
  values : t.values = s.values ++ bindings
  bound : ∀ binding ∈ bindings, Table.value? t.values binding.1 = some binding.2
  frame : t = { s with values := t.values, tokens := t.tokens }

variable {args : List Value} {segments : List Segment} {s t u : Session}

/-! ## Checking positions -/

theorem findSome?_missingIndex? (count : Nat) (segments : List Segment) :
    segments.findSome? (missingIndex? count) = ((markers segments).find? (count ≤ ·.1)).map (·.1) := by
  induction segments with
  | nil => rfl
  | cons segment rest ih =>
    cases segment with
    | text chars => exact ih
    | argument index spec =>
      by_cases missing : count ≤ index
      · simp [missingIndex?, markers, missing]
      · simpa [missingIndex?, markers, missing] using ih

theorem check_of_read {template : String} (found : read template = .ok segments) (count : Nat) :
    check template count = match (markers segments).find? (count ≤ ·.1) with
      | some marker => .error (.missingArgument marker.1 count)
      | none => .ok segments := by
  have positions := findSome?_missingIndex? count segments
  cases missing : (markers segments).find? (count ≤ ·.1) <;>
    simp [check, found, positions, missing, bind, Except.bind, throw, throwThe, MonadExceptOf.throw, pure, Except.pure]

theorem check_of_unreadable {template : String} {fault : TemplateFault} (refused : read template = .error fault)
    (count : Nat) : check template count = .error fault := by
  simp [check, refused, bind, Except.bind]

theorem check_eq_ok {template : String} {count : Nat} :
    check template count = .ok segments ↔
      read template = .ok segments ∧ ∀ marker ∈ markers segments, marker.1 < count := by
  cases found : read template with
  | error fault => simp [check_of_unreadable found]
  | ok others =>
    rw [check_of_read found]
    cases missing : (markers others).find? (count ≤ ·.1) with
    | some marker =>
      have beyond : count ≤ marker.1 := by simpa using List.find?_some missing
      have member := List.mem_of_find?_eq_some missing
      refine ⟨nofun, ?_⟩
      rintro ⟨same, within⟩
      obtain rfl := Except.ok.inj same
      have small := within marker member
      omega
    | none =>
      have within : ∀ marker ∈ markers others, marker.1 < count := by
        simpa using List.find?_eq_none.1 missing
      constructor
      · intro same
        obtain rfl := Except.ok.inj same
        exact ⟨rfl, within⟩
      · exact fun both => both.1

/-! ## Binding markers -/

theorem bindLiteral_eq_ok {literal : Value} {spec : Option String} {token : String} :
    SessionM.bindLiteral literal none spec s = .ok token t ↔
      ∃ value, literal.render spec s.dateFormat = .ok value ∧ SessionM.bindValue value s = .ok token t := by
  unfold SessionM.bindLiteral
  rw [query_bind_eq_ok]
  constructor
  · rintro ⟨value, encoded, run⟩
    exact ⟨value, mapError_eq_ok.1 encoded, run⟩
  · rintro ⟨value, rendered, run⟩
    exact ⟨value, mapError_eq_ok.2 rendered, run⟩

/-- The token of one marker is bound before those of the markers behind it, which find it taken. -/
theorem Binds.argument {index : Nat} {spec : Option String} {value : AttributeValue} {token : String}
    {bindings : List (String × AttributeValue)} (renders : Renders args s.dateFormat (index, spec) value)
    (run : SessionM.bindValue value s = .ok token u) (later : Binds segments args u bindings t) :
    Binds (.argument index spec :: segments) args s ((token, value) :: bindings) t := by
  obtain ⟨n, _, _, free, rfl⟩ := bindValue_eq_ok run
  have unbound : Table.value? s.values token = none := by simpa [Table.binds] using free
  have behind : ∀ binding ∈ bindings, Table.value? s.values binding.1 = none ∧ binding.1 ≠ token := by
    intro binding member
    have none := later.unbound binding member
    rw [Table.value?_append, Option.or_eq_none_iff, Table.value?_cons] at none
    refine ⟨none.1, fun same => ?_⟩
    simp [same] at none
  refine ⟨.cons renders later.renders, ?_, ?_, ?_, ?_, ?_⟩
  · refine List.nodup_cons.2 ⟨fun member => ?_, later.distinct⟩
    obtain ⟨binding, own, same⟩ := List.mem_map.1 member
    exact (behind binding own).2 same
  · exact List.forall_mem_cons.2 ⟨unbound, fun binding member => (behind binding member).1⟩
  · rw [later.values]
    simp
  · refine List.forall_mem_cons.2 ⟨?_, later.bound⟩
    rw [later.values]
    exact Table.value?_of_prefix (List.prefix_append ..) (Table.value?_append_new value free)
  · rw [later.frame]

theorem binds_of_mapM {parts : List String} (within : ∀ marker ∈ markers segments, marker.1 < args.length)
    (run : segments.mapM (compileSegment args) s = .ok parts t) :
    ∃ bindings, Binds segments args s bindings t ∧ String.join parts = filled segments (bindings.map (·.1)) := by
  induction segments generalizing s parts with
  | nil =>
    obtain ⟨rfl, rfl⟩ := pure_eq_ok.1 run
    exact ⟨[], ⟨.nil, .nil, List.forall_mem_nil _, (List.append_nil _).symm, List.forall_mem_nil _, rfl⟩, rfl⟩
  | cons segment rest ih =>
    rw [List.mapM_cons] at run
    obtain ⟨first, u, compiles, run⟩ := bind_eq_ok.1 run
    obtain ⟨others, runLater, rfl⟩ := bind_pure_eq_ok.1 run
    rw [String.join_cons]
    cases segment with
    | text chars =>
      obtain ⟨rfl, rfl⟩ := pure_eq_ok.1 compiles
      obtain ⟨bindings, binds, joined⟩ := ih within runLater
      refine ⟨bindings, ?_, by rw [joined, filled]⟩
      exact ⟨binds.renders, binds.distinct, binds.unbound, binds.values, binds.bound, binds.frame⟩
    | argument index spec =>
      obtain ⟨own, behind⟩ := List.forall_mem_cons.1 within
      obtain ⟨value, rendered, bound⟩ := bindLiteral_eq_ok.1 compiles
      obtain ⟨bindings, binds, joined⟩ := ih behind runLater
      have supplied : args[index]? = some (args.getD index .null) := by
        simp [List.getD, List.getElem?_eq_getElem own]
      exact ⟨(first, value) :: bindings, .argument ⟨_, supplied, rendered⟩ bound binds, by rw [joined]; rfl⟩

/-- Binding the markers succeeds if the argument of each can be rendered. -/
theorem exists_mapM_of_renders {dateFormat : String} (format : s.dateFormat = dateFormat)
    (renders : ∀ marker ∈ markers segments, ∃ value, Renders args dateFormat marker value) :
    ∃ parts t, segments.mapM (compileSegment args) s = .ok parts t := by
  induction segments generalizing s with
  | nil => exact ⟨[], s, rfl⟩
  | cons segment rest ih =>
    rw [List.mapM_cons]
    cases segment with
    | text chars =>
      obtain ⟨parts, t, run⟩ := ih format renders
      exact ⟨_, t, bind_eq_ok.2 ⟨_, s, pure_eq_ok.2 ⟨rfl, rfl⟩, bind_pure_eq_ok.2 ⟨parts, run, rfl⟩⟩⟩
    | argument index spec =>
      obtain ⟨⟨value, literal, supplied, rendered⟩, behind⟩ := List.forall_mem_cons.1 renders
      -- What is bound for one marker has no part in how the arguments of the others are rendered.
      obtain ⟨token, u, bound, later⟩ :
          ∃ token u, SessionM.bindValue value s = .ok token u ∧ u.dateFormat = dateFormat := by
        obtain ⟨n, _, bound⟩ := bindValue_run value s
        exact ⟨_, _, bound, format⟩
      have own : (args.getD index .null).render spec s.dateFormat = .ok value := by
        simpa [List.getD, supplied, format] using rendered
      have compiles : compileSegment args (.argument index spec) s = .ok token u :=
        bindLiteral_eq_ok.2 ⟨value, own, bound⟩
      obtain ⟨parts, t, run⟩ := ih later behind
      exact ⟨_, t, bind_eq_ok.2 ⟨_, _, compiles, bind_pure_eq_ok.2 ⟨parts, run, rfl⟩⟩⟩

/-! ## The whole template -/

theorem compile_of_check_error {template : String} {fault : TemplateFault}
    (refused : check template args.length = .error fault) :
    compile template args s = .error (.unsupported (.template fault)) s := by
  have answer : SessionM.query (fun _ => (check template args.length).mapError (.unsupported ∘ .template)) s =
      .error (.unsupported (.template fault)) s := by
    refine bind_eq_error.2 (.inr ⟨s, s, rfl, ?_⟩)
    rw [refused]
    rfl
  exact bind_eq_error.2 (.inl answer)

theorem compile_eq_ok {template text : String} :
    compile template args s = .ok text t ↔ ∃ segments parts,
      (read template = .ok segments ∧ ∀ marker ∈ markers segments, marker.1 < args.length) ∧
        segments.mapM (compileSegment args) s = .ok parts t ∧ String.join parts = text := by
  unfold compile
  simp only [query_bind_eq_ok, bind_pure_eq_ok, mapError_eq_ok, check_eq_ok]
  constructor
  · rintro ⟨segments, checked, parts, run, joined⟩
    exact ⟨segments, parts, checked, run, joined⟩
  · rintro ⟨segments, parts, checked, run, joined⟩
    exact ⟨segments, checked, parts, run, joined⟩

theorem lt_of_renders {dateFormat : String} {marker : Nat × Option String} {value : AttributeValue}
    (renders : Renders args dateFormat marker value) : marker.1 < args.length := by
  obtain ⟨literal, supplied, _⟩ := renders
  exact (List.getElem?_eq_some_iff.1 supplied).1

theorem Binds.renders_of_mem {bindings : List (String × AttributeValue)} (binds : Binds segments args s bindings t) :
    ∀ marker ∈ markers segments, ∃ value, Renders args s.dateFormat marker value := by
  intro marker member
  obtain ⟨k, within, rfl⟩ := List.getElem_of_mem member
  have both := binds.renders
  have bound : k < (bindings.map (·.2)).length := both.length_eq ▸ within
  exact ⟨_, List.Forall₂.get both within bound⟩

/-- Compiling is exact, and atomic on malformed input. A template that cannot be read, or one of whose markers has no
argument, is refused and leaves the session as it was. The text of a template that compiles is its segments with a token
for each marker; the tokens are new and bound, and nothing else changes. It compiles if and only if it can be read and
the argument of each marker is there and can be rendered. -/
theorem compile_exact (template : String) (args : List Value) (s : Session) :
    (∀ fault, read template = .error fault →
        compile template args s = .error (.unsupported (.template fault)) s) ∧
      (∀ segments marker, read template = .ok segments → marker ∈ markers segments → args.length ≤ marker.1 →
        ∃ first ∈ markers segments, args.length ≤ first.1 ∧
          compile template args s = .error (.unsupported (.template (.missingArgument first.1 args.length))) s) ∧
      (∀ text t, compile template args s = .ok text t →
        ∃ segments bindings, read template = .ok segments ∧ Binds segments args s bindings t ∧
          text = filled segments (bindings.map (·.1))) ∧
      ((∃ text t, compile template args s = .ok text t) ↔ ∃ segments, read template = .ok segments ∧
        ∀ marker ∈ markers segments, ∃ value, Renders args s.dateFormat marker value) := by
  have compiled : ∀ text t, compile template args s = .ok text t →
      ∃ segments bindings, read template = .ok segments ∧ Binds segments args s bindings t ∧
        text = filled segments (bindings.map (·.1)) := by
    intro text t run
    obtain ⟨segments, parts, ⟨found, within⟩, compiles, rfl⟩ := compile_eq_ok.1 run
    obtain ⟨bindings, binds, joined⟩ := binds_of_mapM within compiles
    exact ⟨segments, bindings, found, binds, joined⟩
  refine ⟨fun fault refused => ?_, fun segments marker found member beyond => ?_, compiled, ?_, ?_⟩
  · exact compile_of_check_error (check_of_unreadable refused _)
  · have checked := check_of_read found args.length
    cases missing : (markers segments).find? (args.length ≤ ·.1) with
    | some first =>
      rw [missing] at checked
      exact ⟨first, List.mem_of_find?_eq_some missing, by simpa using List.find?_some missing,
        compile_of_check_error checked⟩
    | none =>
      have within := List.find?_eq_none.1 missing marker member
      simp [beyond] at within
  · rintro ⟨text, t, run⟩
    obtain ⟨segments, bindings, found, binds, _⟩ := compiled text t run
    exact ⟨segments, found, binds.renders_of_mem⟩
  · rintro ⟨segments, found, renders⟩
    obtain ⟨parts, t, run⟩ := exists_mapM_of_renders rfl renders
    have within : ∀ marker ∈ markers segments, marker.1 < args.length := by
      intro marker member
      obtain ⟨value, rendered⟩ := renders marker member
      exact lt_of_renders rendered
    exact ⟨_, t, compile_eq_ok.2 ⟨segments, parts, ⟨found, within⟩, run, rfl⟩⟩

/-- A marker that is repeated gets a token of its own each time, and a token that is taken is passed over. -/
example :
    let s := { Session.new .standard none with values := [(":p1", .bool true)] }
    (compile "a = \x7b0\x7d OR b = \x7b0\x7d" [.bool false]).answer? s = some "a = :p0 OR b = :p2" := by
  cbv

end ItemExpr.Template

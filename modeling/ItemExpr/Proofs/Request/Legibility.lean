import ItemExpr.Proofs.Binding.Readable
import ItemExpr.Proofs.Request.Outcome

/-!
# Tokens of requests that can be read

The tokens of a request look like tokens if its settings let them, and if every raw text brings names that do. Nothing
else that a request is put together from chooses a token.
-/

namespace ItemExpr

open Session SessionM
open NameTable (Spelled)

variable {s t : Session}

/-- A raw text whose names look like tokens. -/
def RawText.Legible (raw : RawText) : Prop :=
  ∀ binding ∈ raw.names, Spelled "#" binding.1

namespace Session

theorem Legible.insertName {token attributeName : String} (legible : s.Legible) (spelled : Spelled "#" token)
    (run : SessionM.insertName token attributeName s = .ok () t) : t.Legible := by
  obtain ⟨names, inserted, changes⟩ := query_bind_eq_ok.1 run
  obtain rfl := modify_eq_ok.1 changes
  have inserted : s.names.insert token attributeName = .ok names := mapError_eq_ok.1 inserted
  unfold NameTable.insert at inserted
  split at inserted
  · cases inserted
    refine ⟨⟨legible.names.sigil, fun binding member => ?_⟩, legible.valueSigil⟩
    obtain old | new := List.mem_append.1 member
    · exact legible.names.bindings binding old
    · cases List.mem_singleton.1 new
      exact spelled
  · split at inserted
    · cases inserted
      exact legible
    · cases inserted

theorem Legible.insertValue {token : String} {value : AttributeValue} (legible : s.Legible)
    (run : SessionM.insertValue token value s = .ok () t) : t.Legible := by
  obtain ⟨values, _, changes⟩ := query_bind_eq_ok.1 run
  obtain rfl := modify_eq_ok.1 changes
  exact ⟨legible.names, legible.valueSigil⟩

theorem Legible.rawText {raw : RawText} {text : String} (legible : s.Legible) (spelled : raw.Legible)
    (run : raw.compile s = .ok text t) : t.Legible := by
  unfold RawText.compile at run
  obtain ⟨_, _, read, run⟩ := bind_eq_ok.1 run
  obtain ⟨rfl, rfl⟩ := get_eq_ok.1 read
  split at run
  · obtain ⟨_, _, thrown, _⟩ := bind_eq_ok.1 run
    exact absurd thrown unsupported_ne_ok
  · obtain ⟨_, u, names, run⟩ := bind_eq_ok.1 run
    obtain ⟨_, values, _⟩ := bind_pure_eq_ok.1 run
    have named : u.Legible := forM_keeps Legible
      (fun binding member _ _ run legible => legible.insertName (spelled binding member) run) names legible
    exact forM_keeps Legible (fun _ _ _ _ run legible => legible.insertValue run) values named

theorem Legible.template {template text : String} {args : List Value} (legible : s.Legible)
    (run : Template.compile template args s = .ok text t) : t.Legible := by
  obtain ⟨segments, _, run⟩ := query_bind_eq_ok.1 run
  obtain ⟨parts, compiles, _⟩ := bind_pure_eq_ok.1 run
  refine mapM_keeps Legible (fun {segment part before after} compile legible => ?_) compiles legible
  cases segment with
  | text chars =>
    obtain ⟨_, rfl⟩ := pure_eq_ok.1 compile
    exact legible
  | argument index spec =>
    obtain ⟨stored, _, binds⟩ := query_bind_eq_ok.1 compile
    exact (grows_bindValue binds).legible legible

end Session

theorem Part.legible {part : Part} {clause : Clause} {text : String} (legible : s.Legible)
    (spelled : ∀ raw, part.raw? = some raw → raw.Legible) (run : part.compile s = .ok (clause, text) t) :
    t.Legible := by
  cases part with
  | condition clause source =>
    obtain ⟨text, compiles, _⟩ := bind_pure_eq_ok.1 run
    cases source with
    | typed condition =>
      obtain ⟨c, compiles, _⟩ := compile_typed compiles
      exact (condition_binds compiles).grows.legible legible
    | template template args => exact legible.template compiles
    | raw raw => exact legible.rawText (spelled raw rfl) compiles
  | project path =>
    obtain ⟨shown, compiles, _⟩ := bind_pure_eq_ok.1 run
    obtain ⟨resolved, resolves, _⟩ := bind_pure_eq_ok.1 compiles
    exact (resolvePath_resolves resolves).grows.legible legible
  | action action =>
    obtain ⟨update, compiles, _⟩ := bind_pure_eq_ok.1 run
    exact (assignment_binds compiles).grows.legible legible
  | template clause template args =>
    obtain ⟨text, compiles, _⟩ := bind_pure_eq_ok.1 run
    exact legible.template compiles
  | raw clause raw =>
    obtain ⟨text, compiles, _⟩ := bind_pure_eq_ok.1 run
    exact legible.rawText (spelled raw rfl) compiles

/-- Tasks whose raw texts can be read keep the tokens of a session readable. -/
theorem Performs.legible {tasks : List Task} {fragments : List Fragment} (performs : Performs s tasks fragments t)
    (spelled : ∀ part, .part part ∈ tasks → ∀ raw, part.raw? = some raw → raw.Legible) (legible : s.Legible) :
    t.Legible := by
  induction performs with
  | nil => exact legible
  | encryptor _ ih | geoEncoder _ ih | localClock _ ih =>
    exact ih (fun part member => spelled part (.tail _ member)) ⟨legible.names, legible.valueSigil⟩
  | index selects _ ih =>
    obtain ⟨index, _, changes⟩ := query_bind_eq_ok.1 selects
    obtain rfl := modify_eq_ok.1 changes
    exact ih (fun part member => spelled part (.tail _ member)) ⟨legible.names, legible.valueSigil⟩
  | @part s u t part clause text tasks fragments compiles _ ih =>
    have enters : Session.Legible { s with mode := part.mode } := ⟨legible.names, legible.valueSigil⟩
    have later := part.legible enters (spelled part (.head _)) compiles
    exact ih (fun part member => spelled part (.tail _ member)) ⟨later.names, later.valueSigil⟩

/-- Settings and raw texts that keep the tokens of a request readable. -/
structure Recipe.Legible (recipe : Recipe) (settings : Settings) : Prop where
  nameSigil : Spelled "#" settings.nameSigil
  valueSigil : Spelled ":" settings.valueSigil
  rawTexts : ∀ raw ∈ recipe.rawTexts, raw.Legible

/-- They do so up to the end of a run that does not fail. -/
theorem Recipe.Legible.session {recipe : Recipe} {entity : Entity} {settings : Settings}
    (legible : recipe.Legible settings) (fine : (recipe.progress entity settings).draft.failure = none) :
    (recipe.progress entity settings).draft.session.Legible := by
  obtain ⟨_, _, completes, _⟩ := (recipe.reflects entity settings).done fine
  have start : (Session.new settings (some entity)).Legible := ⟨⟨legible.nameSigil, nofun⟩, legible.valueSigil⟩
  refine completes.performs.legible (fun part member raw made => legible.rawTexts raw ?_) start
  exact List.mem_filterMap.2 ⟨.part part, member, made⟩

end ItemExpr

import ItemExpr.Proofs.Binding.Run
import ItemExpr.Proofs.Placeholder.Emission
import ItemExpr.Proofs.Placeholder.Layout
import ItemExpr.Proofs.Template.Compilation

/-!
# The placeholders of a request

In a finished request under the standard settings each value that is bound has a token of its own, these are numbered
from zero on, and each stands exactly once in the texts of the request. The name tokens in the texts are those that are
bound. Templates take part in this if their texts have no tokens in them and do not go on with one in front of them.
-/

namespace ItemExpr

open Session SessionM

variable {s t : Session}

/-! ## Templates -/

namespace Template

/-- The text that some segments start with. -/
def leading : List Segment → List Char
  | .text chars :: rest => chars ++ leading rest
  | _ => []

/-- The texts among some segments have no sigils in them, and behind a marker none starts like the rest of a token. -/
def Separate : List Segment → Prop
  | [] => True
  | .text chars :: rest => '#' ∉ chars ∧ ':' ∉ chars ∧ Separate rest
  | .argument _ _ :: rest => Ends (leading rest) ∧ Separate rest

instance Separate.decidable : (segments : List Segment) → Decidable (Separate segments)
  | [] => isTrue trivial
  | .text chars :: rest =>
    have := decidable rest
    inferInstanceAs (Decidable ('#' ∉ chars ∧ ':' ∉ chars ∧ Separate rest))
  | .argument _ _ :: rest =>
    have := decidable rest
    inferInstanceAs (Decidable ((leading rest).takeWhile NameTable.isTokenChar = [] ∧ Separate rest))

/-- A template has no tokens but those of its arguments. -/
def Closed (template : String) : Prop :=
  ∀ segments, read template = .ok segments → Separate segments

theorem closed_of_read {template : String} {segments : List Segment} (found : read template = .ok segments)
    (separate : Separate segments) : Closed template := by
  intro others read
  cases found.symm.trans read
  exact separate

variable {segments : List Segment} {args : List Value} {parts : List String}

/-- What some segments are compiled to starts with the text that they start with. -/
theorem leading_prefix (run : segments.mapM (compileSegment args) s = .ok parts t) (legible : s.Legible) :
    ∃ behind, (String.join parts).toList = leading segments ++ behind ∧ Ends behind := by
  induction segments generalizing s parts with
  | nil =>
    obtain ⟨rfl, _⟩ := pure_eq_ok.1 run
    exact ⟨[], rfl, ends_nil⟩
  | cons segment rest ih =>
    rw [List.mapM_cons] at run
    obtain ⟨first, u, compiles, run⟩ := bind_eq_ok.1 run
    obtain ⟨later, runLater, rfl⟩ := bind_pure_eq_ok.1 run
    cases segment with
    | text chars =>
      obtain ⟨rfl, rfl⟩ := pure_eq_ok.1 compiles
      obtain ⟨behind, same, ends⟩ := ih runLater legible
      exact ⟨behind, by simp [leading, ← same], ends⟩
    | argument index spec =>
      obtain ⟨stored, _, binds⟩ := query_bind_eq_ok.1 compiles
      obtain ⟨chars, rfl, _⟩ := spelled_bindValue binds legible
      have starts : (String.join ((":" ++ String.ofList chars) :: later)).toList =
          ':' :: (chars ++ (String.join later).toList) := by
        simp
      exact ⟨_, starts, ends_cons (by decide)⟩

theorem emits_segments (separate : Separate segments) (run : segments.mapM (compileSegment args) s = .ok parts t)
    (legible : s.Legible) : Emits s (lexemes (String.join parts).toList) t := by
  induction segments generalizing s parts with
  | nil =>
    obtain ⟨rfl, rfl⟩ := pure_eq_ok.1 run
    exact (Emits.refl s).of_cut rfl
  | cons segment rest ih =>
    rw [List.mapM_cons] at run
    obtain ⟨first, u, compiles, run⟩ := bind_eq_ok.1 run
    obtain ⟨later, runLater, rfl⟩ := bind_pure_eq_ok.1 run
    rw [String.join_cons, String.toList_append]
    cases segment with
    | text chars =>
      obtain ⟨rfl, rfl⟩ := pure_eq_ok.1 compiles
      obtain ⟨noName, noValue, separate⟩ := separate
      refine (ih separate runLater legible).of_text fun sigil known => ?_
      have plain : sigil ∉ (String.ofList chars).toList := by
        rcases known with rfl | rfl <;> simpa
      rw [tokensIn_of_plain plain, tokensIn_eq_lexemes known]
    | argument index spec =>
      obtain ⟨stored, _, binds⟩ := query_bind_eq_ok.1 compiles
      obtain ⟨ends, separate⟩ := separate
      have legibleLater := (grows_bindValue binds).legible legible
      obtain ⟨behind, same, endsBehind⟩ := leading_prefix runLater legibleLater
      have endsLater : Ends (String.join later).toList := by
        rw [same, Ends, takeWhile_append_of_ends endsBehind]
        exact ends
      rw [lexemes_value (spelled_bindValue binds legible) endsLater]
      exact (emits_bindValue binds).trans (ih separate runLater legibleLater)

theorem emits_compile {template text : String} (closed : Closed template)
    (run : compile template args s = .ok text t) (legible : s.Legible) : Emits s (lexemes text.toList) t := by
  obtain ⟨segments, checked, run⟩ := query_bind_eq_ok.1 run
  obtain ⟨parts, compiles, rfl⟩ := bind_pure_eq_ok.1 run
  exact emits_segments (closed segments (check_eq_ok.1 (mapError_eq_ok.1 checked)).1) compiles legible

end Template

/-! ## Parts -/

/-- A condition that is a tree, or a template that has no tokens but those of its arguments. -/
def ConditionSource.Closed : ConditionSource → Prop
  | .typed _ => True
  | .template text _ => Template.Closed text
  | .raw _ => False

/-- A part that is not raw, and whose templates have no tokens but those of their arguments. -/
def Part.Closed : Part → Prop
  | .condition _ source => source.Closed
  | .template _ text _ => Template.Closed text
  | .raw .. => False
  | .project _ | .action _ => True

theorem ConditionSource.emits {source : ConditionSource} {text : String} (closed : source.Closed)
    (run : source.compile s = .ok text t) (legible : s.Legible) : Emits s (lexemes text.toList) t := by
  cases source with
  | typed condition =>
    obtain ⟨c, compiles, rfl⟩ := compile_typed run
    have binds := condition_binds compiles
    exact binds.emits.of_cut (c.lexemes_text (binds.readable_of_legible legible) ends_nil)
  | template text args => exact Template.emits_compile closed run legible
  | raw => exact closed.elim

theorem Part.emits {part : Part} {clause : Clause} {text : String} (closed : part.Closed)
    (run : part.compile s = .ok (clause, text) t) (legible : s.Legible) : Emits s (lexemes text.toList) t := by
  cases part with
  | condition clause source =>
    obtain ⟨text, compiles, same⟩ := bind_pure_eq_ok.1 run
    cases same
    exact source.emits closed compiles legible
  | project path =>
    obtain ⟨shown, compiles, same⟩ := bind_pure_eq_ok.1 run
    cases same
    obtain ⟨resolved, resolves, rfl⟩ := bind_pure_eq_ok.1 compiles
    have derived := resolvePath_resolves resolves
    exact derived.emits.of_cut (lexemes_pathText (derived.readable legible) ends_nil)
  | action typed =>
    obtain ⟨update, compiles, same⟩ := bind_pure_eq_ok.1 run
    cases same
    have binds := assignment_binds compiles
    exact binds.emits.of_cut (update.lexemes_text (binds.readable legible) ends_nil)
  | template clause text args =>
    obtain ⟨text, compiles, same⟩ := bind_pure_eq_ok.1 run
    cases same
    exact Template.emits_compile closed compiles legible
  | raw => exact closed.elim

/-! ## Runs -/

/-- Tasks that are done in turn bind the tokens in the texts of their fragments. -/
theorem Performs.emits {tasks : List Task} {fragments : List Fragment} (performs : Performs s tasks fragments t)
    (closed : ∀ part, .part part ∈ tasks → part.Closed) (legible : s.Legible) :
    Emits s (fragments.flatMap fun fragment => lexemes fragment.text.toList) t := by
  induction performs with
  | nil => exact .refl _
  | encryptor _ ih | geoEncoder _ ih | localClock _ ih =>
    have further := ih (fun part member => closed part (.tail _ member)) ⟨legible.names, legible.valueSigil⟩
    exact further.of_start rfl rfl rfl
  | @index s u t name tasks fragments selects _ ih =>
    obtain ⟨index, _, changes⟩ := query_bind_eq_ok.1 selects
    obtain rfl := modify_eq_ok.1 changes
    have further := ih (fun part member => closed part (.tail _ member)) ⟨legible.names, legible.valueSigil⟩
    exact further.of_start rfl rfl rfl
  | @part s u t part clause text tasks fragments compiles _ ih =>
    -- The mode is there for this part only.
    have enters : Emits s [] { s with mode := part.mode } := .of_sameTables rfl rfl rfl
    have leaves : Emits u [] { u with mode := s.mode } := .of_sameTables rfl rfl rfl
    have emits := enters.trans ((part.emits (closed part (.head _)) compiles (enters.legible legible)).trans leaves)
    rw [List.append_nil, List.nil_append] at emits
    exact emits.trans (ih (fun part member => closed part (.tail _ member)) (emits.legible legible))

/-! ## Finished requests -/

theorem tokensInAll_fragments {sigil : Char} (known : sigil = '#' ∨ sigil = ':') (fragments : List Fragment) :
    (fragments.flatMap fun fragment => lexemes fragment.text.toList).filterMap (Lexeme.token? sigil) =
      tokensInAll sigil (fragments.map (·.text)) := by
  rw [tokensInAll, List.flatMap_map, List.filterMap_flatMap]
  simp only [tokensIn_eq_lexemes known]

/-- The placeholders of a finished request are closed and exact: what is bound stands in its texts, each value in one
place, and what stands in its texts is bound. -/
theorem Recipe.placeholders_exact {recipe : Recipe} {entity : Entity} {compiled : Compiled}
    (closed : ∀ part, .part part ∈ recipe.tasks → part.Closed)
    (built : recipe.build entity .standard = .ok compiled) :
    compiled.values.map (·.1) = (List.range compiled.values.length).map (fun n => ":p" ++ toString n) ∧
      (tokensInAll ':' compiled.texts).Perm (compiled.values.map (·.1)) ∧ (tokensInAll ':' compiled.texts).Nodup ∧
      ∀ token, token ∈ tokensInAll '#' compiled.texts ↔ token ∈ compiled.names.map (·.1) := by
  obtain ⟨fragments, yields⟩ := recipe.yields_of_build built
  obtain ⟨after, performs, names, values⟩ := yields.performs
  have emits := performs.emits closed (legible_new _)
  have keys := (emits.numbered rfl).keys
  have written : after.values.map (·.1) = tokensInAll ':' (fragments.map (·.text)) := by
    rw [emits.values, tokensInAll_fragments (.inr rfl)]
    rfl
  have perm : (tokensInAll ':' compiled.texts).Perm (compiled.values.map (·.1)) := by
    rw [values, written]
    exact yields.tokens_perm (.inr rfl)
  refine ⟨?_, perm, ?_, ?_⟩
  · rw [values, keys]
    refine List.map_congr_left fun n _ => ?_
    rw [TokenSource.token, emits.sigil]
    rfl
  · rw [perm.nodup_iff, values, keys]
    exact List.nodup_range.map fun _ _ => TokenSource.token_injective
  · intro token
    rw [(yields.tokens_perm (.inl rfl)).mem_iff, names, emits.names, tokensInAll_fragments (.inl rfl)]
    simp [Session.new, NameTable.empty]

/-! An update with texts of all kinds, and a clause and a condition that come from more than one of them. -/

def restock : Recipe :=
  .update
    [.template .set "total = {0}, note = if_not_exists(note, {1})" [.bool true, .string "none"],
      .actions [.set (.ofName "Status") (.literal (.string "open"))],
      .condition (.template "total <> {0}" [.bool false]),
      .condition (.typed (.compare .eq (.ofName "Status") (.literal (.string "new"))))]

theorem closed_restock : ∀ part, .part part ∈ restock.tasks → part.Closed := by
  have readSet : Template.read "total = {0}, note = if_not_exists(note, {1})" =
      .ok [.text "total = ".toList, .argument 0 none, .text ", note = if_not_exists(note, ".toList, .argument 1 none,
        .text ")".toList] := by
    decide +kernel
  have readDiffers : Template.read "total <> {0}" = .ok [.text "total <> ".toList, .argument 0 none] := by
    decide +kernel
  intro part member
  simp only [restock, Recipe.tasks, Update.tasks, List.flatMap_cons, List.flatMap_nil, List.map_cons, List.map_nil,
    List.cons_append, List.nil_append, List.append_nil, List.mem_cons, Task.part.injEq, List.not_mem_nil, or_false]
    at member
  obtain rfl | rfl | rfl | rfl := member
  · exact Template.closed_of_read readSet (by decide)
  · trivial
  · exact Template.closed_of_read readDiffers (by decide)
  · trivial

theorem placeholders_exact_of_restock :
    (∀ part, .part part ∈ restock.tasks → part.Closed) ∧
      ∃ compiled, restock.build Query.orders .standard = .ok compiled ∧
        compiled.texts =
          ["SET total = :p0, note = if_not_exists(note, :p1), #status = :p2", "(total <> :p3) AND (#status = :p4)"] ∧
        compiled.values.map (·.1) = (List.range compiled.values.length).map (fun n => ":p" ++ toString n) ∧
        (tokensInAll ':' compiled.texts).Perm (compiled.values.map (·.1)) ∧ (tokensInAll ':' compiled.texts).Nodup ∧
        ∀ token, token ∈ tokensInAll '#' compiled.texts ↔ token ∈ compiled.names.map (·.1) := by
  have finished : (restock.build Query.orders .standard).toOption.map (·.texts) = some
      ["SET total = :p0, note = if_not_exists(note, :p1), #status = :p2", "(total <> :p3) AND (#status = :p4)"] := by
    decide +kernel
  obtain ⟨compiled, given, texts⟩ := Option.map_eq_some_iff.1 finished
  have built := toOption_eq_some.1 given
  exact ⟨closed_restock, compiled, built, texts, Recipe.placeholders_exact closed_restock built⟩

end ItemExpr

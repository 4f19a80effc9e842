import Mathlib.Data.List.Forall2
import ItemExpr.AttributeValue
import ItemExpr.Path
import ItemExpr.Value

/-!
# Parts of values

A list has its items as members and a map the values of its entries, each with the step of a path that leads to it. What
stands at any depth is reached by a path (`At`). A relation that is carried from two values to their members is carried
to their parts (`At.related`), and what is carried from the members of a literal to the literal holds of all literals
(`Value.induction_members`).
-/

namespace ItemExpr

/-! ## Lists -/

section

variable {α β : Type} {R : α → β → Prop} {xs : List α} {ys : List β}

theorem exists_of_mem_forall₂ (pairs : List.Forall₂ R xs ys) {x : α} (member : x ∈ xs) : ∃ y ∈ ys, R x y := by
  induction pairs with
  | nil => cases member
  | cons first _ ih =>
    obtain rfl | later := List.mem_cons.1 member
    · exact ⟨_, List.mem_cons_self, first⟩
    · obtain ⟨y, own, related⟩ := ih later
      exact ⟨y, List.mem_cons_of_mem _ own, related⟩

theorem forall₂_mapIdx {γ δ : Type} {S : γ → δ → Prop} {f : ℕ → α → γ} {g : ℕ → β → δ} (pairs : List.Forall₂ R xs ys)
    (each : ∀ i x y, R x y → S (f i x) (g i y)) : List.Forall₂ S (xs.mapIdx f) (ys.mapIdx g) := by
  induction pairs generalizing f g with
  | nil => exact .nil
  | cons first _ ih =>
    rw [List.mapIdx_cons, List.mapIdx_cons]
    exact .cons (each 0 _ _ first) (ih fun i => each (i + 1))

end

/-! ## Parts -/

section

variable {α β : Type} {members : α → List (PathStep × α)} {others : β → List (PathStep × β)} {a part : α}
  {b : β} {path : List PathStep}

/-- The part of a value that a path leads to. Each step of the path leads to a member: `members` are those of each
value, with the steps that lead to them. -/
inductive At (members : α → List (PathStep × α)) : α → List PathStep → α → Prop where
  | here {a : α} : At members a [] a
  | inside {a child part : α} {step : PathStep} {path : List PathStep} :
    (step, child) ∈ members a → At members child path part → At members a (step :: path) part

/-- If related values have related members, then they have related parts. -/
theorem At.related (leads : At members a path part) (R : α → β → Prop)
    (keeps : ∀ {a b}, R a b → List.Forall₂ (fun m n => m.1 = n.1 ∧ R m.2 n.2) (members a) (others b))
    (related : R a b) : ∃ own, At others b path own ∧ R part own := by
  induction leads generalizing b with
  | here => exact ⟨b, .here, related⟩
  | inside member _ ih =>
    obtain ⟨⟨step, child⟩, own, rfl, kept⟩ := exists_of_mem_forall₂ (keeps related) member
    obtain ⟨last, leads, stands⟩ := ih kept
    exact ⟨last, .inside own leads, stands⟩

end

/-- The items of a list by their positions, and the values of a map by their keys. -/
def Value.members : Value → List (PathStep × Value)
  | .list items => items.mapIdx fun position item => (.index position, item)
  | .map entries => entries.map fun entry => (.field entry.1, entry.2)
  | _ => []

def AttributeValue.members : AttributeValue → List (PathStep × AttributeValue)
  | .list items => items.mapIdx fun position item => (.index position, item)
  | .map entries => entries.map fun entry => (.field entry.1, entry.2)
  | _ => []

namespace Value

variable {value : Value}

theorem sizeOf_lt_of_mem_members {member : PathStep × Value} (inside : member ∈ value.members) :
    sizeOf member.2 < sizeOf value := by
  cases value with
  | list items =>
    obtain ⟨position, within, rfl⟩ := List.mem_mapIdx.1 inside
    have smaller := List.sizeOf_lt_of_mem (List.getElem_mem within)
    rw [list.sizeOf_spec]
    exact Nat.lt_add_left 1 smaller
  | map entries =>
    obtain ⟨⟨key, own⟩, within, rfl⟩ := List.mem_map.1 inside
    have smaller := List.sizeOf_lt_of_mem within
    rw [Prod.mk.sizeOf_spec] at smaller
    rw [map.sizeOf_spec]
    change sizeOf own < _
    omega
  | _ => cases inside

/-- What holds of a value whenever it holds of its members holds of all values. -/
theorem induction_members {P : Value → Prop} (step : ∀ value, (∀ member ∈ value.members, P member.2) → P value)
    (value : Value) : P value := by
  induction size : sizeOf value using Nat.strongRecOn generalizing value with
  | ind n ih =>
    subst size
    refine step value ?_
    intro member inside
    exact ih _ (sizeOf_lt_of_mem_members inside) _ rfl

end Value

end ItemExpr

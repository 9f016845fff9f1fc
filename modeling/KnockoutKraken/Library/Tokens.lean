import KnockoutKraken.Library.Indices
import Mathlib.Data.List.Basic

/-!
# Counting tokens

Items carry a token each. `tokens` counts the items of a list with a given
token, `held` does it for a place with room for one item; what leaves one
place and enters the next keeps the sum over all places.
-/

namespace KnockoutKraken.Library

universe u v w

variable {τ : Type u} {α : Type v} {β : Type w} [DecidableEq τ]

def tokens (token : α → τ) (t : τ) (items : List α) : Nat := items.countP fun item => decide (token item = t)

def held (token : α → τ) (t : τ) (item : Option α) : Nat := tokens token t item.toList

variable (token : α → τ) (t : τ)

@[simp] theorem tokens_nil : tokens token t [] = 0 := rfl

theorem tokens_cons (item : α) (items : List α) :
    tokens token t (item :: items) = tokens token t items + if token item = t then 1 else 0 := by
  simp [tokens, List.countP_cons]

@[simp] theorem tokens_append (items items' : List α) :
    tokens token t (items ++ items') = tokens token t items + tokens token t items' := List.countP_append

@[simp] theorem tokens_toList (item : Option α) : tokens token t item.toList = held token t item := rfl

@[simp] theorem held_none : held token t none = 0 := rfl

theorem held_some (item : α) : held token t (some item) = if token item = t then 1 else 0 := by
  rw [held, Option.toList_some, tokens_cons, tokens_nil, Nat.zero_add]

theorem held_map (f : β → α) (item : Option β) : held token t (item.map f) = held (fun b => token (f b)) t item := by
  cases item with
  | none => rfl
  | some b => rw [Option.map_some, held_some, held_some]

/-- A place is not counted above a number that its token makes positive. -/
theorem held_le {item : Option α} {n : Nat} (h : ∀ a ∈ item, token a = t → 0 < n) : held token t item ≤ n := by
  cases item with
  | none => exact Nat.zero_le n
  | some a =>
    rw [held_some]
    split
    · next hToken => exact h a rfl hToken
    · exact Nat.zero_le n

theorem held_eq_zero_iff {item : Option α} : held token t item = 0 ↔ item.filter (fun a => decide (token a = t)) = none := by
  cases item with
  | none => simp
  | some a => by_cases h : token a = t <;> simp [held_some, h]

theorem held_pos_iff {item : Option α} : 0 < held token t item ↔ ∃ a ∈ item, token a = t := by
  cases item with
  | none => simp
  | some a => by_cases h : token a = t <;> simp [held_some, h]

theorem held_filter (p : α → Bool) (item : Option α) :
    held token t (item.filter p) + held token t (item.filter fun a => !p a) = held token t item := by
  cases item with
  | none => rfl
  | some a => cases hp : p a <;> simp [Option.filter, hp]

theorem tokens_pos_iff {items : List α} : 0 < tokens token t items ↔ ∃ item ∈ items, token item = t := by
  simp [tokens, List.countP_pos_iff]

theorem held_head_le {deq : Bool} (items : List α) :
    held token t (if deq then items.head? else none) ≤ tokens token t items := by
  refine held_le token t fun a ha hToken => (tokens_pos_iff token t).mpr ⟨a, ?_, hToken⟩
  exact List.mem_of_mem_head? (Option.ite_none_right_eq_some.mp ha).2

theorem tokens_erase [DecidableEq α] {item : α} {items : List α} (h : item ∈ items) :
    tokens token t (items.erase item) + (if token item = t then 1 else 0) = tokens token t items := by
  rw [← tokens_cons]
  exact (List.perm_cons_erase h).symm.countP_eq _

theorem tokens_unit (items : List α) : tokens (fun _ => ()) () items = items.length := by simp [tokens]

theorem held_unit (item : Option α) : held (fun _ => ()) () item = item.isSome.toNat := by
  cases item with
  | none => rfl
  | some a => rw [held_some, if_pos rfl, Option.isSome_some, Bool.toNat_true]

theorem held_id_eq (item : Option τ) : held id t item = (decide (item = some t)).toNat := by
  cases item with
  | none => rfl
  | some t' => by_cases h : t' = t <;> simp [held_some, h]

/-- A place that is emptied by an answer and taken by a request, which may come in the same cycle. -/
theorem slot_balance {busy answer request : Bool} (old new : τ) (hAnswer : answer = true → busy = true)
    (hSingle : request = true → busy = true → answer = true) :
    held id t (if busy && !answer || request then some (if request then new else old) else none) +
        held id t (if answer then (if busy then some old else none) else none) =
      held id t (if busy then some old else none) + held id t (if request then some new else none) := by
  cases answer <;> cases request <;> cases busy <;> simp [Nat.add_comm] at hAnswer hSingle ⊢

end KnockoutKraken.Library

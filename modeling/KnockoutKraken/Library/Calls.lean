import Mathlib.Data.List.Basic

/-!
# Programs that make calls

A program is the tree of the calls it may make: after each of them it
goes on with the answer, or ends with an error when there is none. What
it does is the list of its calls with their answers, and the rules say
which lists are those of a composed program.
-/

namespace KnockoutKraken.Library

universe u v w x

/-- A program returns, fails, or makes a call and goes on with the answer. -/
inductive Calls (κ : Type u) (ρ : Type v) (ε : Type w) (α : Type x) where
  | ret (a : α)
  | fail (e : ε)
  | call (c : κ) (k : ρ → Calls κ ρ ε α)

namespace Calls

variable {κ : Type u} {ρ : Type v} {ε : Type w} {α β : Type x}

def bind (p : Calls κ ρ ε α) (f : α → Calls κ ρ ε β) : Calls κ ρ ε β :=
  match p with
  | ret a => f a
  | fail e => fail e
  | call c k => call c fun r => (k r).bind f

instance : Monad (Calls κ ρ ε) where
  pure := ret
  bind := bind

/-- The calls of a program that were answered, and its result. A call without an answer ends the program. -/
inductive Does : Calls κ ρ ε α → List (κ × ρ) → Except ε α → Prop
  | ret (a) : Does (ret a) [] (.ok a)
  | fail (e) : Does (fail e) [] (.error e)
  | broken (c e k) : Does (call c k) [] (.error e)
  | call {k : ρ → Calls κ ρ ε α} {calls result} (c r) :
    Does (k r) calls result → Does (call c k) ((c, r) :: calls) result

theorem does_ret_iff {a : α} {calls : List (κ × ρ)} {result : Except ε α} :
    Does (ret a) calls result ↔ calls = [] ∧ result = .ok a := by
  constructor
  · rintro ⟨⟩
    exact ⟨rfl, rfl⟩
  · rintro ⟨rfl, rfl⟩
    exact .ret a

theorem does_call_ok_iff {c : κ} {k : ρ → Calls κ ρ ε α} {calls : List (κ × ρ)} {a : α} :
    Does (call c k) calls (.ok a) ↔ ∃ r rest, calls = (c, r) :: rest ∧ Does (k r) rest (.ok a) := by
  constructor
  · rintro ⟨⟩
    exact ⟨_, _, rfl, ‹_›⟩
  · rintro ⟨r, rest, rfl, h⟩
    exact .call c r h

/-- A program that returns got past its first part. -/
theorem does_bind_ok_iff {p : Calls κ ρ ε α} {f : α → Calls κ ρ ε β} {calls : List (κ × ρ)} {b : β} :
    Does (p >>= f) calls (.ok b) ↔
      ∃ first rest a, calls = first ++ rest ∧ Does p first (.ok a) ∧ Does (f a) rest (.ok b) := by
  constructor
  · intro h
    induction p generalizing calls with
    | ret a => exact ⟨[], calls, a, rfl, .ret a, h⟩
    | fail e => cases h
    | call c k ih =>
      obtain ⟨r, rest, rfl, hRest⟩ := does_call_ok_iff.mp h
      obtain ⟨first, last, a, rfl, hFirst, hLast⟩ := ih r hRest
      exact ⟨(c, r) :: first, last, a, rfl, .call c r hFirst, hLast⟩
  · rintro ⟨first, rest, a, rfl, hFirst, hLast⟩
    induction p generalizing first with
    | ret a' =>
      obtain ⟨rfl, hEq⟩ := does_ret_iff.mp hFirst
      cases hEq
      exact hLast
    | fail e => cases hFirst
    | call c k ih =>
      obtain ⟨r, middle, rfl, hMiddle⟩ := does_call_ok_iff.mp hFirst
      exact .call c r (ih r middle hMiddle)

def answered (answer : κ → ρ) : Calls κ ρ ε α → List (κ × ρ) × Except ε α
  | ret a => ([], .ok a)
  | fail e => ([], .error e)
  | call c k => ((c, answer c) :: ((k (answer c)).answered answer).1, ((k (answer c)).answered answer).2)

theorem does_answered (answer : κ → ρ) (p : Calls κ ρ ε α) : Does p (p.answered answer).1 (p.answered answer).2 := by
  induction p with
  | ret a => exact .ret a
  | fail e => exact .fail e
  | call c k ih => exact .call c (answer c) (ih (answer c))

end Calls

end KnockoutKraken.Library

import Mathlib.Logic.Function.Basic
import Mathlib.Data.List.Basic

/-!
# Clocked machines and their runs

A machine reads one input per clock cycle. Its run is the fold of the
transition over a list of inputs, its trace the list of outputs. A rule
on pairs of state and input is followed along a run when every cycle
satisfies it; invariants and simulations are proved once for such runs.
-/

namespace KnockoutKraken.Library

universe u v w

structure Machine (σ : Type u) (ι : Type v) (ω : Type w) where
  next : σ → ι → σ
  output : σ → ι → ω

namespace Machine

variable {σ σ' : Type u} {ι : Type v} {ω : Type w} (m : Machine σ ι ω)

def run (s : σ) (is : List ι) : σ := is.foldl m.next s

def trace (s : σ) : List ι → List ω
  | [] => []
  | i :: is => m.output s i :: trace (m.next s i) is

@[simp] theorem run_nil (s : σ) : m.run s [] = s := rfl

@[simp] theorem run_cons (s : σ) (i : ι) (is : List ι) : m.run s (i :: is) = m.run (m.next s i) is := rfl

theorem run_append (s : σ) (is js : List ι) : m.run s (is ++ js) = m.run (m.run s is) js :=
  List.foldl_append

@[simp] theorem trace_nil (s : σ) : m.trace s [] = [] := rfl

@[simp] theorem trace_cons (s : σ) (i : ι) (is : List ι) :
    m.trace s (i :: is) = m.output s i :: m.trace (m.next s i) is := rfl

theorem trace_append (s : σ) (is js : List ι) :
    m.trace s (is ++ js) = m.trace s is ++ m.trace (m.run s is) js := by
  induction is generalizing s with
  | nil => rfl
  | cons i is ih => simp only [List.cons_append, trace_cons, run_cons, ih]

/-- What a port of the machine carries during a run, in order. -/
def emitted {β : Type w} (port : ω → Option β) (s : σ) (is : List ι) : List β := (m.trace s is).filterMap port

@[simp] theorem emitted_nil {β : Type w} (port : ω → Option β) (s : σ) : m.emitted port s [] = [] := rfl

theorem emitted_cons {β : Type w} (port : ω → Option β) (s : σ) (i : ι) (is : List ι) :
    m.emitted port s (i :: is) = (port (m.output s i)).toList ++ m.emitted port (m.next s i) is := by
  rw [emitted, trace_cons, List.filterMap_cons]
  cases port (m.output s i) <;> rfl

theorem emitted_append {β : Type w} (port : ω → Option β) (s : σ) (is js : List ι) :
    m.emitted port s (is ++ js) = m.emitted port s is ++ m.emitted port (m.run s is) js := by
  rw [emitted, trace_append, List.filterMap_append, emitted, emitted]

/-- Every cycle of the run from `s` satisfies the rule in the state it starts from. -/
def Along (rule : σ → ι → Prop) : σ → List ι → Prop
  | _, [] => True
  | s, i :: is => rule s i ∧ Along rule (m.next s i) is

variable {m} {rule rule' : σ → ι → Prop}

@[simp] theorem along_nil (s : σ) : m.Along rule s [] := trivial

@[simp] theorem along_cons (s : σ) (i : ι) (is : List ι) :
    m.Along rule s (i :: is) ↔ rule s i ∧ m.Along rule (m.next s i) is := Iff.rfl

theorem along_append (s : σ) (is js : List ι) :
    m.Along rule s (is ++ js) ↔ m.Along rule s is ∧ m.Along rule (m.run s is) js := by
  induction is generalizing s with
  | nil => simp
  | cons i is ih => simp only [List.cons_append, along_cons, run_cons, ih, and_assoc]

theorem Along.mono {s : σ} {is : List ι} (h : m.Along rule s is)
    (imp : ∀ s i, rule s i → rule' s i) : m.Along rule' s is := by
  induction is generalizing s with
  | nil => trivial
  | cons i is ih => exact ⟨imp s i h.1, ih h.2⟩

instance decidableAlong [∀ s i, Decidable (rule s i)] : (s : σ) → (is : List ι) → Decidable (m.Along rule s is)
  | _, [] => isTrue trivial
  | s, i :: is =>
    have := decidableAlong (m.next s i) is
    inferInstanceAs (Decidable (rule s i ∧ m.Along rule (m.next s i) is))

/-- The rule holds of every cycle exactly when it holds at the end of every prefix. -/
theorem along_iff_prefix (s : σ) (is : List ι) :
    m.Along rule s is ↔ ∀ js i ks, is = js ++ i :: ks → rule (m.run s js) i := by
  constructor
  · rintro h js i ks rfl
    exact ((along_append s js (i :: ks)).mp h).2.1
  · intro h
    induction is generalizing s with
    | nil => trivial
    | cons i is ih =>
      refine ⟨h [] i is rfl, ih (m.next s i) ?_⟩
      rintro js j ks rfl
      exact h (i :: js) j ks rfl

theorem forall_prefix_iff {p : σ → Prop} (s : σ) (is : List ι) :
    (∀ js, js <+: is → p (m.run s js)) ↔ p s ∧ m.Along (fun s i => p (m.next s i)) s is := by
  induction is generalizing s with
  | nil => simp
  | cons i is ih =>
    rw [along_cons, ← ih (m.next s i)]
    constructor
    · intro h
      exact ⟨h [] List.nil_prefix, fun js hPrefix => h (i :: js) (List.cons_prefix_cons.mpr ⟨rfl, hPrefix⟩)⟩
    · rintro ⟨hStart, hRest⟩ js hPrefix
      cases js with
      | nil => exact hStart
      | cons j js =>
        obtain ⟨rfl, hTail⟩ := List.cons_prefix_cons.mp hPrefix
        exact hRest js hTail

theorem Along.and {s : σ} {is : List ι} (h : m.Along rule s is) (h' : m.Along rule' s is) :
    m.Along (fun s i => rule s i ∧ rule' s i) s is := by
  induction is generalizing s with
  | nil => trivial
  | cons i is ih => exact ⟨⟨h.1, h'.1⟩, ih h.2 h'.2⟩

/-- An invariant that the rule lets every cycle keep holds at the end of a run. -/
theorem Along.invariant {inv : σ → Prop} {s : σ} {is : List ι} (h : m.Along rule s is)
    (start : inv s) (step : ∀ s i, inv s → rule s i → inv (m.next s i)) : inv (m.run s is) := by
  induction is generalizing s with
  | nil => exact start
  | cons i is ih => exact ih h.2 (step s i start h.1)

/-- What follows from the invariant in one cycle holds of every cycle of the run. -/
theorem Along.of_invariant {inv : σ → Prop} {s : σ} {is : List ι} (h : m.Along rule s is)
    (start : inv s) (step : ∀ s i, inv s → rule s i → inv (m.next s i))
    (fact : ∀ s i, inv s → rule s i → rule' s i) : m.Along rule' s is := by
  induction is generalizing s with
  | nil => trivial
  | cons i is ih => exact ⟨fact s i start h.1, ih h.2 (step s i start h.1)⟩

theorem along_of_invariant {inv : σ → Prop} {s : σ} (start : inv s) (step : ∀ s i, inv s → inv (m.next s i))
    (fact : ∀ s i, inv s → rule s i) (is : List ι) : m.Along rule s is := by
  induction is generalizing s with
  | nil => trivial
  | cons i is ih => exact ⟨fact s i start, ih (step s i start)⟩

section Flow

variable {β γ : Type w} {out inn : ω → Option β} (stock : σ → List β)

/-- What is held, leaves at its head and is added to at its end is conserved over a run. -/
theorem Along.conserves {inv : σ → Prop} {s : σ} {is : List ι} (h : m.Along rule s is) (start : inv s)
    (step : ∀ s i, inv s → rule s i → inv (m.next s i))
    (cycle : ∀ s i, inv s → rule s i →
      (out (m.output s i)).toList ++ stock (m.next s i) = stock s ++ (inn (m.output s i)).toList) :
    m.emitted out s is ++ stock (m.run s is) = stock s ++ m.emitted inn s is := by
  induction is generalizing s with
  | nil => exact (List.append_nil _).symm
  | cons i is ih =>
    rw [emitted_cons, emitted_cons, run_cons, List.append_assoc, ih h.2 (step s i start h.1), ← List.append_assoc,
      cycle s i start h.1, List.append_assoc]

theorem along_of_forall (h : ∀ s i, rule s i) (s : σ) (is : List ι) : m.Along rule s is := by
  induction is generalizing s with
  | nil => trivial
  | cons i is ih => exact ⟨h s i, ih _⟩

theorem emitted_conserves (cycle : ∀ s i,
      (out (m.output s i)).toList ++ stock (m.next s i) = stock s ++ (inn (m.output s i)).toList) (s : σ) (is : List ι) :
    m.emitted out s is ++ stock (m.run s is) = stock s ++ m.emitted inn s is := by
  have hAlong : m.Along (fun _ _ => True) s is := along_of_forall (fun _ _ => trivial) s is
  let any : σ → Prop := fun _ => True
  have hAny : any s := trivial
  exact hAlong.conserves stock hAny (fun _ _ _ _ => trivial) fun s i _ _ => cycle s i

theorem emitted_congr (h : ∀ s i, out (m.output s i) = inn (m.output s i)) (s : σ) (is : List ι) :
    m.emitted out s is = m.emitted inn s is := by
  induction is generalizing s with
  | nil => rfl
  | cons i is ih => rw [emitted_cons, emitted_cons, h, ih]

theorem emitted_map (f : β → γ) (s : σ) (is : List ι) :
    m.emitted (fun o => (out o).map f) s is = (m.emitted out s is).map f := by
  rw [emitted, emitted, List.map_filterMap]

theorem emitted_bind (f : β → Option γ) (s : σ) (is : List ι) :
    m.emitted (fun o => (out o).bind f) s is = (m.emitted out s is).filterMap f := by
  rw [emitted, emitted, List.filterMap_filterMap]

theorem emitted_eq_nil_iff (s : σ) (is : List ι) :
    m.emitted out s is = [] ↔ m.Along (fun s i => out (m.output s i) = none) s is := by
  induction is generalizing s with
  | nil => simp
  | cons i is ih => rw [emitted_cons, List.append_eq_nil_iff, ih, along_cons, Option.toList_eq_nil_iff]

theorem Along.last_emitted {shown : σ → γ} {f : β → γ} {s : σ} {is : List ι}
    (h : m.Along (fun s i => shown (m.next s i) = ((out (m.output s i)).map f).getD (shown s)) s is) :
    shown (m.run s is) = ((m.emitted out s is).getLast?.map f).getD (shown s) := by
  induction is generalizing s with
  | nil => rfl
  | cons i is ih =>
    rw [run_cons, emitted_cons, List.getLast?_append, ih h.2]
    cases (m.emitted out (m.next s i) is).getLast? with
    | some value => rfl
    | none =>
      refine h.1.trans ?_
      cases out (m.output s i) <;> rfl

end Flow

/-- What a machine puts out, read by a machine that it simulates, follows the rule of that machine. -/
theorem Along.simulates {ω' : Type w} {n : Machine σ' ω ω'} {spec : σ' → ω → Prop} {rel : σ → σ' → Prop} {s : σ} {t : σ'}
    {is : List ι} (h : m.Along rule s is) (start : rel s t)
    (step : ∀ s t i, rel s t → rule s i → spec t (m.output s i) ∧ rel (m.next s i) (n.next t (m.output s i))) :
    n.Along spec t (m.trace s is) := by
  induction is generalizing s t with
  | nil => trivial
  | cons i is ih =>
    obtain ⟨hSpec, hRel⟩ := step s t i start h.1
    exact ⟨hSpec, ih h.2 hRel⟩

/-- An invariant of a state and of the outputs that came before it. -/
theorem Along.history {inv : List ω → σ → Prop} {s : σ} {is : List ι} (h : m.Along rule s is) (os : List ω) (start : inv os s)
    (step : ∀ os s i, inv os s → rule s i → inv (os ++ [m.output s i]) (m.next s i)) : inv (os ++ m.trace s is) (m.run s is) := by
  induction is generalizing s os with
  | nil => rwa [trace_nil, List.append_nil]
  | cons i is ih =>
    have hRest := ih h.2 (os ++ [m.output s i]) (step os s i start h.1)
    rwa [List.append_assoc, List.singleton_append] at hRest

/-- Two rules that agree under an invariant are followed by the same runs, when one of them keeps it. -/
theorem Along.congr {env : σ → ι → Prop} {inv : σ → Prop} {s : σ} {is : List ι} (h : m.Along env s is)
    (start : inv s) (step : ∀ s i, inv s → env s i → rule' s i → inv (m.next s i))
    (same : ∀ s i, inv s → env s i → (rule s i ↔ rule' s i)) : m.Along rule s is ↔ m.Along rule' s is := by
  induction is generalizing s with
  | nil => exact Iff.rfl
  | cons i is ih =>
    rw [along_cons, along_cons, same s i start h.1]
    exact and_congr_right fun hRule => ih h.2 (step s i start h.1 hRule)

section Total

variable (m) in
def total (amount : σ → ι → Nat) : σ → List ι → Nat
  | _, [] => 0
  | s, i :: is => amount s i + total amount (m.next s i) is

@[simp] theorem total_nil (amount : σ → ι → Nat) (s : σ) : m.total amount s [] = 0 := rfl

@[simp] theorem total_cons (amount : σ → ι → Nat) (s : σ) (i : ι) (is : List ι) :
    m.total amount s (i :: is) = amount s i + m.total amount (m.next s i) is := rfl

theorem total_mul (n : Nat) (amount : σ → ι → Nat) (s : σ) (is : List ι) :
    m.total (fun s i => n * amount s i) s is = n * m.total amount s is := by
  induction is generalizing s with
  | nil => rfl
  | cons i is ih => rw [total_cons, total_cons, ih, Nat.mul_add]

/-- A stock that every cycle changes by what comes and what goes changes by their totals over a run. -/
theorem Along.balance {inv : σ → Prop} {comes goes : σ → ι → Nat} {s : σ} {is : List ι}
    (h : m.Along rule s is) (stock : σ → Nat) (start : inv s) (step : ∀ s i, inv s → rule s i → inv (m.next s i))
    (cycle : ∀ s i, inv s → rule s i → stock (m.next s i) + goes s i = stock s + comes s i) :
    stock (m.run s is) + m.total goes s is = stock s + m.total comes s is := by
  induction is generalizing s with
  | nil => rfl
  | cons i is ih =>
    have hCycle := cycle s i start h.1
    have hRest := ih h.2 (step s i start h.1)
    rw [run_cons, total_cons, total_cons]
    omega

/-- What comes one cycle closer in every cycle, but for what is put in front of it, comes in a long enough run. -/
theorem Along.progress {goal : σ → ι → Bool} {s : σ} {is : List ι} (h : m.Along rule s is) (inv : σ → Prop)
    (distance : σ → Nat) (extra : σ → ι → Nat) (start : inv s)
    (cycle : ∀ s i, inv s → rule s i → goal s i = false → inv (m.next s i) ∧ distance (m.next s i) + 1 ≤ distance s + extra s i)
    (long : distance s + m.total extra s is < is.length) : 0 < m.total (fun s i => (goal s i).toNat) s is := by
  induction is generalizing s with
  | nil => exact absurd long (Nat.not_lt_zero _)
  | cons i is ih =>
    rw [total_cons]
    cases hGoal : goal s i with
    | true => exact Nat.lt_add_right _ Nat.zero_lt_one
    | false =>
      obtain ⟨hInv, hCloser⟩ := cycle s i start h.1 hGoal
      rw [total_cons, List.length_cons] at long
      exact Nat.lt_add_left _ (ih h.2 hInv (by omega))

/-- A measure that every gain lowers, and no cycle raises on the way to the goal, runs out: the goal is reached. -/
theorem Along.reaches {goal : σ → Prop} {gain : σ → ι → Nat} {s : σ} {is : List ι} (h : m.Along rule s is)
    (inv : σ → Prop) (measure : σ → Nat) (start : inv s) (step : ∀ s i, inv s → rule s i → inv (m.next s i))
    (closer : ∀ s i, inv s → rule s i → ¬ goal s → measure (m.next s i) + gain s i ≤ measure s)
    (pos : ∀ s, inv s → ¬ goal s → 0 < measure s) (long : measure s ≤ m.total gain s is) :
    ∃ js, js <+: is ∧ goal (m.run s js) := by
  induction is generalizing s with
  | nil =>
    by_contra hNever
    have hPos := pos s start fun hGoal => hNever ⟨[], List.nil_prefix, hGoal⟩
    exact absurd (Nat.lt_of_lt_of_le hPos long) (Nat.lt_irrefl 0)
  | cons i is ih =>
    by_cases hGoal : goal s
    · exact ⟨[], List.nil_prefix, hGoal⟩
    · have hCloser := closer s i start h.1 hGoal
      rw [total_cons] at long
      obtain ⟨js, hPrefix, hReached⟩ := ih h.2 (step s i start h.1) (by omega)
      exact ⟨i :: js, (List.prefix_cons_inj i).mpr hPrefix, hReached⟩

end Total

section Accepts

universe x

/-- A sequence of outputs is what an automaton with these cycles can show from a state of its own. -/
inductive Accepts {τ : Type x} (cycle : τ → ω → τ → Prop) : τ → List ω → Prop
  | nil (t) : Accepts cycle t []
  | cons {t o t' os} : cycle t o t' → Accepts cycle t' os → Accepts cycle t (o :: os)

theorem Along.accepts {τ : Type x} {cycle : τ → ω → τ → Prop} {rel : σ → τ → Prop} {s : σ} {t : τ} {is : List ι}
    (h : m.Along rule s is) (start : rel s t)
    (step : ∀ s t i, rel s t → rule s i → ∃ t', cycle t (m.output s i) t' ∧ rel (m.next s i) t') :
    Accepts cycle t (m.trace s is) := by
  induction is generalizing s t with
  | nil => exact .nil t
  | cons i is ih =>
    obtain ⟨t', hCycle, hRel⟩ := step s t i start h.1
    exact .cons hCycle (ih h.2 hRel)

end Accepts

variable (m) in
/-- The states some run from `s` ends in. -/
def Reachable (s t : σ) : Prop := ∃ is, m.run s is = t

theorem Reachable.invariant {inv : σ → Prop} {s t : σ} (h : m.Reachable s t) (start : inv s)
    (step : ∀ s i, inv s → inv (m.next s i)) : inv t := by
  obtain ⟨is, rfl⟩ := h
  induction is generalizing s with
  | nil => exact start
  | cons i is ih => exact ih (step s i start)

end Machine

end KnockoutKraken.Library

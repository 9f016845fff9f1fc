import KnockoutKraken.Library.Machine
import KnockoutKraken.Util.BaseModules

/-!
# Fairness of the thread arbiter

Threads are named by their distance from the pointer, going up and
around. The thread granted is the ready one at the smallest distance, and
the pointer moves past it; so the distance of a thread that waits shrinks
with every grant, and no thread passes it a second time.
-/

namespace KnockoutKraken.Util.RoundRobinArbiter

open Library

variable {w : Nat}

structure Input (w : Nat) where
  ready : BitVec (2 ^ w)
  nextReady : Bool

section Cycle

variable (a : RoundRobinArbiter w) (i : Input w)

def granted : Option (BitVec w) := if i.nextReady && valid i.ready then some (a.thread i.ready) else none

/-- The way from the pointer to a thread. -/
def distance (t : BitVec w) : Nat := (t - a.curr).toNat

/-- The first ready thread at or after the pointer, going around. -/
structure First (ready : BitVec (2 ^ w)) (t : BitVec w) : Prop where
  isReady : ready.getLsbD t.toNat = true
  first : ∀ u : BitVec w, ready.getLsbD u.toNat = true → a.distance t ≤ a.distance u

end Cycle

variable (w) in
def machine : Machine (RoundRobinArbiter w) (Input w) (Option (BitVec w)) where
  next a i := a.next i.ready i.nextReady
  output := granted

section Step

variable {a : RoundRobinArbiter w} {i : Input w} {ready : BitVec (2 ^ w)} {t u v : BitVec w}

theorem first_thread (hValid : valid ready = true) : a.First ready (a.thread ready) := by
  refine ⟨a.getLsbD_thread ready hValid, fun u hu => ?_⟩
  have hRotated : (rotateRight ready a.curr).getLsbD (u - a.curr).toNat = true := by
    rw [getLsbD_rotateRight ready a.curr (BitVec.isLt _), ← BitVec.toNat_add, BitVec.add_comm, BitVec.sub_add_cancel]
    exact hu
  have hEncoder := (priorityEncoder_spec hRotated).2
  rwa [distance, thread, BitVec.add_comm, BitVec.add_sub_cancel]

theorem first_of_granted (hGranted : a.granted i = some u) :
    a.First i.ready u ∧ a.next i.ready i.nextReady = ⟨u + 1⟩ := by
  rw [granted] at hGranted
  split at hGranted
  · next hFire =>
    rw [next, if_pos hFire, Option.some.inj hGranted]
    exact ⟨Option.some.inj hGranted ▸ first_thread (Bool.and_eq_true_iff.mp hFire).2, rfl⟩
  · cases hGranted

theorem next_of_not_granted (hGranted : a.granted i = none) : a.next i.ready i.nextReady = a := by
  rw [granted] at hGranted
  split at hGranted
  · cases hGranted
  · next hFire => rw [next, if_neg hFire]

theorem toNat_succ {x y : BitVec w} (h : x.toNat < y.toNat) : (x + 1).toNat = x.toNat + 1 := by
  have hRoom : x.toNat + 1 < 2 ^ w := (Nat.succ_le_of_lt h).trans_lt y.isLt
  have hOne : (1 : BitVec w).toNat = 1 := Nat.mod_eq_of_lt (Nat.lt_of_le_of_lt (Nat.le_add_left 1 _) hRoom)
  exact (BitVec.toNat_add_of_lt (hOne.symm ▸ hRoom)).trans (congrArg _ hOne)

/-- A grant takes the pointer past the thread it issues, on the way to one further away. -/
theorem distance_past (hNear : a.distance u < a.distance t) :
    a.distance t = a.distance u + 1 + (⟨u + 1⟩ : RoundRobinArbiter w).distance t := by
  have hSucc : (u - a.curr + 1).toNat = a.distance u + 1 := toNat_succ hNear
  have hWay : t - (u + 1) = t - a.curr - (u - a.curr + 1) := by grind
  have hLe : u - a.curr + 1 ≤ t - a.curr := BitVec.le_def.mpr (hSucc.symm ▸ Nat.succ_le_of_lt hNear)
  have hRest : (⟨u + 1⟩ : RoundRobinArbiter w).distance t = a.distance t - (a.distance u + 1) := by
    rw [distance, hWay, BitVec.toNat_sub_of_le hLe, hSucc]
    rfl
  rw [hRest]
  exact (Nat.add_sub_cancel' (Nat.succ_le_of_lt hNear)).symm

/-- What lies before a thread as seen from behind an issued one lies between the two. -/
theorem distance_between (hNear : a.distance u < a.distance t)
    (hBefore : (⟨u + 1⟩ : RoundRobinArbiter w).distance v < (⟨u + 1⟩ : RoundRobinArbiter w).distance t) :
    a.distance u < a.distance v ∧ a.distance v < a.distance t := by
  have hPast := distance_past hNear
  have hRoom : a.distance t < 2 ^ w := BitVec.isLt _
  have hSucc : (u - a.curr + 1).toNat = a.distance u + 1 := toNat_succ hNear
  have hWay : v - a.curr = u - a.curr + 1 + (v - (u + 1)) := by grind
  have hSum : a.distance v = a.distance u + 1 + (⟨u + 1⟩ : RoundRobinArbiter w).distance v := by
    rw [distance, hWay, BitVec.toNat_add_of_lt, hSucc]
    · rfl
    · rw [hSucc]
      exact (Nat.add_lt_add_left hBefore _).trans (hPast ▸ hRoom)
  omega

end Step

/-- While a thread is ready and not issued, the threads issued are all before it and different. -/
theorem emitted_before (a : RoundRobinArbiter w) (is : List (Input w)) (t : BitVec w)
    (hReady : ∀ i ∈ is, i.ready.getLsbD t.toNat = true) (hWaits : t ∉ (machine w).emitted id a is) :
    (∀ u ∈ (machine w).emitted id a is, a.distance u < a.distance t) ∧ ((machine w).emitted id a is).Nodup := by
  induction is generalizing a with
  | nil => exact ⟨fun u hu => absurd hu List.not_mem_nil, List.nodup_nil⟩
  | cons i is ih =>
    obtain ⟨hHead, hTail⟩ := List.forall_mem_cons.mp hReady
    rw [Machine.emitted_cons] at hWaits ⊢
    have hOut : id ((machine w).output a i) = a.granted i := rfl
    have hNext : (machine w).next a i = a.next i.ready i.nextReady := rfl
    rw [hOut, hNext] at hWaits ⊢
    cases hGranted : a.granted i with
    | none =>
      rw [hGranted, next_of_not_granted hGranted] at hWaits
      rw [next_of_not_granted hGranted]
      exact ih a hTail hWaits
    | some u =>
      obtain ⟨hFirst, hPast⟩ := first_of_granted hGranted
      rw [hGranted, hPast, Option.toList_some, List.singleton_append, List.mem_cons, not_or] at hWaits
      obtain ⟨hOther, hLater⟩ := hWaits
      obtain ⟨hBefore, hNodup⟩ := ih ⟨u + 1⟩ hTail hLater
      have hNear : a.distance u < a.distance t := by
        refine (hFirst.first t hHead).lt_of_ne fun hEq => hOther ?_
        exact ((BitVec.sub_left_inj a.curr).mp (BitVec.eq_of_toNat_eq hEq)).symm
      rw [hPast, Option.toList_some, List.singleton_append]
      refine ⟨List.forall_mem_cons.mpr ⟨hNear, fun v hv => (distance_between hNear (hBefore v hv)).2⟩, ?_⟩
      exact List.nodup_cons.mpr ⟨fun hAgain => (distance_between hNear (hBefore u hAgain)).1.false, hNodup⟩

/-- The thread offered is the first ready one at or after the pointer, a grant and nothing else
moves the pointer just past it, and no other thread is issued twice while a ready one waits. -/
theorem fair (w : Nat) :
    (∀ (a : RoundRobinArbiter w) (ready : BitVec (2 ^ w)), ready ≠ 0 → a.First ready (a.thread ready)) ∧
    (∀ (a : RoundRobinArbiter w) (i : Input w),
      (a.granted i = if i.nextReady && i.ready != 0 then some (a.thread i.ready) else none) ∧
      (a.next i.ready i.nextReady).curr = (a.granted i).elim a.curr (· + 1)) ∧
    ∀ (a : RoundRobinArbiter w) (is : List (Input w)) (t : BitVec w), (∀ i ∈ is, i.ready.getLsbD t.toNat = true) →
      t ∉ (machine w).emitted id a is → ((machine w).emitted id a is).Nodup := by
  refine ⟨fun a ready hReady => first_thread (decide_eq_true hReady), fun a i => ⟨?_, ?_⟩, fun a is t hReady hWaits =>
    (emitted_before a is t hReady hWaits).2⟩
  · have hValid : valid i.ready = (i.ready != 0) := by rw [Bool.eq_iff_iff, valid, decide_eq_true_iff, bne_iff_ne]
    rw [granted, hValid]
  · cases hGranted : a.granted i with
    | none => rw [next_of_not_granted hGranted]; rfl
    | some u => rw [(first_of_granted hGranted).2]; rfl

end KnockoutKraken.Util.RoundRobinArbiter

import Mathlib.Data.BitVec

/-!
# Bit patterns and tables of them

A pattern fixes some bits of a word. A table of patterns is read from its
start, and a word is given what belongs to the first pattern it matches.
What a table says of all words of a pattern is decided pattern by pattern.
-/

namespace KnockoutKraken.Library

universe u

structure BitPat (n : Nat) where
  mask : BitVec n
  value : BitVec n
deriving DecidableEq

namespace BitPat

variable {n : Nat} {α : Type u}

/-- The pattern with the given decimal digits: 0 and 1 fix their bits, 2 leaves its bit open. -/
def ofDigits (n digits : Nat) : BitPat n :=
  (List.range n).foldl (fun p i =>
    match digits / 10 ^ i % 10 with
    | 0 => ⟨p.mask ||| BitVec.twoPow n i, p.value⟩
    | 1 => ⟨p.mask ||| BitVec.twoPow n i, p.value ||| BitVec.twoPow n i⟩
    | _ => p) ⟨0, 0⟩

def Matches (p : BitPat n) (w : BitVec n) : Prop := w &&& p.mask = p.value

instance (p : BitPat n) (w : BitVec n) : Decidable (p.Matches w) := inferInstanceAs (Decidable (_ = _))

/-- The value of the first pattern that matches. -/
def lookup (default : α) (table : List (BitPat n × α)) (w : BitVec n) : α :=
  match table with
  | [] => default
  | (p, a) :: rest => if p.Matches w then a else lookup default rest w

def Covered (p q : BitPat n) : Prop := p.mask &&& q.mask = q.mask ∧ p.value &&& q.mask = q.value

instance (p q : BitPat n) : Decidable (p.Covered q) := inferInstanceAs (Decidable (_ ∧ _))

/-- A bit that both patterns fix is fixed differently. -/
def Apart (p q : BitPat n) : Prop := p.value &&& q.mask ≠ q.value &&& p.mask

instance (p q : BitPat n) : Decidable (p.Apart q) := inferInstanceAs (Decidable (_ ≠ _))

theorem Matches.of_covered {p q : BitPat n} {w : BitVec n} (h : p.Matches w) (hCovered : p.Covered q) : q.Matches w := by
  obtain ⟨hMask, hValue⟩ := hCovered
  rw [Matches, ← hMask, ← BitVec.and_assoc, h, hValue]

theorem Matches.not_of_apart {p q : BitPat n} {w : BitVec n} (h : p.Matches w) (hApart : p.Apart q) : ¬ q.Matches w := by
  intro hq
  refine hApart ?_
  rw [← h, ← hq, BitVec.and_assoc, BitVec.and_assoc, BitVec.and_comm p.mask]

theorem Matches.getLsbD {p : BitPat n} {w : BitVec n} (h : p.Matches w) {i : Nat} (hi : p.mask.getLsbD i = true) :
    w.getLsbD i = p.value.getLsbD i := by
  rw [← h, BitVec.getLsbD_and, hi, Bool.and_true]

def firstCovering (default : α) (table : List (BitPat n × α)) (p : BitPat n) : Option α :=
  match table with
  | [] => some default
  | (q, a) :: rest =>
    if p.Apart q then firstCovering default rest p else if p.Covered q then some a else none

theorem lookup_of_firstCovering {default a : α} {table : List (BitPat n × α)} {p : BitPat n} {w : BitVec n}
    (h : p.Matches w) (hFirst : firstCovering default table p = some a) : lookup default table w = a := by
  induction table with
  | nil => exact Option.some.inj hFirst
  | cons row rest ih =>
    obtain ⟨q, b⟩ := row
    rw [firstCovering] at hFirst
    rw [lookup]
    split at hFirst
    · next hApart =>
      rw [if_neg (h.not_of_apart hApart)]
      exact ih hFirst
    · split at hFirst
      · next hCovered =>
        rw [if_pos (h.of_covered hCovered)]
        exact Option.some.inj hFirst
      · cases hFirst

theorem lookup_eq_default {default : α} {table : List (BitPat n × α)} {w : BitVec n} (h : ∀ row ∈ table, ¬ row.1.Matches w) :
    lookup default table w = default := by
  induction table with
  | nil => rfl
  | cons row rest ih =>
    rw [lookup, if_neg (h row List.mem_cons_self)]
    exact ih fun row hRow => h row (List.mem_cons_of_mem _ hRow)

/-- The rows that words of a pattern can match. -/
def rowsFor (table : List (BitPat n × α)) (p : BitPat n) : List (BitPat n × α) := table.filter fun row => decide (¬ p.Apart row.1)

theorem lookup_rowsFor {p : BitPat n} {w : BitVec n} (h : p.Matches w) (default : α) (table : List (BitPat n × α)) :
    lookup default (rowsFor table p) w = lookup default table w := by
  induction table with
  | nil => rfl
  | cons row rest ih =>
    obtain ⟨q, a⟩ := row
    rw [rowsFor, List.filter_cons, lookup]
    split
    · rw [lookup]
      exact congrArg _ ih
    · next hNot =>
      have hApart : p.Apart q := by simpa using hNot
      rw [if_neg (h.not_of_apart hApart)]
      exact ih

section Whole

/-- Of the bits of a pattern a row asks at most whether all of them are as the pattern has them. -/
def AsksWhole (q p : BitPat n) : Prop := p.mask &&& q.mask = 0 ∨ p.Covered q

instance (q p : BitPat n) : Decidable (q.AsksWhole p) := inferInstanceAs (Decidable (_ ∨ _))

theorem matches_clear {p q : BitPat n} (hRow : q.AsksWhole p) {w : BitVec n} (hw : ¬ q.Matches w)
    (hClear : ¬ q.Matches (w &&& ~~~q.mask)) : p.Matches (w &&& ~~~q.mask) ↔ p.Matches w := by
  rcases hRow with hOpen | hCovered
  · have hMask : ~~~q.mask &&& p.mask = p.mask := by
      apply BitVec.eq_of_getLsbD_eq
      intro i hi
      have hBit : (p.mask &&& q.mask).getLsbD i = false := by rw [hOpen]; simp
      rw [BitVec.getLsbD_and] at hBit
      rw [BitVec.getLsbD_and, BitVec.getLsbD_not, decide_eq_true hi, Bool.true_and]
      cases hp : p.mask.getLsbD i with
      | false => rw [Bool.and_false]
      | true =>
        rw [hp, Bool.true_and] at hBit
        rw [hBit]
        rfl
    rw [Matches, Matches, BitVec.and_assoc, hMask]
  · exact ⟨fun h => absurd (h.of_covered hCovered) hClear, fun h => absurd (h.of_covered hCovered) hw⟩

/-- A word outside a pattern is looked up as the word without the pattern's bits. -/
theorem lookup_clear {q : BitPat n} {table : List (BitPat n × α)} (hTable : ∀ row ∈ table, q.AsksWhole row.1) {w : BitVec n}
    (hw : ¬ q.Matches w) (hClear : ¬ q.Matches (w &&& ~~~q.mask)) (default : α) :
    lookup default table (w &&& ~~~q.mask) = lookup default table w := by
  induction table with
  | nil => rfl
  | cons row rest ih =>
    rw [lookup, lookup, ih fun row hRow => hTable row (List.mem_cons_of_mem _ hRow)]
    simp only [matches_clear (hTable row List.mem_cons_self) hw hClear]

def both (p q : BitPat n) : BitPat n := ⟨p.mask ||| q.mask, p.value ||| q.value⟩

theorem Matches.both {p q : BitPat n} {w : BitVec n} (hp : p.Matches w) (hq : q.Matches w) : (p.both q).Matches w := by
  rw [Matches, BitPat.both, BitVec.and_or_distrib_left, hp, hq]

end Whole

def fix (p : BitPat n) (i : Nat) (b : Bool) : BitPat n where
  mask := p.mask ||| BitVec.twoPow n i
  value := if b then p.value ||| BitVec.twoPow n i else p.value &&& ~~~BitVec.twoPow n i

theorem Matches.fix {p : BitPat n} {w : BitVec n} (h : p.Matches w) {i : Nat} (hi : i < n) :
    (p.fix i (w.getLsbD i)).Matches w := by
  apply BitVec.eq_of_getLsbD_eq
  intro j hj
  have hBit : (w &&& p.mask).getLsbD j = p.value.getLsbD j := congrArg (fun v => v.getLsbD j) h
  rw [BitVec.getLsbD_and] at hBit
  rw [BitVec.getLsbD_and, BitPat.fix, BitVec.getLsbD_or, BitVec.getLsbD_twoPow, decide_eq_true hi, Bool.true_and]
  by_cases hSame : i = j
  · subst hSame
    cases w.getLsbD i <;> simp [hi]
  · have hOther : ¬ j = i := fun h => hSame h.symm
    simp only [BitVec.getLsbD_eq_getElem hj] at hBit
    cases w.getLsbD i <;> simp [hOther, hSame, hBit, hj]

section Agree

variable [DecidableEq α]

/-- The table says what `f` says, for every way to fix the given bits of a pattern. Rows that no word
of the pattern matches are left out on the way. -/
def agrees (f : BitVec n → α) (default : α) : List (BitPat n × α) → List Nat → BitPat n → Bool
  | table, [], p => decide (firstCovering default table p = some (f p.value))
  | table, i :: rest, p =>
    agrees f default (rowsFor table p) rest (p.fix i false) && agrees f default (rowsFor table p) rest (p.fix i true)

/-- The bits that a pattern fixes, and the given ones. -/
def maskWith (p : BitPat n) (bits : List Nat) : BitVec n := bits.foldl (fun mask i => mask ||| BitVec.twoPow n i) p.mask

/-- A table that agrees with a function for every way to fix the bits that the function reads agrees
with it on all words of the pattern. -/
theorem lookup_eq_of_agrees {f : BitVec n → α} {default : α} {table : List (BitPat n × α)} {bits : List Nat} {p : BitPat n}
    (hAgrees : agrees f default table bits p = true) (hBits : ∀ i ∈ bits, i < n)
    (hReads : ∀ w, f (w &&& p.maskWith bits) = f w) {w : BitVec n} (h : p.Matches w) : lookup default table w = f w := by
  induction bits generalizing p table with
  | nil =>
    rw [lookup_of_firstCovering h (of_decide_eq_true hAgrees), ← hReads w]
    exact congrArg f h.symm
  | cons i rest ih =>
    rw [agrees, Bool.and_eq_true] at hAgrees
    have hi := hBits i List.mem_cons_self
    have hFixed := h.fix hi
    have hRest : ∀ j ∈ rest, j < n := fun j hj => hBits j (List.mem_cons_of_mem i hj)
    rw [← lookup_rowsFor h]
    cases hw : w.getLsbD i with
    | false =>
      rw [hw] at hFixed
      exact ih hAgrees.1 hRest hReads hFixed
    | true =>
      rw [hw] at hFixed
      exact ih hAgrees.2 hRest hReads hFixed

end Agree

end BitPat

end KnockoutKraken.Library

import KnockoutKraken.Arm.LoadStore
import KnockoutKraken.Armflex.CommitSequence
import KnockoutKraken.Armflex.LoadStore

/-!
# What the memory unit packs

The instruction that commits after a load or store, as a function of the
words that memory holds at its addresses. The commit unit cuts all of its
results to 32 bits or none: the loaded value and the base alike.
-/

namespace KnockoutKraken.Armflex

open Arm

universe u

namespace MInst

variable {thidW : Nat} (inst : MInst thidW)

/-- What the memory unit packs when the words at the addresses have been read. -/
def packed (memData : Fin 2 → Word) : CommitInst thidW where
  tag := inst.tag
  rd k :=
    if k = 0 then inst.rd
    else if k = 1 then if inst.isLoad then some (inst.req 0).reg else none
    else if inst.isLoad && inst.isPair then some (inst.req 1).reg else none
  res k :=
    if k = 0 then inst.rdRes
    else if k = 1 then MemPending.signExtendData (memData 0) inst.size inst.isSigned
    else MemPending.signExtendData (memData 1) inst.size inst.isSigned
  nzcv := none
  brTaken := none
  exceptions := false
  undef := false
  is32bit := inst.is32bit

/-- The commit unit cuts every result of an instruction of 32 bits. -/
def narrowed (value : Word) : Word := if inst.is32bit then (value.setWidth 32).setWidth 64 else value

def loaded (raw : Word) : Word := inst.narrowed (MemPending.signExtendData raw inst.size inst.isSigned)

/-- The instruction in the memory unit does an access, when memory holds the given words. -/
structure Performs (reg : BitVec 5 → Word) (a : Access) (raw : Fin 2 → Word) : Prop where
  isLoad : inst.isLoad = a.load
  isPair : inst.isPair = a.pair
  size : inst.size = a.size
  addr : ∀ k, a.Used k → (inst.req k).addr = a.addressOf k
  stored : a.load = false → ∀ k, a.Used k → (inst.req k).data.setWidth a.bits = (X 64 reg (a.register k)).setWidth a.bits
  written : ((inst.packed raw).writes.map fun wr => (wr.addr, wr.data)) = a.writes raw

end MInst

def ThreadState.accessed (s : ThreadState) (a : Access) (raw : Fin 2 → Word) : ThreadState where
  reg := (a.writes raw).foldl (fun reg written => Function.update reg written.1 written.2) s.reg
  pregs := ⟨s.pregs.pc + 4, s.pregs.nzcv⟩

section Extension

variable {n : Nat} (data : BitVec n)

def cut (value : Word) : Word := (value.setWidth 32).setWidth 64

theorem getLsbD_cut (value : Word) (i : Nat) : (cut value).getLsbD i = (decide (i < 32) && value.getLsbD i) := by
  rw [cut, BitVec.getLsbD_setWidth, BitVec.getLsbD_setWidth]
  rcases Nat.lt_or_ge i 32 with h | h
  · simp [h, show i < 64 by omega]
  · simp [Nat.not_lt.mpr h]

theorem cut_eq_iff (value : Word) : cut value = value ↔ value.extractLsb' 32 32 = 0 := by
  constructor
  · intro h
    apply BitVec.eq_of_getLsbD_eq
    intro i hi
    rw [BitVec.getLsbD_extractLsb', ← h, getLsbD_cut]
    simp
  · intro h
    apply BitVec.eq_of_getLsbD_eq
    intro i hi
    rw [getLsbD_cut]
    rcases Nat.lt_or_ge i 32 with hLow | hHigh
    · simp [hLow]
    · have hBit : (value.extractLsb' 32 32).getLsbD (i - 32) = false := by rw [h]; exact BitVec.getLsbD_zero
      rw [BitVec.getLsbD_extractLsb', Nat.add_sub_cancel' hHigh, decide_eq_true (show i - 32 < 32 by omega), Bool.true_and] at hBit
      rw [hBit, Bool.and_false]

theorem cut_signExtend : cut (data.signExtend 64) = (data.signExtend 32).setWidth 64 := by
  have hLow : (data.signExtend 64).setWidth 32 = data.signExtend 32 := by
    apply BitVec.eq_of_getLsbD_eq
    intro i hi
    rw [BitVec.getLsbD_setWidth, BitVec.getLsbD_signExtend, BitVec.getLsbD_signExtend]
    simp [hi, show i < 64 by omega]
  rw [cut, hLow]

variable (h : n ≤ 32)
include h

theorem setWidth_of_narrow : (data.setWidth 32).setWidth 64 = data.setWidth 64 :=
  BitVec.setWidth_setWidth fun hWide => absurd hWide.1 (Nat.not_lt.mpr h)

theorem cut_setWidth : cut (data.setWidth 64) = data.setWidth 64 := by
  rw [cut_eq_iff]
  apply BitVec.eq_of_getLsbD_eq
  intro i hi
  rw [BitVec.getLsbD_extractLsb', BitVec.getLsbD_setWidth, BitVec.getLsbD_of_ge data (32 + i) (by omega)]
  simp

theorem cut_signExtend_iff : cut (data.signExtend 64) = data.signExtend 64 ↔ data.msb = false := by
  have hBit (i : Nat) : ((data.signExtend 64).extractLsb' 32 32).getLsbD i = (decide (i < 32) && data.msb) := by
    rw [BitVec.getLsbD_extractLsb', BitVec.getLsbD_signExtend, if_neg (by omega)]
    rcases Nat.lt_or_ge i 32 with hLow | hHigh
    · simp [hLow, show 32 + i < 64 by omega]
    · simp [Nat.not_lt.mpr hHigh]
  rw [cut_eq_iff]
  constructor
  · intro hZero
    have hFirst := hBit 0
    rw [hZero] at hFirst
    exact hFirst.symm
  · intro hMsb
    apply BitVec.eq_of_getLsbD_eq
    intro i hi
    rw [hBit, hMsb, Bool.and_false]
    exact BitVec.getLsbD_zero.symm

end Extension

section Packed

variable {thidW : Nat} {inst : MInst thidW} {a : Access} {raw : Fin 2 → Word} {reg : BitVec 5 → Word}

theorem packed_writes (raw : Fin 2 → Word) : ((inst.packed raw).writes.map fun wr => (wr.addr, wr.data)) =
    (inst.rd.map fun r => (r, inst.narrowed inst.rdRes)).toList ++
      (if inst.isLoad then [((inst.req 0).reg, inst.loaded (raw 0))] else []) ++
      if inst.isLoad && inst.isPair then [((inst.req 1).reg, inst.loaded (raw 1))] else [] := by
  cases hRd : inst.rd <;> cases hLoad : inst.isLoad <;> cases hPair : inst.isPair <;>
    simp [CommitInst.writes, CommitInst.write, CommitInst.data, MInst.packed, MInst.loaded, MInst.narrowed, hRd, hLoad, hPair]

theorem MInst.Performs.commit {s : ThreadState} (h : inst.Performs s.reg a raw) : s.commit (inst.packed raw) = s.accessed a raw := by
  have hFold (writes : List (RFileWrite thidW)) (s : ThreadState) : (writes.foldl ThreadState.write s).reg =
      (writes.map fun wr => (wr.addr, wr.data)).foldl (fun reg written => Function.update reg written.1 written.2) s.reg := by
    induction writes generalizing s with
    | nil => rfl
    | cons wr writes ih => exact ih (s.write wr)
  refine ThreadState.ext ?_ rfl
  rw [ThreadState.commit, hFold, h.written]
  rfl

/-- What is left to say about an instruction with the right addresses. -/
structure Writes (inst : MInst thidW) (a : Access) (raw : Fin 2 → Word) : Prop where
  base : ∀ written ∈ a.writeback, inst.narrowed written.2 = written.2
  loaded : a.load = true → ∀ k, a.Used k → (inst.req k).reg = a.register k ∧ inst.loaded (raw k) = a.value (raw k)

theorem written_iff (hLoad : inst.isLoad = a.load) (hPair : inst.isPair = a.pair)
    (hBase : (inst.rd.map fun r => (r, inst.rdRes)) = a.writeback) :
    ((inst.packed raw).writes.map fun wr => (wr.addr, wr.data)) = a.writes raw ↔ Writes inst a raw := by
  have hFields : Writes inst a raw ↔ (∀ written ∈ a.writeback, inst.narrowed written.2 = written.2) ∧
      (a.load = true → ∀ k, a.Used k → (inst.req k).reg = a.register k ∧ inst.loaded (raw k) = a.value (raw k)) :=
    ⟨fun h => ⟨h.base, h.loaded⟩, fun h => ⟨h.1, h.2⟩⟩
  rw [packed_writes, Access.writes, hFields, hLoad, hPair, ← hBase]
  cases inst.rd <;> cases hl : a.load <;> cases hp : a.pair <;>
    simp [Access.Used, hp, Fin.forall_fin_two, and_assoc]

/-- A loaded word is right unless its sign is cut off. -/
theorem loaded_iff (hSize : inst.size = a.size) (hSigned : inst.isSigned = a.signed) (hNarrow : inst.is32bit = true → a.bits ≤ 32)
    (hShort : a.wide = false → inst.is32bit = true) (raw : Word) :
    inst.loaded raw = a.value raw ↔ (a.signed = true → a.wide = true → inst.is32bit = true → raw.getLsbD (a.bits - 1) = false) := by
  have hMsb : (raw.setWidth a.bits).msb = raw.getLsbD (a.bits - 1) := by
    have hPos : 0 < a.bits := Nat.mul_pos (by decide) (Nat.two_pow_pos _)
    rw [BitVec.msb_eq_getLsbD_last, BitVec.getLsbD_setWidth, decide_eq_true (Nat.sub_lt hPos Nat.one_pos), Bool.true_and]
  have hLoaded : inst.loaded raw = inst.narrowed
      (if a.signed then (raw.setWidth a.bits).signExtend 64 else (raw.setWidth a.bits).setWidth 64) := by
    rw [MInst.loaded, MemPending.signExtendData, hSize, hSigned]
    rfl
  rw [hLoaded, Access.value, MInst.narrowed, ← hMsb]
  cases h32 : inst.is32bit with
  | false =>
    have hWide : a.wide = true := by
      cases hWide : a.wide with
      | true => rfl
      | false => rw [hShort hWide] at h32; cases h32
    simp [hWide]
  | true =>
    have hBits := hNarrow h32
    have hCut (value : Word) : (value.setWidth 32).setWidth 64 = cut value := rfl
    cases a.signed <;> cases a.wide
    · simp only [Bool.false_eq_true, if_false, if_true, false_implies, iff_true]
      rw [hCut, cut_setWidth _ hBits, setWidth_of_narrow _ hBits]
    · simp only [Bool.false_eq_true, if_false, if_true, false_implies, iff_true]
      rw [hCut, cut_setWidth _ hBits]
    · simp only [Bool.false_eq_true, if_false, if_true, false_implies, implies_true, iff_true]
      rw [hCut, cut_signExtend]
    · simp only [if_true, hCut, cut_signExtend_iff _ hBits, forall_const]

end Packed

end KnockoutKraken.Armflex

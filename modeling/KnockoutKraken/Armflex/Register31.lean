import KnockoutKraken.Arm.RegisterFields
import KnockoutKraken.Armflex.LoadStoreConformance

/-!
# Register 31

The three units decide on their own, by the type of the instruction and not
for every operand, whether register 31 is zero or the stack pointer; the
commit writes it like any other register.
-/

namespace KnockoutKraken.Armflex

open Arm

namespace DInst

variable (dinst : DInst)

def operandValues (rVal : Fin 3 → Word) : List Word :=
  match dinst.itype with
  | .LogSR | .CCReg | .CSel | .ASSR => [ExecuteUnit.rVal1 dinst rVal, ExecuteUnit.rVal2 dinst rVal]
  | .DP2S | .ASER => [ExecuteUnit.rVal1 dinst rVal, rVal 1]
  | .LogI | .CCImm | .DP1S | .ASImm => [ExecuteUnit.rVal1 dinst rVal]
  | .BitF =>
    if dinst.op = OP_BFM then [ExecuteUnit.rVal1 dinst rVal, ExecuteUnit.rVal2 dinst rVal] else [ExecuteUnit.rVal1 dinst rVal]
  | .MovI => if dinst.op = OP_MOVK then [ExecuteUnit.rVal2 dinst rVal] else []
  | .CBImm | .TBImm | .BReg => [rVal 1]
  | .LSUImm | .LSUReg | .LSRegPo | .LSRegPr =>
    LDSTUnit.baseAddress rVal ::
      if LDSTUnit.isLoad dinst then [] else [((LDSTUnit.minst dinst rVal (0 : BitVec 0)).req 0).data]
  | .LSReg =>
    LDSTUnit.baseAddress rVal :: LDSTUnit.rVal2 dinst rVal ::
      if LDSTUnit.isLoad dinst then [] else [((LDSTUnit.minst dinst rVal (0 : BitVec 0)).req 0).data]
  | .LSPair | .LSPairPo | .LSPairPr =>
    LDSTUnit.baseAddress rVal ::
      if LDSTUnit.isLoad dinst then []
      else [((LDSTUnit.minst dinst rVal (0 : BitVec 0)).req 0).data, ((LDSTUnit.minst dinst rVal (0 : BitVec 0)).req 1).data]
  | _ => []

def written (ops : Operands) : Fin 3 → Option (BitVec 5) :=
  if LDSTUnit.valid dinst then ((LDSTUnit.minst dinst ops.rVal (0 : BitVec 0)).packed fun _ => 0).rd
  else (dinst.commitNext ops (0 : BitVec 0)).rd

end DInst

/-- A field of 31 is what the architecture says, wherever it is read or written. -/
structure Disciplined (w : BitVec 32) : Prop where
  read : ∀ s : ThreadState, List.Forall₂ (fun f v => f.register = 31 → v = f.value s.reg)
    (sources w (DInst.decode w).itype) ((DInst.decode w).operandValues ((DInst.decode w).readPorts s.reg))
  written : ∀ (s : ThreadState) (k : Fin 3), ∀ f ∈ destinations w (DInst.decode w).itype k, f.register = 31 →
    (DInst.decode w).written (s.operands (.decode w)) k = f.target
  kept : ∀ (s : ThreadState) (k : Fin 3), (DInst.decode w).written (s.operands (.decode w)) k = some 31 →
    ∃ f ∈ destinations w (DInst.decode w).itype k, f.register = 31 ∧ f.stack = true

/-- The words with a field of 31 that the units read otherwise. -/
def Misread (w : BitVec 32) : IType → Prop
  | .DP2S | .ASER => Rm w = 31
  | .CBImm | .TBImm => Rt w = 31
  | .BReg => Rn w = 31
  | .LSUReg | .LSRegPo | .LSRegPr => loads w = false ∧ Rt w = 31
  | .LSReg => loads w = false ∧ Rt w = 31 ∧ Rm w ≠ 31
  | .LSPair | .LSPairPo | .LSPairPr => loadsPair w = false ∧ Rt w = 31 ∧ w.extractLsb' 15 5 ≠ 31
  | _ => False

/-- The words whose destination 31 is written, or is to be written and is not. -/
def Miswritten (w : BitVec 32) : IType → Prop
  | .CSel | .MovI | .BitF | .DP1S | .DP2S | .PCRel => Rd w = 31
  | .ASSR => S w = false ∧ Rd w = 31
  | .LogI => opc w ≠ 3 ∧ Rd w = 31
  | .LSUImm | .LSUReg | .LSRegPo | .LSRegPr => loads w = true ∧ Rt w = 31
  | .LSReg => loads w = true ∧ (Rt w = 31 ∨ Rm w = 31)
  | .LSPair | .LSPairPo | .LSPairPr => loadsPair w = true ∧ (Rt w = 31 ∨ Rt2 w = 31)
  | _ => False

section Reads

variable {w : BitVec 32} {sig : ControlSignals} {c : IType}

theorem sp_value (r : BitVec 5) (reg : BitVec 5 → Word) : (sp r).value reg = reg r := by
  rw [Field.value, sp]
  rcases eq_or_ne r 31 with rfl | hr
  · rfl
  · rw [if_neg hr]

theorem zr_value_of_eq {r : BitVec 5} (h : r = 31) (reg : BitVec 5 → Word) : (zr r).value reg = 0 := by
  rw [Field.value, zr, if_pos h]
  rfl

/-- The values that are taken for the fields of 31 are right. -/
def Reads (w : BitVec 32) (sig : ControlSignals) (c : IType) (s : ThreadState) : Prop :=
  List.Forall₂ (fun f v => f.register = 31 → v = f.value s.reg) (sources w c)
    ((DInst.ofSignals w sig).operandValues ((DInst.ofSignals w sig).readPorts s.reg))

def ones : ThreadState := ⟨fun _ => 1, ⟨0, 0⟩⟩

theorem reads_of_guarded (hc : c ∈ [IType.LogSR, .CCReg, .CSel, .ASSR, .LogI, .CCImm, .DP1S, .ASImm, .PCRel, .BImm, .BCImm, .HINT])
    (hType : sig.itype = c) (s : ThreadState) : Reads w sig c s := by
  obtain ⟨itype, op, rdEn, shiftEn, condEn, nzcvEn, is32bit⟩ := sig
  obtain rfl : c = itype := hType.symm
  cases c <;> first
    | exact absurd hc (by decide)
    | exact .nil
    | exact .cons (fun _ => rfl) .nil
    | exact .cons (fun _ => rfl) (.cons (fun _ => rfl) .nil)
    | exact .cons (fun _ => (ite_self _).trans (sp_value _ _).symm) .nil

theorem reads_raw (hc : c ∈ [IType.DP2S, .ASER, .CBImm, .TBImm, .BReg]) (hType : sig.itype = c) :
    (∀ s, Reads w sig c s) ↔ ¬ Misread w c := by
  obtain ⟨itype, op, rdEn, shiftEn, condEn, nzcvEn, is32bit⟩ := sig
  obtain rfl : c = itype := hType.symm
  have hZero (r : BitVec 5) (h : r = 31) : (1 : Word) ≠ (zr r).value fun _ => 1 := by
    rw [zr_value_of_eq h]
    decide
  constructor
  · intro hReads hMisread
    have hOnes := hReads ones
    cases c <;> first
      | exact absurd hc (by decide)
      | (obtain _ | ⟨hRead, -⟩ := hOnes
         exact hZero _ hMisread (hRead hMisread))
      | (obtain _ | ⟨-, _ | ⟨hRead, -⟩⟩ := hOnes
         exact hZero _ hMisread (hRead hMisread))
  · intro hNot s
    cases c <;> first
      | exact absurd hc (by decide)
      | exact .cons (fun h => absurd h hNot) .nil
      | exact .cons (fun _ => rfl) (.cons (fun h => absurd h hNot) .nil)
      | exact .cons (fun _ => (ite_self _).trans (sp_value _ _).symm) (.cons (fun h => absurd h hNot) .nil)

theorem reads_bitfield (hSignals : signals w .BitF = some sig) (s : ThreadState) : Reads w sig .BitF s := by
  have hOp : sig = ⟨.BitF, (opc w).setWidth 4, true, true, false, false, !sf w⟩ := by
    obtain ⟨-, hSig⟩ := Option.ite_none_left_eq_some.mp hSignals
    exact (Option.some.inj hSig).symm
  subst hOp
  have hBFM : ((opc w).setWidth 4 = OP_BFM) = (opc w = 1) :=
    (by decide : ∀ opc : BitVec 2, (opc.setWidth 4 = OP_BFM) = (opc = 1)) (opc w)
  unfold Reads
  simp only [sources, DInst.operandValues, DInst.ofSignals, hBFM]
  split
  · exact .cons (fun _ => rfl) (.cons (fun _ => rfl) .nil)
  · exact .cons (fun _ => rfl) .nil

theorem reads_move (hSignals : signals w .MovI = some sig) (s : ThreadState) : Reads w sig .MovI s := by
  unfold Reads
  simp only [signals] at hSignals
  split at hSignals
  · cases hSignals
  · split at hSignals
    all_goals first | (cases hSignals; done) | (rename_i hOp; cases hSignals; simp only [sources, hOp])
    · exact .nil
    · exact .nil
    · exact .cons (fun _ => rfl) .nil

theorem data_guarded (hc : c ∈ singles) (operation : Op) (is32bit : Bool) (reg : BitVec 5 → Word) :
    let dinst := accessDInst w c operation is32bit
    ((LDSTUnit.minst dinst (dinst.readPorts reg) (0 : BitVec 0)).req 0).data = (zr (dataRegister w c)).value reg := by
  cases c <;> first | exact absurd hc (by decide) | rfl

theorem guarded_iff (r named : BitVec 5) :
    (∀ s : ThreadState, r = 31 → (zr named).value s.reg = (zr r).value s.reg) ↔ (r = 31 → named = 31) := by
  constructor
  · intro h hr
    have hOnes := h ones hr
    rw [zr_value_of_eq hr] at hOnes
    by_contra hNamed
    have hOne : (zr named).value ones.reg = 1 := if_neg hNamed
    exact absurd (hOne.symm.trans hOnes) (by decide)
  · intro h s hr
    rw [zr_value_of_eq hr, zr_value_of_eq (h hr)]

/-- The base of an access is the stack pointer at 31, and a stored register is the one that the unit sends. -/
theorem reads_single (hc : c ∈ singles) (hSignals : signals w c = some sig) : (∀ s, Reads w sig c s) ↔ ¬ Misread w c := by
  obtain ⟨hAllocated, is32bit, hDInst⟩ := signals_single hc hSignals
  have hLoad : LDSTUnit.isLoad (DInst.ofSignals w sig) = loads w := by
    rw [hDInst]
    exact (accessOp_fields _ _ hAllocated).2.1
  have hList (s : ThreadState) : Reads w sig c s ↔
      (loads w = false → Rt w = 31 → (zr (dataRegister w c)).value s.reg = (zr (Rt w)).value s.reg) := by
    have hData := data_guarded (w := w) hc (accessOp (size w) (accessType w)) is32bit s.reg
    have hBase : Rn w = 31 → s.reg (Rn w) = (sp (Rn w)).value s.reg := fun _ => (sp_value _ _).symm
    have hStored (v : Word) : List.Forall₂ (fun f v => f.register = 31 → v = f.value s.reg) (if loads w then [] else [zr (Rt w)])
        (if loads w then [] else [v]) ↔ (loads w = false → Rt w = 31 → v = (zr (Rt w)).value s.reg) := by
      cases loads w <;> simp [zr]
    rw [hDInst] at hLoad
    rw [Reads, hDInst, ← hStored]
    cases c <;> first
      | exact absurd hc (by decide)
      | (simp only [sources, DInst.operandValues, accessDInst, DInst.ofSignals] at hLoad hData ⊢
         rw [hLoad, hData, List.forall₂_cons]
         first
           | exact and_iff_right hBase
           | (rw [List.forall₂_cons]
              exact (and_iff_right hBase).trans (and_iff_right fun _ => rfl)))
  have hAll : (∀ s, Reads w sig c s) ↔ (loads w = false → Rt w = 31 → dataRegister w c = 31) := by
    rw [forall_congr' hList, forall_comm]
    exact imp_congr_right fun _ => guarded_iff _ _
  rw [hAll]
  cases c <;> first
    | exact absurd hc (by decide)
    | (simp only [Misread, dataRegister]
       grind)

/-- The first register of a pair is taken for zero by a look at the offset. -/
theorem data_unguarded (hc : c ∈ pairs) (operation : Op) (is32bit : Bool) (reg : BitVec 5 → Word) :
    let dinst := accessDInst w c operation is32bit
    let inst := LDSTUnit.minst dinst (dinst.readPorts reg) (0 : BitVec 0)
    ((inst.req 0).data = if w.extractLsb' 15 5 = 31 then 0 else reg (Rt w)) ∧ (inst.req 1).data = (zr (Rt2 w)).value reg := by
  have hImm : ((w.extractLsb' 15 7).setWidth 26).setWidth 5 = w.extractLsb' 15 5 := setWidth_field w 15 (by decide) (by decide)
  rw [← hImm]
  cases c <;> first | exact absurd hc (by decide) | exact ⟨rfl, rfl⟩

theorem reads_pair (hc : c ∈ pairs) (hSignals : signals w c = some sig) : (∀ s, Reads w sig c s) ↔ ¬ Misread w c := by
  obtain ⟨operation, is32bit, hDInst, hLoadBit, -⟩ := signals_pair hc hSignals
  have hLoad : LDSTUnit.isLoad (accessDInst w c operation is32bit) = loadsPair w := hLoadBit
  have hList (s : ThreadState) : Reads w sig c s ↔
      (loadsPair w = false → Rt w = 31 → (if w.extractLsb' 15 5 = 31 then 0 else s.reg (Rt w)) = (zr (Rt w)).value s.reg) := by
    obtain ⟨hFirst, hSecond⟩ := data_unguarded (w := w) hc operation is32bit s.reg
    have hBase : Rn w = 31 → s.reg (Rn w) = (sp (Rn w)).value s.reg := fun _ => (sp_value _ _).symm
    have hStored (v : Word) : List.Forall₂ (fun f v => f.register = 31 → v = f.value s.reg)
        (if loadsPair w then [] else [zr (Rt w), zr (Rt2 w)]) (if loadsPair w then [] else [v, (zr (Rt2 w)).value s.reg]) ↔
          (loadsPair w = false → Rt w = 31 → v = (zr (Rt w)).value s.reg) := by
      cases loadsPair w <;> simp [zr]
    rw [Reads, hDInst, ← hStored]
    cases c <;> first
      | exact absurd hc (by decide)
      | (simp only [sources, DInst.operandValues, accessDInst, DInst.ofSignals] at hLoad hFirst hSecond ⊢
         rw [hLoad, hFirst, hSecond, List.forall₂_cons]
         exact and_iff_right hBase)
  have hMisread : Misread w c ↔ loadsPair w = false ∧ Rt w = 31 ∧ w.extractLsb' 15 5 ≠ 31 := by
    cases c <;> first | exact absurd hc (by decide) | exact Iff.rfl
  rw [hMisread]
  constructor
  · rintro hReads ⟨hStore, hRt, hImm⟩
    have hOnes := (hList ones).mp (hReads ones) hStore hRt
    rw [zr_value_of_eq hRt, if_neg hImm] at hOnes
    exact absurd hOnes (by decide : (1 : Word) ≠ 0)
  · intro hNot s
    refine (hList s).mpr fun hStore hRt => ?_
    have hImm : w.extractLsb' 15 5 = 31 := by
      by_contra hImm
      exact hNot ⟨hStore, hRt, hImm⟩
    rw [zr_value_of_eq hRt, if_pos hImm]

/-- A word reads its fields of 31 as the architecture says but for the misread ones. -/
theorem reads_iff (hSignals : signals w c = some sig) : (∀ s, Reads w sig c s) ↔ ¬ Misread w c := by
  have hType := itype_of_signals hSignals
  have hGuarded (hc : c ∈ [IType.LogSR, .CCReg, .CSel, .ASSR, .LogI, .CCImm, .DP1S, .ASImm, .PCRel, .BImm, .BCImm, .HINT]) :
      (∀ s, Reads w sig c s) ↔ ¬ False := ⟨fun _ => not_false, fun _ => reads_of_guarded hc hType⟩
  cases c
  case X | DP3S => cases hSignals
  case BitF => exact ⟨fun _ => not_false, fun _ => reads_bitfield hSignals⟩
  case MovI => exact ⟨fun _ => not_false, fun _ => reads_move hSignals⟩
  case DP2S | ASER | CBImm | TBImm | BReg => exact reads_raw (by decide) hType
  case LSUImm | LSUReg | LSRegPo | LSRegPr | LSReg => exact reads_single (by decide) hSignals
  case LSPair | LSPairPo | LSPairPr => exact reads_pair (by decide) hSignals
  all_goals exact hGuarded (by decide)

end Reads

end KnockoutKraken.Armflex

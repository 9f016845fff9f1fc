import KnockoutKraken.Armflex.Acceptance
import KnockoutKraken.Armflex.AddSub
import KnockoutKraken.Armflex.MemoryPacking

/-!
# The load/store unit on an instruction word

A load or store from the decoder through the load/store unit to what is
packed for it. The classes with one register share what the unit takes for
it, which is the register named in one class only; the pairs name both.
-/

namespace KnockoutKraken.Armflex

open Arm

section Words

variable {thidW : Nat} {w : BitVec 32} {sig : ControlSignals} {c : IType} {operation : Op} {is32bit : Bool} {reg : BitVec 5 → Word}

def singles : List IType := [.LSUImm, .LSReg, .LSUReg, .LSRegPo, .LSRegPr]

def pairs : List IType := [.LSPair, .LSPairPo, .LSPairPr]

def accessDInst (w : BitVec 32) (c : IType) (operation : Op) (is32bit : Bool) : DInst :=
  DInst.ofSignals w ⟨c, operation, true, false, false, false, is32bit⟩

theorem signals_single (hc : c ∈ singles) (h : signals w c = some sig) : accessAllocated (size w) (accessType w) = true ∧
    ∃ is32bit, DInst.ofSignals w sig = accessDInst w c (accessOp (size w) (accessType w)) is32bit := by
  have hSingle : ∃ narrow32, accessSignals c narrow32 w = some sig := by
    cases c <;> first
      | exact absurd hc (by decide)
      | exact ⟨_, h⟩
      | exact ⟨_, (Option.ite_none_left_eq_some.mp h).2⟩
  obtain ⟨narrow32, hSingle⟩ := hSingle
  obtain ⟨hAllocated, hSig⟩ := Option.ite_none_right_eq_some.mp hSingle
  cases hSig
  exact ⟨hAllocated, _, rfl⟩

theorem accessOp_fields : ∀ size type, accessAllocated size type = true →
    (accessOp size type).setWidth 2 = size ∧ (accessOp size type).getLsbD 2 = (type != 0) ∧
      (accessOp size type).getLsbD 3 = type.getLsbD 1 ∧ (decide (accessOp size type = OP_LDRSW) = (type.getLsbD 1 && size == 2)) := by
  decide

theorem signals_pair (hc : c ∈ pairs) (h : signals w c = some sig) : ∃ operation is32bit,
    DInst.ofSignals w sig = accessDInst w c operation is32bit ∧ operation.getLsbD 2 = w.getLsbD 22 ∧
      operation.getLsbD 3 = (size w).getLsbD 0 ∧
      operation.setWidth 2 = (if (size w).getLsbD 0 then 3 else pairSize w) ∧
      ((size w).getLsbD 0 = true → (size w).getLsbD 1 = false) := by
  have hPair : signals w c = pairSignals c w := by cases c <;> first | rfl | exact absurd hc (by decide)
  rw [hPair, pairSignals] at h
  simp only [pairSize]
  generalize hL : w.getLsbD 22 = isL at h ⊢
  generalize size w = size at h ⊢
  split at h
  · cases h
    cases isL <;> exact ⟨_, _, rfl, by decide⟩
  · cases h
    cases isL <;> exact ⟨_, _, rfl, by decide⟩
  · cases h
    exact ⟨_, _, rfl, by decide⟩
  · cases h

def dataRegister (w : BitVec 32) : IType → BitVec 5
  | .LSUImm => Rt w
  | .LSReg => Rm w
  | _ => 0

theorem rs2_of_single (hc : c ∈ singles) : (accessDInst w c operation is32bit).rs2 = dataRegister w c := by
  cases c <;> first | rfl | exact absurd hc (by decide)

theorem offst_of_single (hc : c ∈ singles) (hSize : operation.setWidth 2 = size w) (hRm : c = .LSReg → Rm w ≠ 31) :
    LDSTUnit.offst (accessDInst w c operation is32bit) ((accessDInst w c operation is32bit).readPorts reg) = accessOffset reg w c := by
  cases c <;> first | exact absurd hc (by decide) | skip
  case LSUImm =>
    rw [accessOffset, ← hSize, ← setWidth_field w 10 (m := 26) (n := 12) (by decide) (by decide)]
    rfl
  case LSUReg =>
    rw [accessOffset, ← setWidth_field w 12 (m := 26) (n := 10) (by decide) (by decide)]
    · rfl
    all_goals exact fun h => by cases h
  case LSRegPo =>
    rw [accessOffset, ← setWidth_field w 12 (m := 26) (n := 9) (by decide) (by decide)]
    · rfl
    all_goals exact fun h => by cases h
  case LSRegPr =>
    rw [accessOffset, ← setWidth_field w 12 (m := 26) (n := 9) (by decide) (by decide)]
    · rfl
    all_goals exact fun h => by cases h
  case LSReg =>
    have hShift (value : Word) (option : BitVec 3) (shift : BitVec 2) :
        ExtendReg.res value option shift = Arm.extendReg (value.setWidth 64) option shift.toNat := by
      rw [← ExtendReg.shift_setWidth .x value option (Nat.lt_trans shift.isLt (by decide)), BitVec.setWidth_eq]
      simp [ExtendReg.res]
    have hOption : ((w.extractLsb' 13 3).setWidth 6).setWidth 3 = w.extractLsb' 13 3 := setWidth_field w 13 (by decide) (by decide)
    have hAmount : (if w.getLsbD 12 then (size w).toNat else 0) = (if w.getLsbD 12 then size w else 0 : BitVec 2).toNat := by
      cases w.getLsbD 12 <;> rfl
    rw [accessOffset, X_eq (hRm rfl), hAmount, ← hSize, ← hOption, ← hShift]
    exact congrArg (fun v => ExtendReg.res v _ _) (if_neg (hRm rfl))

/-- The words and the states on which a load or store does what the architecture says. -/
structure Supported (w : BitVec 32) (reg : BitVec 5 → Word) (c : IType) (a : Access) (raw : Fin 2 → Word) : Prop where
  word : a.pair = true → a.signed = false
  named : a.pair = false → a.load = true → dataRegister w c = Rt w
  stored : a.pair = false → a.load = false → (reg (dataRegister w c)).setWidth a.bits = (reg (Rt w)).setWidth a.bits
  first : a.pair = true → a.load = false → w.extractLsb' 15 5 = 31 → (reg (Rt w)).setWidth a.bits = 0
  sign : a.pair = false → a.signed = true → a.wide = true → ¬ (c = .LSUImm ∧ a.size = 2) → (raw 0).getLsbD (a.bits - 1) = false
  base : a.size ≠ 3 → ∀ written ∈ a.writeback, written.2.extractLsb' 32 32 = 0

theorem performs_iff {inst : MInst thidW} {a : Access} {raw : Fin 2 → Word} (hLoad : inst.isLoad = a.load) (hPair : inst.isPair = a.pair)
    (hSize : inst.size = a.size) (hAddr : ∀ k, a.Used k → (inst.req k).addr = a.addressOf k)
    (hBase : (inst.rd.map fun r => (r, inst.rdRes)) = a.writeback) : inst.Performs reg a raw ↔
      (a.load = false → ∀ k, a.Used k → (inst.req k).data.setWidth a.bits = (X 64 reg (a.register k)).setWidth a.bits) ∧
        Writes inst a raw := by
  rw [← written_iff hLoad hPair hBase]
  exact ⟨fun h => ⟨h.stored, h.written⟩, fun h => ⟨hLoad, hPair, hSize, hAddr, h.1, h.2⟩⟩

theorem narrowed_eq_iff {inst : MInst thidW} (value : Word) :
    inst.narrowed value = value ↔ (inst.is32bit = true → value.extractLsb' 32 32 = 0) := by
  rw [← cut_eq_iff, MInst.narrowed]
  cases inst.is32bit <;> simp [cut]

theorem X_word {r : BitVec 5} (hr : r ≠ 31) : X 64 reg r = reg r := (X_eq hr).trans (BitVec.setWidth_eq _)

section Single

theorem narrow_bits : ∀ (size : BitVec 2) (other : Bool), (size != 3 && other) = true → 8 * 2 ^ size.toNat ≤ 32 := by
  decide

theorem short_single : ∀ (size type : BitVec 2) (imm : Bool), accessAllocated size type = true →
    (if type.getLsbD 1 then !type.getLsbD 0 else size == 3) = false → (size != 3 && !(imm && (type.getLsbD 1 && size == 2))) = true := by
  decide

theorem sign_single : ∀ (size type : BitVec 2) (imm : Bool), accessAllocated size type = true → type.getLsbD 1 = true →
    ((size != 3 && !(imm && (type.getLsbD 1 && size == 2))) = true ↔ ¬ (imm = true ∧ size = 2)) := by
  decide

variable (hc : c ∈ singles) (hAllocated : accessAllocated (size w) (accessType w) = true) (hRt : Rt w ≠ 31)
  (hRm : c = .LSReg → Rm w ≠ 31)
include hc hAllocated

theorem minst_single (thidW : Nat) (is32bit : Bool) (reg : BitVec 5 → Word) :
    let dinst := accessDInst w c (accessOp (size w) (accessType w)) is32bit
    let inst := LDSTUnit.minst dinst (dinst.readPorts reg) (0 : BitVec thidW)
    let a := accessSingle reg w c (accessOffset reg w c)
    inst.isLoad = a.load ∧ inst.isPair = a.pair ∧ inst.size = a.size ∧ inst.isSigned = a.signed ∧
      inst.is32bit = (a.size != 3 && !(decide (c = .LSUImm) && (a.signed && a.size == 2))) := by
  obtain ⟨hSize, hLoad, hSigned, hLDRSW⟩ := accessOp_fields _ _ hAllocated
  have hPair : LDSTUnit.isPair (accessDInst w c (accessOp (size w) (accessType w)) is32bit) = false := by
    cases c <;> first | rfl | exact absurd hc (by decide)
  refine ⟨hLoad, hPair, hSize, hSigned, ?_⟩
  have h32 : (LDSTUnit.size (accessDInst w c (accessOp (size w) (accessType w)) is32bit) != 3) = (size w != 3) := congrArg (· != 3) hSize
  refine congrArg₂ (fun a b => a && !b) h32 (congrArg₂ (· && ·) rfl ?_)
  exact hLDRSW

omit hAllocated in
include hRm in
theorem addr_single (thidW : Nat) (is32bit : Bool) (reg : BitVec 5 → Word) (hSize : operation.setWidth 2 = size w) :
    let dinst := accessDInst w c operation is32bit
    let inst := LDSTUnit.minst dinst (dinst.readPorts reg) (0 : BitVec thidW)
    let a := accessSingle reg w c (accessOffset reg w c)
    (∀ k, a.Used k → (inst.req k).addr = a.addressOf k) ∧ (inst.rd.map fun r => (r, inst.rdRes)) = a.writeback := by
  intro dinst inst a
  have hOffst : LDSTUnit.offst dinst (dinst.readPorts reg) = accessOffset reg w c := offst_of_single hc hSize hRm
  have hBaseReg : LDSTUnit.baseAddress (dinst.readPorts reg) = XorSP 64 reg (Rn w) := by
    rw [XorSP, BitVec.setWidth_eq]
    cases c <;> first | rfl | exact absurd hc (by decide)
  have hWback : LDSTUnit.wbackAddr dinst (dinst.readPorts reg) = indexed reg w (accessOffset reg w c) := by
    rw [LDSTUnit.wbackAddr, hOffst, hBaseReg, indexed]
  refine ⟨fun k hUsed => ?_, ?_⟩
  · obtain rfl : k = 0 := hUsed.resolve_right (by exact Bool.false_ne_true)
    have hAddr : (inst.req 0).addr = LDSTUnit.ldstAddress dinst (dinst.readPorts reg) := rfl
    have hIndex : LDSTUnit.ldstAddress dinst (dinst.readPorts reg) = a.address := by
      rw [LDSTUnit.ldstAddress, hWback, hBaseReg]
      cases c <;> rfl
    rw [hAddr, hIndex, Access.addressOf, Fin.val_zero, Nat.zero_mul]
    exact (BitVec.add_zero _).symm
  · have hRes : inst.rdRes = indexed reg w (accessOffset reg w c) := hWback
    rw [hRes]
    cases c <;> rfl

omit hAllocated in
include hRt hRm in
theorem data_single (thidW : Nat) (operation : Op) (is32bit : Bool) (reg : BitVec 5 → Word) :
    let dinst := accessDInst w c operation is32bit
    let inst := LDSTUnit.minst dinst (dinst.readPorts reg) (0 : BitVec thidW)
    (inst.req 0).data = reg (dataRegister w c) ∧ (inst.req 0).reg = dataRegister w c := by
  intro dinst inst
  have hPair : LDSTUnit.isPair dinst = false := by cases c <;> first | rfl | exact absurd hc (by decide)
  have hRs2 : dinst.rs2 = dataRegister w c := rs2_of_single hc
  have hNamed : dataRegister w c ≠ 31 := by
    cases c <;> first | exact absurd hc (by decide) | exact hRt | exact hRm rfl | exact (by decide : (0 : BitVec 5) ≠ 31)
  constructor
  · change (if LDSTUnit.isPair dinst then _ else if dinst.rs2 = 31 then 0 else reg dinst.rs2) = _
    rw [hPair, hRs2, if_neg hNamed]
    rfl
  · change (if LDSTUnit.isPair dinst then _ else dinst.rs2) = _
    rw [hPair, hRs2]
    rfl

include hRt hRm in
theorem single_iff (raw : Fin 2 → Word) :
    let dinst := accessDInst w c (accessOp (size w) (accessType w)) is32bit
    let inst := LDSTUnit.minst dinst (dinst.readPorts reg) (0 : BitVec thidW)
    let a := accessSingle reg w c (accessOffset reg w c)
    inst.Performs reg a raw ↔ Supported w reg c a raw := by
  intro dinst inst a
  obtain ⟨hLoad, hPair, hSize, hSigned, h32⟩ := minst_single hc hAllocated thidW is32bit reg
  obtain ⟨hAddr, hBase⟩ := addr_single hc hRm thidW is32bit reg (accessOp_fields _ _ hAllocated).1
  obtain ⟨hData, hReg⟩ := data_single hc hRt hRm thidW (accessOp (size w) (accessType w)) is32bit reg
  have hUsed (P : Fin 2 → Prop) : (∀ k, a.Used k → P k) ↔ P 0 := by
    simp [Access.Used, show a.pair = false from rfl]
  have hNarrow : inst.is32bit = true → a.bits ≤ 32 := by
    rw [h32]
    exact narrow_bits a.size _
  have hValue := loaded_iff hSize hSigned hNarrow (by rw [h32]; exact short_single _ _ _ hAllocated) (raw 0)
  have hSign : a.signed = true → (inst.is32bit = true ↔ ¬ (c = .LSUImm ∧ a.size = 2)) := by
    have hSign := sign_single (size w) (accessType w) (decide (c = .LSUImm)) hAllocated
    rw [decide_eq_true_iff] at hSign
    rw [h32]
    exact hSign
  have hWriteback : ∀ written ∈ a.writeback, (inst.narrowed written.2 = written.2 ↔ (a.size ≠ 3 → written.2.extractLsb' 32 32 = 0)) := by
    intro written hWritten
    have hImm : decide (c = .LSUImm) = false := by
      cases c <;> first | rfl | cases hWritten
    rw [narrowed_eq_iff, h32, hImm, Bool.false_and, Bool.not_false, Bool.and_true, bne_iff_ne]
  rw [performs_iff hLoad hPair hSize hAddr hBase]
  constructor
  · rintro ⟨hStored, hWrites⟩
    have hFirst (hLoads : a.load = true) := (hUsed _).mp (hWrites.loaded hLoads)
    refine
      { word := fun hTwo => absurd hTwo Bool.false_ne_true
        named := fun _ hLoads => hReg.symm.trans (hFirst hLoads).1
        stored := fun _ hStores => ?_
        first := fun hTwo => absurd hTwo Bool.false_ne_true
        sign := fun _ hSigned hWide hOther => ?_
        base := fun hNot written hWritten => (hWriteback written hWritten).mp (hWrites.base written hWritten) hNot }
    · have hStored0 := (hUsed _).mp (hStored hStores)
      rw [hData] at hStored0
      exact hStored0.trans (congrArg (BitVec.setWidth a.bits) (X_word hRt))
    · have hLoads : a.load = true := (by decide : ∀ type : BitVec 2, type.getLsbD 1 = true → (type != 0) = true) _ hSigned
      exact hValue.mp (hFirst hLoads).2 hSigned hWide ((hSign hSigned).mpr hOther)
  · intro h
    refine ⟨fun hStores => (hUsed _).mpr ?_, fun written hWritten => (hWriteback written hWritten).mpr fun hNot => h.base hNot written hWritten,
      fun hLoads => (hUsed _).mpr ⟨hReg.trans (h.named rfl hLoads), hValue.mpr fun hSigned hWide hNarrow => ?_⟩⟩
    · rw [hData]
      exact (h.stored rfl hStores).trans (congrArg (BitVec.setWidth a.bits) (X_word hRt)).symm
    · exact h.sign rfl hSigned hWide ((hSign hSigned).mp hNarrow)

end Single

section Pair

variable (hc : c ∈ pairs)
include hc

theorem addr_pair (thidW : Nat) (is32bit : Bool) (reg : BitVec 5 → Word) (hSize : operation.setWidth 2 = pairSize w) :
    let dinst := accessDInst w c operation is32bit
    let inst := LDSTUnit.minst dinst (dinst.readPorts reg) (0 : BitVec thidW)
    let a := accessPair reg w c
    (∀ k, a.Used k → (inst.req k).addr = a.addressOf k) ∧ (inst.rd.map fun r => (r, inst.rdRes)) = a.writeback := by
  intro dinst inst a
  let offset : Word := (w.extractLsb' 15 7).signExtend 64 <<< (pairSize w).toNat
  have hOffst : LDSTUnit.offst dinst (dinst.readPorts reg) = offset := by
    have hImm : LDSTUnit.offst dinst (dinst.readPorts reg) = (dinst.imm.setWidth 7).signExtend 64 <<< (operation.setWidth 2).toNat := by
      cases c <;> first | rfl | exact absurd hc (by decide)
    have hField : dinst.imm.setWidth 7 = w.extractLsb' 15 7 := by
      have hImm : dinst.imm = (w.extractLsb' 15 7).setWidth 26 := by cases c <;> first | rfl | exact absurd hc (by decide)
      rw [hImm, setWidth_field w 15 (by decide) (by decide)]
    rw [hImm, hField, hSize]
  have hBaseReg : LDSTUnit.baseAddress (dinst.readPorts reg) = XorSP 64 reg (Rn w) := by
    rw [XorSP, BitVec.setWidth_eq]
    cases c <;> first | rfl | exact absurd hc (by decide)
  have hWback : LDSTUnit.wbackAddr dinst (dinst.readPorts reg) = indexed reg w offset := by
    rw [LDSTUnit.wbackAddr, hOffst, hBaseReg, indexed]
  have hIndex : LDSTUnit.ldstAddress dinst (dinst.readPorts reg) = a.address := by
    rw [LDSTUnit.ldstAddress, hWback, hBaseReg]
    cases c <;> rfl
  refine ⟨fun k _ => ?_, ?_⟩
  · revert k
    refine Fin.forall_fin_two.mpr ⟨fun _ => ?_, fun _ => ?_⟩
    · have hAddr : (inst.req 0).addr = LDSTUnit.ldstAddress dinst (dinst.readPorts reg) := rfl
      rw [hAddr, hIndex, Access.addressOf, Fin.val_zero, Nat.zero_mul]
      exact (BitVec.add_zero _).symm
    · have hAddr : (inst.req 1).addr =
          LDSTUnit.ldstAddress dinst (dinst.readPorts reg) + BitVec.ofNat 64 (2 ^ (operation.setWidth 2).toNat) := rfl
      rw [hAddr, hIndex, hSize, Access.addressOf, Fin.val_one, Nat.one_mul]
      rfl
  · have hRes : inst.rdRes = indexed reg w offset := hWback
    rw [hRes]
    cases c <;> rfl

/-- The registers that are loaded or stored, the first of them with the test for zero that looks at the offset. -/
theorem data_pair (thidW : Nat) (operation : Op) (is32bit : Bool) (reg : BitVec 5 → Word) (hRt2 : Rt2 w ≠ 31) :
    let dinst := accessDInst w c operation is32bit
    let inst := LDSTUnit.minst dinst (dinst.readPorts reg) (0 : BitVec thidW)
    inst.isPair = true ∧ inst.is32bit = (operation.setWidth 2 != 3) ∧
      ((inst.req 0).data = if w.extractLsb' 15 5 = 31 then 0 else reg (Rt w)) ∧ (inst.req 1).data = reg (Rt2 w) ∧
      (inst.req 0).reg = Rt w ∧ (inst.req 1).reg = Rt2 w := by
  intro dinst inst
  have hPair : LDSTUnit.isPair dinst = true := by cases c <;> first | rfl | exact absurd hc (by decide)
  have hNot : (dinst.itype == .LSUImm) = false := by cases c <;> first | rfl | exact absurd hc (by decide)
  have hRd : dinst.rd.bits = Rt w := by cases c <;> first | rfl | exact absurd hc (by decide)
  have hRs2 : dinst.rs2 = Rt2 w := by cases c <;> first | rfl | exact absurd hc (by decide)
  have hField : dinst.imm.setWidth 5 = w.extractLsb' 15 5 := by
    have hImm : dinst.imm = (w.extractLsb' 15 7).setWidth 26 := by cases c <;> first | rfl | exact absurd hc (by decide)
    rw [hImm, setWidth_field w 15 (by decide) (by decide)]
  refine ⟨hPair, ?_, ?_, ?_, ?_, hRs2⟩
  · change (LDSTUnit.size dinst != 3 && !(dinst.itype == .LSUImm && dinst.op == OP_LDRSW)) = _
    rw [hNot, Bool.false_and, Bool.not_false, Bool.and_true]
    rfl
  · change (if LDSTUnit.isPair dinst then (if dinst.imm.setWidth 5 = 31 then 0 else reg dinst.rd.bits) else _) = _
    rw [if_pos hPair, hField, hRd]
  · change (if dinst.rs2 = 31 then 0 else reg dinst.rs2) = _
    rw [hRs2, if_neg hRt2]
  · change (if LDSTUnit.isPair dinst then dinst.rd.bits else _) = _
    rw [if_pos hPair, hRd]

theorem pair_iff (hLoadBit : operation.getLsbD 2 = w.getLsbD 22) (hSignBit : operation.getLsbD 3 = (size w).getLsbD 0)
    (hSizeBits : operation.setWidth 2 = if (size w).getLsbD 0 then 3 else pairSize w)
    (hWord : (size w).getLsbD 0 = true → (size w).getLsbD 1 = false) (hRt : Rt w ≠ 31) (hRt2 : Rt2 w ≠ 31) (raw : Fin 2 → Word) :
    let dinst := accessDInst w c operation is32bit
    let inst := LDSTUnit.minst dinst (dinst.readPorts reg) (0 : BitVec thidW)
    let a := accessPair reg w c
    inst.Performs reg a raw ↔ Supported w reg c a raw := by
  intro dinst inst a
  obtain ⟨hPair, hNarrowed, hFirst, hSecond, hReg⟩ :=
    data_pair hc thidW operation is32bit reg hRt2
  cases hSigned : (size w).getLsbD 0 with
  | true =>
    rw [hSigned, if_pos rfl] at hSizeBits
    have hThree : inst.size = 3 := hSizeBits
    have hTwo : a.size = 2 := by
      change (if (size w).getLsbD 1 then 3 else 2 : BitVec 2) = 2
      rw [hWord hSigned]
      rfl
    refine ⟨fun h => absurd (hThree.symm.trans (h.size.trans hTwo)) (by decide), fun h => ?_⟩
    exact absurd (hSigned.symm.trans (h.word rfl)) (by decide)
  | false =>
    rw [hSigned, if_neg Bool.false_ne_true] at hSizeBits
    obtain ⟨hAddr, hBase⟩ := addr_pair hc thidW is32bit reg hSizeBits
    have hSize : inst.size = a.size := hSizeBits
    have h32 : inst.is32bit = (a.size != 3) := hNarrowed.trans (congrArg (· != 3) hSizeBits)
    have hUsed (P : Fin 2 → Prop) : (∀ k, a.Used k → P k) ↔ P 0 ∧ P 1 := by
      simp [Access.Used, show a.pair = true from rfl, Fin.forall_fin_two]
    have hNarrow : inst.is32bit = true → a.bits ≤ 32 := fun h => narrow_bits a.size true (by rw [Bool.and_true, ← h32, h])
    have hShort : a.wide = false → inst.is32bit = true := by
      intro hWide
      have hTwo : (size w).getLsbD 1 = false := (Bool.or_eq_false_iff.mp hWide).2
      rw [h32]
      change ((if (size w).getLsbD 1 then 3 else 2 : BitVec 2) != 3) = true
      rw [hTwo]
      rfl
    have hValue (k : Fin 2) : inst.loaded (raw k) = a.value (raw k) :=
      (loaded_iff hSize hSignBit hNarrow hShort (raw k)).mpr fun h => absurd (hSigned.symm.trans h) Bool.false_ne_true
    have hStored : ((inst.req 0).data.setWidth a.bits = (X 64 reg (Rt w)).setWidth a.bits) ↔
        (w.extractLsb' 15 5 = 31 → (reg (Rt w)).setWidth a.bits = 0) := by
      rw [hFirst, X_word hRt]
      rcases em (w.extractLsb' 15 5 = 31) with hImm | hImm
      · rw [if_pos hImm]
        exact ⟨fun h _ => (h.symm.trans (BitVec.setWidth_zero _ _)), fun h => (BitVec.setWidth_zero _ _).trans (h hImm).symm⟩
      · rw [if_neg hImm]
        exact ⟨fun _ h => absurd h hImm, fun _ => rfl⟩
    rw [performs_iff hLoadBit hPair hSize hAddr hBase]
    constructor
    · rintro ⟨hStores, hWrites⟩
      exact
        { word := fun _ => hSigned
          named := fun hOne => absurd hOne.symm Bool.false_ne_true
          stored := fun hOne => absurd hOne.symm Bool.false_ne_true
          first := fun _ h => hStored.mp ((hUsed _).mp (hStores h)).1
          sign := fun hOne => absurd hOne.symm Bool.false_ne_true
          base := fun hNot written hWritten => (narrowed_eq_iff _).mp (hWrites.base written hWritten) (by rw [h32]; exact bne_iff_ne.mpr hNot) }
    · intro h
      refine ⟨fun hStores => (hUsed _).mpr ⟨hStored.mpr (h.first rfl hStores), ?_⟩, fun written hWritten => ?_,
        fun _ => (hUsed _).mpr ⟨⟨hReg.1, hValue 0⟩, hReg.2, hValue 1⟩⟩
      · rw [hSecond]
        exact congrArg (BitVec.setWidth a.bits) (X_word hRt2).symm
      · refine (narrowed_eq_iff _).mpr fun hThirtyTwo => h.base ?_ written hWritten
        rw [h32] at hThirtyTwo
        exact bne_iff_ne.mp hThirtyTwo

end Pair

end Words

section Chain

variable {thidW : Nat} {w : BitVec 32} {s : ThreadState} {c : IType} {a : Access}

/-- A load or store is performed as an access of the architecture, or handed over to the host. -/
def Accessed (thidW : Nat) (w : BitVec 32) (s : ThreadState) (a : Access) (raw : Fin 2 → Word) : Prop :=
  match (s.issue w thidW).minst with
  | some inst => inst.Performs s.reg a raw
  | none => (s.issue w thidW).commitNext.transplant = true

theorem valid_of_access {dinst : DInst} (h : access s.reg w dinst.itype = some a) : LDSTUnit.valid dinst = true := by
  cases hType : dinst.itype <;> rw [hType] at h <;> first | (cases h; done) | rw [LDSTUnit.valid, hType]

theorem accessed_of_performs {dinst : DInst} (hDecode : DInst.decode w = dinst) (hAccess : access s.reg w dinst.itype = some a)
    (raw : Fin 2 → Word) : Accessed thidW w s a raw ↔ (LDSTUnit.exceptions dinst (dinst.readPorts s.reg) = false →
      (LDSTUnit.minst dinst (dinst.readPorts s.reg) (0 : BitVec thidW)).Performs s.reg a raw) := by
  have hValid := valid_of_access hAccess
  have hMinst : (s.issue w thidW).minst = if LDSTUnit.exceptions dinst (dinst.readPorts s.reg) then none
      else some (LDSTUnit.minst dinst (dinst.readPorts s.reg) 0) := by
    rw [ThreadState.issue_minst, hDecode, DInst.ldstInstruction, hValid]
    cases hExceptions : LDSTUnit.exceptions dinst (dinst.readPorts s.reg) <;> simp [ThreadState.operands, hExceptions]
  rw [Accessed, hMinst]
  cases hExceptions : LDSTUnit.exceptions dinst (dinst.readPorts s.reg) with
  | false => simp
  | true =>
    have hTransplant : (s.issue w thidW).commitNext.transplant = true := by
      rw [ThreadState.issue_commitNext, hDecode]
      simp [CommitInst.transplant, DInst.commitNext, DInst.memException, hValid, ThreadState.operands, hExceptions]
    simp [hTransplant]

section Examples

def based : ThreadState := ⟨fun r => if r = 2 then 0x1000 else 0, ⟨0, 0⟩⟩

end Examples

end Chain

end KnockoutKraken.Armflex

import KnockoutKraken.Arm.Branches
import KnockoutKraken.Armflex.Acceptance
import KnockoutKraken.Armflex.AddSub

/-!
# The branch unit on an instruction word

A branch and an address relative to the program counter, from the decoder
through the read ports and the branch unit to the commit. A branch to a
target that is not a multiple of four is handed over to the host.
-/

namespace KnockoutKraken.Armflex

open Arm

def ThreadState.transferred (s : ThreadState) (t : Transfer) : ThreadState where
  reg := match t.written with | some (r, value) => Function.update s.reg r value | none => s.reg
  pregs := ⟨t.target.getD (s.pregs.pc + 4), s.pregs.nzcv⟩

/-- A word of the thread is committed as a transfer, or given to the host for its target. -/
structure Transferred (thidW : Nat) (w : BitVec 32) (s : ThreadState) (t : Transfer) : Prop where
  notMemory : (s.issue w thidW).minst = none
  transplant : (s.issue w thidW).commitNext.transplant = decide t.Misaligned
  committed : ¬ t.Misaligned → s.commit (s.issue w thidW).commitNext = s.transferred t

section Units

variable {thidW : Nat} {w : BitVec 32} {s : ThreadState} {sig : ControlSignals}

/-- What the branch unit and the execute unit show for a word. -/
def DInst.shown (dinst : DInst) (ops : Operands) : Transfer :=
  ⟨dinst.result ops, if dinst.branchValid ops then some (BranchUnit.bpc dinst (ops.rVal 1) ops.pstate.pc) else none⟩

theorem transferred_shown {dinst : DInst} (hDecode : DInst.decode w = dinst) (hMem : LDSTUnit.valid dinst = false)
    (hValid : dinst.inst32.valid = true) (hNZCV : dinst.nzcv.valid = false)
    (hWide : dinst.is32bit = false ∨ dinst.result (s.operands dinst) = none) :
    Transferred thidW w s (dinst.shown (s.operands dinst)) := by
  subst hDecode
  have hMisaligned : decide ((DInst.decode w).shown (s.operands (.decode w))).Misaligned =
      (DInst.decode w).branchException (s.operands (.decode w)) := by
    rw [Bool.eq_iff_iff, decide_eq_true_iff, DInst.branchException, Bool.and_eq_true, DInst.shown, Transfer.Misaligned]
    cases hBranch : (DInst.decode w).branchValid (s.operands (.decode w)) with
    | false => simp
    | true => simp [BranchUnit.unalignedExcp]
  have hTransplant : (s.issue w thidW).commitNext.transplant = decide ((DInst.decode w).shown (s.operands (.decode w))).Misaligned := by
    rw [hMisaligned, ThreadState.issue_commitNext]
    simp [CommitInst.transplant, DInst.commitNext, DInst.memException, hValid, hMem]
  refine ⟨?_, hTransplant, fun hAligned => ?_⟩
  · rw [ThreadState.issue_minst, DInst.ldstInstruction, hMem]
    rfl
  · rw [decide_eq_false hAligned] at hTransplant
    rw [ThreadState.issue_commitNext] at hTransplant ⊢
    rw [ThreadState.commit_commitNext, CommitInst.update_of_not_transplant hTransplant, ThreadState.transferred]
    refine ThreadState.ext ?_ ?_
    · rcases hWide with hWide | hNone
      · rw [hWide]
        rfl
      · simp only [DInst.shown, hNone]
    · have hFlags : ((DInst.decode w).einst (s.operands (.decode w))).bits.nzcv.valid = false := hNZCV
      simp only [DInst.commitNext, DInst.shown, hFlags, Bool.false_and, Bool.false_eq_true, if_false, Option.getD_none]

theorem transferred_iff {written : Option (BitVec 5 × Word)} {a b : Word} (h : Transferred thidW w s ⟨written, some a⟩) :
    Transferred thidW w s ⟨written, some b⟩ ↔ a = b ∨ a.setWidth 2 ≠ 0 ∧ b.setWidth 2 ≠ 0 := by
  have hTarget (x : Word) : (⟨written, some x⟩ : Transfer).Misaligned ↔ x.setWidth 2 ≠ 0 := by simp [Transfer.Misaligned]
  constructor
  · intro h'
    have hSame := h.transplant.symm.trans h'.transplant
    rw [decide_eq_decide, hTarget, hTarget] at hSame
    by_cases ha : a.setWidth 2 ≠ 0
    · exact .inr ⟨ha, hSame.mp ha⟩
    · have hStates := (h.committed (mt (hTarget a).mp ha)).symm.trans (h'.committed (mt (hTarget b).mp (mt hSame.mpr ha)))
      exact .inl (congrArg (fun s : ThreadState => s.pregs.pc) hStates)
  · rintro (rfl | ⟨ha, hb⟩)
    · exact h
    · refine ⟨h.notMemory, ?_, fun hAligned => absurd ((hTarget b).mpr hb) hAligned⟩
      rw [h.transplant, decide_eq_decide, hTarget, hTarget]
      exact ⟨fun _ => hb, fun _ => ha⟩

end Units

section Classes

variable {thidW : Nat} {w : BitVec 32} {s : ThreadState} {sig : ControlSignals}

theorem setWidth_immS2 (imm : BitVec 26) (n : Nat) : (imm ++ 0#2).setWidth (n + 2) = imm.setWidth n ++ 0#2 := by
  apply BitVec.eq_of_getLsbD_eq
  intro i hi
  rw [BitVec.getLsbD_setWidth, BitVec.getLsbD_append, BitVec.getLsbD_append, BitVec.getLsbD_setWidth]
  rcases Nat.lt_or_ge i 2 with hLow | hHigh
  · simp [hLow, hi]
  · simp [Nat.not_lt.mpr hHigh, hi, show i - 2 < n by omega]

def shows (s : ThreadState) (w : BitVec 32) (sig : ControlSignals) : Transfer :=
  (DInst.ofSignals w sig).shown (s.operands (.ofSignals w sig))

theorem shows_branchImmediate (hSignals : signals w .BImm = some sig) : shows s w sig = branchImmediate s.pregs.pc w := by
  cases hSignals
  cases hLink : w.getLsbD 31
  · rw [branchImmediate, hLink]
    rfl
  · rw [branchImmediate, hLink]
    rfl

theorem shows_branchConditional (hSignals : signals w .BCImm = some sig) :
    shows s w sig = branchConditional s.pregs.nzcv s.pregs.pc w := by
  cases hSignals
  have hOffset : ((w.extractLsb' 5 19).setWidth 26 ++ 0#2).setWidth 21 = imm19 w ++ 0#2 := by
    rw [setWidth_immS2 _ 19, setWidth_field w 5 (by decide) (by decide), imm19]
  rw [branchConditional, ← ConditionHolds.res_eq, branchTo, ← hOffset]
  rfl

theorem shows_compareAndBranch (hSignals : signals w .CBImm = some sig) (hRt : Rd w ≠ 31) :
    shows s w sig = compareAndBranch s.reg s.pregs.pc w (datasize w) := by
  cases hSignals
  have hOffset : ((w.extractLsb' 5 19).setWidth 26 ++ 0#2).setWidth 21 = imm19 w ++ 0#2 := by
    rw [setWidth_immS2 _ 19, setWidth_field w 5 (by decide) (by decide), imm19]
  have hNot (zero : Bool) (target : Word) : (if zero = !true then some target else none) = if !zero then some target else none := by
    cases zero <;> rfl
  rw [compareAndBranch, X_eq hRt, branchTo, ← hOffset, datasize]
  have hSelf : (s.reg (Rd w)).setWidth 64 = s.reg (Rd w) := BitVec.setWidth_eq _
  cases sf w <;> cases w.getLsbD 24
  · rfl
  · rw [hNot]
    rfl
  · rw [if_pos rfl, hSelf]
    rfl
  · rw [if_pos rfl, if_pos rfl, hSelf, hNot]
    rfl

theorem shows_testAndBranch (hSignals : signals w .TBImm = some sig) (hRt : Rd w ≠ 31) :
    shows s w sig = testAndBranch s.reg s.pregs.pc w := by
  cases hSignals
  have hOffset : ((w.extractLsb' 5 19).setWidth 26 ++ 0#2).setWidth 16 = w.extractLsb' 5 14 ++ 0#2 := by
    rw [setWidth_immS2 _ 14, setWidth_field w 5 (by decide) (by decide)]
  have hBit : BitVec.ofBool (!!sf w) ++ ((w.extractLsb' 5 19).setWidth 26).extractLsb' 14 5 = BitVec.ofBool (sf w) ++ w.extractLsb' 19 5 := by
    rw [Bool.not_not, extractLsb'_setWidth _ (by decide), extractLsb'_extractLsb' w 5 19 14 5 (by decide)]
  have hSelf : (s.reg (Rd w)).setWidth 64 = s.reg (Rd w) := BitVec.setWidth_eq _
  have hTaken (bit op : Bool) (target : Word) :
      (if decide ((BitVec.ofBool bit).setWidth 4 = if op then OP_TBNZ else OP_TBZ) then some target else none) =
        if bit = op then some target else none := by
    cases bit <;> cases op <;> rfl
  rw [testAndBranch, X_eq hRt, branchTo, ← hOffset, ← hBit, hSelf, ← hTaken]
  rfl

theorem shows_branchRegister (hSignals : signals w .BReg = some sig) :
    shows s w sig = ⟨(branchRegister s.reg s.pregs.pc w).written, some (s.reg 0)⟩ := by
  rw [branchRegister]
  simp only [signals] at hSignals
  split at hSignals
  · rename_i hOp
    cases hSignals
    rw [hOp]
    rfl
  · rename_i hOp
    cases hSignals
    rw [hOp]
    rfl
  · rename_i hOp
    cases hSignals
    rw [hOp]
    rfl
  · cases hSignals

theorem shows_pcRelative (hSignals : signals w .PCRel = some sig) (hRd : Rd w ≠ 31) :
    shows s w sig = pcRelative s.pregs.pc w := by
  cases hSignals
  have hImm : ((w.extractLsb' 5 19 ++ w.extractLsb' 29 2).setWidth 26).setWidth 21 = w.extractLsb' 5 19 ++ w.extractLsb' 29 2 :=
    (BitVec.setWidth_setWidth_of_le _ (by decide)).trans (BitVec.setWidth_eq _)
  rw [pcRelative, writeX, if_neg hRd, ← hImm]
  cases w.getLsbD 31 <;> rfl

theorem transferred_shows (hDecode : DInst.decode w = DInst.ofSignals w sig) (hMem : LDSTUnit.valid (.ofSignals w sig) = false)
    (hValid : (sig.itype != .X) = true) (hNZCV : sig.nzcvEn = false)
    (hWide : sig.is32bit = false ∨ (shows s w sig).written = none) : Transferred thidW w s (shows s w sig) :=
  transferred_shown hDecode hMem hValid hNZCV hWide

theorem transferred_of_conforms {t : Transfer} (h : (DInst.decode w).itype ≠ .BReg)
    (hSpec : transfer s.reg s.pregs.nzcv s.pregs.pc w (DInst.decode w).itype = some t)
    (hRegisters : ∀ r ∈ transferRegisters w (DInst.decode w).itype, r ≠ 31) : Transferred thidW w s t := by
  have hClass : (DInst.decode w).itype ≠ .X := by
    intro hX
    rw [hX] at hSpec
    cases hSpec
  obtain ⟨-, sig, hSignals, hDecode⟩ := class_of_decode hClass
  generalize (DInst.decode w).itype = c at h hSpec hRegisters hSignals
  cases c <;> cases hSpec
  case BReg => exact absurd rfl h
  case BImm =>
    rw [← shows_branchImmediate hSignals]
    cases hSignals
    exact transferred_shows hDecode rfl rfl rfl (.inl rfl)
  case BCImm =>
    rw [← shows_branchConditional hSignals]
    cases hSignals
    exact transferred_shows hDecode rfl rfl rfl (.inl rfl)
  case CBImm =>
    rw [← shows_compareAndBranch hSignals (hRegisters _ List.mem_cons_self)]
    cases hSignals
    exact transferred_shows hDecode rfl rfl rfl (.inr rfl)
  case TBImm =>
    rw [← shows_testAndBranch hSignals (hRegisters _ List.mem_cons_self)]
    cases hSignals
    exact transferred_shows hDecode rfl rfl rfl (.inr rfl)
  case PCRel =>
    rw [← shows_pcRelative hSignals (hRegisters _ List.mem_cons_self)]
    cases hSignals
    exact transferred_shows hDecode rfl rfl rfl (.inl rfl)

/-- A branch to a register takes its target from the register that the second read port shows, which is not the
one the word names. -/
theorem transferred_branchRegister (h : (DInst.decode w).itype = .BReg) :
    Transferred thidW w s ⟨(branchRegister s.reg s.pregs.pc w).written, some (s.reg 0)⟩ := by
  obtain ⟨-, sig, hSignals, hDecode⟩ := class_of_decode (w := w) (by rw [h]; decide)
  rw [h] at hSignals
  have hType : sig.itype = .BReg := itype_of_signals hSignals
  have hLow : sig.nzcvEn = false ∧ sig.is32bit = false := by
    simp only [signals] at hSignals
    split at hSignals <;> cases hSignals <;> exact ⟨rfl, rfl⟩
  rw [← shows_branchRegister hSignals]
  refine transferred_shows hDecode ?_ (by rw [hType]; rfl) hLow.1 (.inl hLow.2)
  rw [LDSTUnit.valid, DInst.ofSignals, hType]

/-- The branches and the addresses relative to the program counter do what the architecture says, but for a branch
to a register that does not hold what register 0 holds. -/
theorem transferred_iff_register (thidW : Nat) (w : BitVec 32) (s : ThreadState) {t : Transfer}
    (hSpec : transfer s.reg s.pregs.nzcv s.pregs.pc w (DInst.decode w).itype = some t)
    (hRegisters : ∀ r ∈ transferRegisters w (DInst.decode w).itype, r ≠ 31) :
    Transferred thidW w s t ↔ ((DInst.decode w).itype = .BReg →
      s.reg 0 = s.reg (Rn w) ∨ (s.reg 0).setWidth 2 ≠ 0 ∧ (s.reg (Rn w)).setWidth 2 ≠ 0) := by
  rcases eq_or_ne (DInst.decode w).itype .BReg with hType | hType
  · have hShown : Transferred thidW w s ⟨(branchRegister s.reg s.pregs.pc w).written, some (s.reg 0)⟩ :=
      transferred_branchRegister hType
    rw [hType] at hSpec hRegisters
    obtain rfl : branchRegister s.reg s.pregs.pc w = t := Option.some.inj hSpec
    have hRn : X 64 s.reg (Rn w) = s.reg (Rn w) := (X_eq (hRegisters _ List.mem_cons_self)).trans (BitVec.setWidth_eq _)
    have hTarget : branchRegister s.reg s.pregs.pc w = ⟨(branchRegister s.reg s.pregs.pc w).written, some (s.reg (Rn w))⟩ := by
      rw [branchRegister, hRn]
    rw [hTarget, transferred_iff hShown]
    exact ⟨fun h _ => h, fun h => h hType⟩
  · exact ⟨fun _ h => absurd h hType, fun _ => transferred_of_conforms hType hSpec hRegisters⟩

/-- `CBZ X1` of a register that is zero. -/
theorem transferred_cbz : Transferred 2 0xB4000041#32 ⟨fun _ => 0, ⟨0x1000, 0⟩⟩ ⟨none, some 0x1008⟩ := by
  have hType : (DInst.decode 0xB4000041#32).itype = .CBImm := by
    rw [decode_eq (c := .CBImm) (by decide) rfl rfl]
    rfl
  refine (transferred_iff_register 2 _ _ ?_ ?_).mpr fun hBReg => ?_
  · rw [hType]
    decide
  · rw [hType]
    decide
  · rw [hType] at hBReg
    cases hBReg

/-- `BR X1` does not go to the address in register 1. -/
theorem br_to_register_0 : ¬ ∀ (w : BitVec 32) (s : ThreadState) (t : Transfer),
    transfer s.reg s.pregs.nzcv s.pregs.pc w (DInst.decode w).itype = some t →
    (∀ r ∈ transferRegisters w (DInst.decode w).itype, r ≠ 31) → Transferred 2 w s t := by
  intro hAll
  have hType : (DInst.decode 0xD61F0020#32).itype = .BReg := by
    rw [decode_eq (c := .BReg) (by decide) rfl rfl]
    rfl
  let s : ThreadState := ⟨Function.update (fun _ => 0) 1 8, ⟨0, 0⟩⟩
  have hSpec : Transferred 2 0xD61F0020#32 s ⟨none, some 8⟩ := by
    refine hAll _ s _ ?_ ?_
    · rw [hType]
      decide
    · rw [hType]
      decide
  have hShown : Transferred 2 0xD61F0020#32 s ⟨none, some 0⟩ := transferred_branchRegister hType
  have hTargets := (transferred_iff hShown).mp hSpec
  exact absurd hTargets (by decide)

end Classes

end KnockoutKraken.Armflex

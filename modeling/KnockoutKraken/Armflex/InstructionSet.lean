import KnockoutKraken.Armflex.Bitfield
import KnockoutKraken.Armflex.BranchConformance
import KnockoutKraken.Armflex.Logical

/-!
# The instruction set of one thread

A word of the architecture as a step of the registers, the flags and the
program counter of its thread, for the words that neither go to memory nor
branch to a register. The stage and the commit unit make of such a word
what the step says.
-/

namespace KnockoutKraken.Arm

/-- What a word that does not transfer control is to do. -/
def compute (n : Nat) (reg : BitVec 5 → BitVec 64) (nzcv : BitVec 4) (w : BitVec 32) (c : IType) : Option (Outcome n) :=
  match c with
  | .LogSR => some (logicalShiftedOutcome n reg w)
  | .BitF | .MovI => bitfieldMove n reg w c
  | .HINT => some ⟨none, none⟩
  | _ => addSubtractFamily n reg nzcv w c

def computing : List IType := [.ASSR, .ASER, .ASImm, .CCReg, .CCImm, .CSel, .LogSR, .BitF, .MovI, .HINT]

def transferring : List IType := [.BImm, .BCImm, .CBImm, .TBImm, .PCRel]

end KnockoutKraken.Arm

namespace KnockoutKraken.Armflex

open Arm

namespace ThreadState

variable (s : ThreadState) (w : BitVec 32)

def computed {n : Nat} (out : Outcome n) : ThreadState where
  reg := match out.written with | some (r, value) => Function.update s.reg r (value.setWidth 64) | none => s.reg
  pregs := ⟨s.pregs.pc + 4, out.nzcv.getD s.pregs.nzcv⟩

/-- The thread after a word of a class. A transfer to an address that is not one of an instruction has no next state. -/
def stepOf (c : IType) : Option ThreadState :=
  match compute (datasize w) s.reg s.pregs.nzcv w c with
  | some out => some (s.computed out)
  | none => (transfer s.reg s.pregs.nzcv s.pregs.pc w c).bind fun t => if t.Misaligned then none else some (s.transferred t)

def step : Option ThreadState := (classes.find? fun c => decide ((diagram c).Matches w)).bind (s.stepOf w)

end ThreadState

/-- A word of these classes that is not reserved and names no register 31, nor sets the flags by a logical operation
of 32 bits. -/
structure Plain (w : BitVec 32) : Prop where
  accepted : (DInst.decode w).itype ∈ computing ++ transferring
  allowed : reserved w (DInst.decode w).itype = false
  named : ∀ r ∈ registers w (DInst.decode w).itype ++ transferRegisters w (DInst.decode w).itype, r ≠ 31
  flags : (DInst.decode w).itype = .LogSR → opc w = 3 → sf w = true

instance (w : BitVec 32) : Decidable (Plain w) :=
  decidable_of_iff ((DInst.decode w).itype ∈ computing ++ transferring ∧ reserved w (DInst.decode w).itype = false ∧
    (∀ r ∈ registers w (DInst.decode w).itype ++ transferRegisters w (DInst.decode w).itype, r ≠ 31) ∧
    ((DInst.decode w).itype = .LogSR → opc w = 3 → sf w = true))
    ⟨fun ⟨hClass, hAllowed, hNamed, hFlags⟩ => ⟨hClass, hAllowed, hNamed, hFlags⟩,
      fun h => ⟨h.accepted, h.allowed, h.named, h.flags⟩⟩

section Words

variable {thidW : Nat} {w : BitVec 32} {s : ThreadState} {sig : ControlSignals}

variable (thidW) (s) in
theorem committed_of_outcome (hDecode : DInst.decode w = DInst.ofSignals w sig) (hWide : sig.is32bit = !sf w)
    (hType : sig.itype ∈ computing) (hValid : ExecuteUnit.valid (.ofSignals w sig) = true ∨ sig.nzcvEn = false) :
    (s.issue w thidW).minst = none ∧ (s.issue w thidW).commitNext.transplant = false ∧
      s.commit (s.issue w thidW).commitNext = s.computed ((execute w sig s.reg s.pregs.nzcv).bits.outcome (datasize w)) := by
  let dinst := DInst.ofSignals w sig
  let ops := s.operands dinst
  have hClass : dinst.itype ∈ computing := hType
  have hMem : LDSTUnit.valid dinst = false := by
    cases hc : dinst.itype <;> rw [hc] at hClass <;> first | exact absurd hClass (by decide) | rw [LDSTUnit.valid, hc]
  have hBranch : dinst.branchValid ops = false := by
    cases hc : dinst.itype <;> rw [hc] at hClass <;>
      first | exact absurd hClass (by decide) | rw [DInst.branchValid, BranchUnit.valid, hc]
  have hPCRel : BranchUnit.pcrel dinst ops.pstate.pc = none := by
    cases hc : dinst.itype <;> rw [hc] at hClass <;>
      first | exact absurd hClass (by decide) | simp [BranchUnit.pcrel, hc]
  have hKnown : dinst.inst32.valid = true := bne_iff_ne.mpr fun hc => by
    rw [show dinst.itype = .X from hc] at hClass
    exact absurd hClass (by decide)
  have hTransplant : (dinst.commitNext ops (0 : BitVec thidW)).transplant = false := by
    simp [CommitInst.transplant, DInst.commitNext, DInst.memException, DInst.branchException, hMem, hBranch, hKnown]
  have hResult : dinst.result ops = if (dinst.einst ops).bits.rd.valid then
      some ((dinst.einst ops).bits.rd.bits, (dinst.einst ops).bits.res) else none := by
    rw [DInst.result, hPCRel, Option.none_or]
  have hFlags : (dinst.commitNext ops (0 : BitVec thidW)).nzcv = ((dinst.einst ops).bits.outcome (datasize w)).nzcv := by
    have hBoth : ((dinst.einst ops).bits.nzcv.valid && (dinst.einst ops).valid) = (dinst.einst ops).bits.nzcv.valid := by
      rcases hValid with hValid | hNone
      · rw [show (dinst.einst ops).valid = true from hValid, Bool.and_true]
      · rw [show (dinst.einst ops).bits.nzcv.valid = false from hNone, Bool.false_and]
    rw [DInst.commitNext, hBoth]
    rfl
  have hTarget : (dinst.commitNext ops (0 : BitVec thidW)).brTaken = none := if_neg (by rw [hBranch]; decide)
  rw [ThreadState.issue_minst, ThreadState.issue_commitNext, hDecode]
  refine ⟨by simp [DInst.ldstInstruction, show LDSTUnit.valid (.ofSignals w sig) = false from hMem], hTransplant, ?_⟩
  rw [ThreadState.commit_commitNext, CommitInst.update_of_not_transplant hTransplant, hFlags, hTarget, hResult]
  refine ThreadState.ext ?_ rfl
  have hNarrow (value : Word) : (if dinst.is32bit then (value.setWidth 32).setWidth 64 else value) =
      (value.setWidth (datasize w)).setWidth 64 := by
    rw [show dinst.is32bit = !sf w from hWide, datasize]
    cases sf w <;> simp
  have hWritten : ((execute w sig s.reg s.pregs.nzcv).bits.outcome (datasize w)).written =
      if (dinst.einst ops).bits.rd.valid then
        some ((dinst.einst ops).bits.rd.bits, (dinst.einst ops).bits.res.setWidth (datasize w)) else none := rfl
  rw [ThreadState.computed, hWritten]
  cases (dinst.einst ops).bits.rd.valid with
  | false => rfl
  | true => exact congrArg (Function.update s.reg _) (hNarrow _)

theorem logicalFlags_eq (hWhole : opc w = 3 → sf w = true) (a b : Word) :
    (if opc w = 3 then some (LogicALU.nzcv a b (logicalCode w (invert w)) !sf w) else none) =
      logicalFlags w ((logicalOp w a b).setWidth (datasize w)) := by
  rw [logicalFlags]
  split
  · next hOpc =>
    have h := width_datasize w
    have hRes := LogicALU.res_eq w (invert w) a b
    have hFlags := (LogicALU.nzcv_eq_iff h a b (logicalCode w (invert w))).mpr (by
      rw [datasize, hWhole hOpc, if_pos rfl, BitVec.setWidth_eq]
      exact id)
    rw [hRes] at hFlags
    exact congrArg some hFlags
  · rfl

theorem compute_eq {c : IType} (hMatches : (diagram c).Matches w) (hSignals : signals w c = some sig) (hControl : controlSignals w = sig)
    (hc : c ∈ computing) (hAllowed : reserved w c = false) (hNamed : ∀ r ∈ registers w c, r ≠ 31)
    (hWhole : c = .LogSR → opc w = 3 → sf w = true) (reg : BitVec 5 → Word) (nzcv : BitVec 4) :
    compute (datasize w) reg nzcv w c = some ((execute w sig reg nzcv).bits.outcome (datasize w)) := by
  have h := width_datasize w
  have hRd (hMem : (if S w && Rd w == 31 then [] else [Rd w]) ⊆ registers w c) : S w = true ∨ Rd w ≠ 31 := by
    cases hS : S w with
    | true => exact .inl rfl
    | false =>
      rw [hS] at hMem
      exact .inr (hNamed _ (hMem List.mem_cons_self))
  cases c <;> first | exact absurd hc (by decide) | skip
  case ASSR =>
    cases hSignals
    exact congrArg some (addSubtractShifted_conforms h reg nzcv hAllowed (hNamed _ (by simp [registers]))
      (hNamed _ (by simp [registers])) (hRd (List.subset_append_right _ _))).symm
  case ASER =>
    cases hSignals
    exact congrArg some (addSubtractExtended_conforms h reg nzcv (hNamed _ (by simp [registers]))).symm
  case ASImm =>
    cases hSignals
    exact congrArg some (addSubtractImmediate_conforms h reg nzcv).symm
  case CCReg =>
    cases hSignals
    exact congrArg some (conditionalCompareRegister_conforms h reg nzcv (hNamed _ (by simp [registers]))
      (hNamed _ (by simp [registers]))).symm
  case CCImm =>
    cases hSignals
    exact congrArg some (conditionalCompareImmediate_conforms h reg nzcv hMatches (hNamed _ (by simp [registers]))).symm
  case CSel =>
    cases hSignals
    exact congrArg some (conditionalSelect_conforms h reg nzcv (hNamed _ (by simp [registers])) (hNamed _ (by simp [registers]))
      (hNamed _ (by simp [registers]))).symm
  case LogSR =>
    have hRn : Rn w ≠ 31 := hNamed _ (by simp [registers])
    have hRm : Rm w ≠ 31 := hNamed _ (by simp [registers])
    have hResult : (logicalOp w (reg (Rn w)) (logicalSecond w reg)).setWidth (datasize w) = logicalShifted (datasize w) reg w := by
      rw [setWidth_logicalOp, logicalSecond_setWidth hAllowed reg hRm, ← X_eq hRn]
      rfl
    rw [← hControl, (execute_logical hMatches reg nzcv hRn hRm).2, logicalFlags_eq (hWhole rfl), hResult]
    rfl
  case BitF =>
    obtain ⟨masks, hMasks, -, hOutcome⟩ := bitfield_conforms reg nzcv hMatches (by rw [hSignals]; rfl) hAllowed
      (hNamed _ (by simp [registers])) (hNamed _ (by simp [registers]))
    rw [← hControl, hOutcome, compute, bitfieldMove, hMasks]
    rfl
  case MovI =>
    rw [← hControl, (moveWide_conforms reg nzcv hMatches (by rw [hSignals]; rfl) (hNamed _ (by simp [registers]))).2]
    rfl
  case HINT =>
    rw [signals] at hSignals
    split at hSignals <;> cases hSignals
    rfl

theorem compute_of_transferring {n : Nat} {reg : BitVec 5 → Word} {nzcv : BitVec 4} {c : IType} (hc : c ∈ transferring) :
    compute n reg nzcv w c = none := by
  cases c <;> first | exact absurd hc (by decide) | rfl

/-- Where the flags and the width of a word without a transfer come from. -/
theorem signals_of_computing {c : IType} (hMatches : (diagram c).Matches w) (hSignals : signals w c = some sig) (hc : c ∈ computing) :
    sig.is32bit = (!sf w) ∧ (ExecuteUnit.valid (.ofSignals w sig) = true ∨ sig.nzcvEn = false) := by
  cases c <;> first | exact absurd hc (by decide) | skip
  case HINT =>
    have hWide : sf w = true := hMatches.getLsbD (by decide)
    rw [signals] at hSignals
    split at hSignals <;> cases hSignals
    rw [hWide]
    exact ⟨rfl, .inr rfl⟩
  case BitF =>
    rw [signals] at hSignals
    split at hSignals <;> cases hSignals
    exact ⟨rfl, .inl rfl⟩
  case MovI =>
    simp only [signals] at hSignals
    repeat' split at hSignals
    all_goals cases hSignals
    all_goals exact ⟨rfl, .inl rfl⟩
  all_goals cases hSignals
  all_goals exact ⟨rfl, .inl rfl⟩

/-- The pipeline makes of a plain word a step of the architecture, or gives it to the host where there is none. -/
theorem Plain.step_eq (h : Plain w) (thidW : Nat) (s : ThreadState) : (s.issue w thidW).minst = none ∧ s.step w =
    if (s.issue w thidW).commitNext.transplant then none else some (s.commit (s.issue w thidW).commitNext) := by
  obtain ⟨hClass, hAllowed, hNamed, hFlags⟩ := h
  rcases class_or_default w with hDefault | ⟨c, sig, hMatches, hSignals, hControl⟩
  · rw [show (DInst.decode w).itype = .X from congrArg ControlSignals.itype hDefault] at hClass
    exact absurd hClass (by decide)
  · have hDecode : DInst.decode w = DInst.ofSignals w sig := congrArg (DInst.ofSignals w) hControl
    have hType : (DInst.decode w).itype = c := (congrArg DInst.itype hDecode).trans (itype_of_signals hSignals)
    rw [ThreadState.step, find_class hMatches, Option.bind_some, ThreadState.stepOf]
    rcases List.mem_append.mp hClass with hc | hc
    · rw [hType] at hc hAllowed hNamed hFlags
      obtain ⟨hWide, hValid⟩ := signals_of_computing hMatches hSignals hc
      obtain ⟨hMinst, hStays, hCommit⟩ := committed_of_outcome thidW s hDecode hWide (by rwa [itype_of_signals hSignals])
        hValid
      rw [compute_eq hMatches hSignals hControl hc hAllowed (fun r hr => hNamed r (List.mem_append_left _ hr)) hFlags, hStays]
      exact ⟨hMinst, congrArg some hCommit.symm⟩
    · obtain ⟨t, hTransfer⟩ : ∃ t, transfer s.reg s.pregs.nzcv s.pregs.pc w (DInst.decode w).itype = some t := by
        cases hItype : (DInst.decode w).itype <;> rw [hItype] at hc <;> first | exact absurd hc (by decide) | exact ⟨_, rfl⟩
      have hDone : Transferred thidW w s t := transferred_of_conforms
        (fun hReg => by
          rw [hReg] at hc
          exact absurd hc (by decide))
        hTransfer fun r hr => hNamed r (List.mem_append_right _ hr)
      rw [hType] at hc hTransfer
      rw [compute_of_transferring hc, hTransfer, hDone.transplant]
      refine ⟨hDone.notMemory, ?_⟩
      by_cases hMisaligned : t.Misaligned
      · simp [hMisaligned]
      · simp [hMisaligned, hDone.committed hMisaligned]

end Words

end KnockoutKraken.Armflex

import KnockoutKraken.Armflex.Acceptance

/-!
# Instructions that are handed over to the host

The commit of an instruction with an exception leaves the program counter
and the flags. Its result, if it has one, is written all the same, and the
execute unit shows a result for every instruction with a destination.
-/

namespace KnockoutKraken.Armflex

open Arm

/-- A word that is given to the host has left the thread as it was, and memory was not asked for anything. -/
def Precise (thidW : Nat) (w : BitVec 32) (s : ThreadState) : Prop :=
  (s.issue w thidW).commitNext.transplant = true →
    (s.issue w thidW).minst = none ∧ s.commit (s.issue w thidW).commitNext = s

namespace DInst

variable (dinst : DInst) (ops : Operands)

/-- The instruction writes the address of the next one to register 30. -/
def Links : Prop := dinst.itype = .BImm ∧ dinst.op = OP_BL ∨ dinst.itype = .BReg ∧ dinst.op = OP_BLR

def narrowed (value : Word) : Word := if dinst.is32bit then (value.setWidth 32).setWidth 64 else value

end DInst

/-- What an instruction with an exception writes is there already. -/
structure Restored (dinst : DInst) (s : ThreadState) : Prop where
  link : dinst.Links → BranchUnit.unalignedExcp dinst (s.reg dinst.rs2) s.pregs.pc = true → s.reg 30 = s.pregs.pc + 4
  access : LDSTUnit.valid dinst = true → LDSTUnit.exceptions dinst (dinst.readPorts s.reg) = true →
    s.reg dinst.rd.bits = dinst.narrowed (ExecuteUnit.logicALU dinst (dinst.readPorts s.reg))

section Words

variable {thidW : Nat} {w : BitVec 32} {s : ThreadState} {dinst : DInst} {ops : Operands} {sig : ControlSignals}

def branches : List IType := [.BImm, .BReg, .BCImm, .TBImm, .CBImm]

theorem mem_branches_of_valid (h : dinst.branchValid ops = true) : dinst.itype ∈ branches := by
  cases hType : dinst.itype <;> first | decide | (rw [DInst.branchValid, BranchUnit.valid, hType] at h; cases h)

theorem not_access_of_mem (h : dinst.itype ∈ branches) : LDSTUnit.valid dinst = false := by
  cases hType : dinst.itype <;> rw [hType] at h <;> first | exact absurd h (by decide) | (rw [LDSTUnit.valid, hType])

theorem transplant_commitNext (hValid : dinst.inst32.valid = true) :
    (dinst.commitNext ops (0 : BitVec thidW)).transplant = (dinst.memException ops || dinst.branchException ops) := by
  rw [CommitInst.transplant, DInst.commitNext, hValid]
  rfl

theorem result_of_access (hAccess : LDSTUnit.valid dinst = true) (hRd : dinst.rd.valid = true) :
    dinst.result ops = some (dinst.rd.bits, ExecuteUnit.logicALU dinst ops.rVal) := by
  cases hType : dinst.itype <;> rw [LDSTUnit.valid, hType] at hAccess <;> first
    | exact absurd hAccess (by decide)
    | simp [DInst.result, BranchUnit.pcrel, DInst.einst, ExecuteUnit.einst, ExecuteUnit.rd, ExecuteUnit.res, hType, hRd]

instance : Decidable dinst.Links := inferInstanceAs (Decidable (_ ∨ _))

theorem result_of_branch (hBranch : dinst.itype ∈ branches) (hRd : dinst.rd.valid = false) :
    dinst.result ops = if dinst.Links then some (30, ops.pstate.pc + 4) else none := by
  have hNone : (dinst.einst ops).bits.rd.valid = false := by
    cases hType : dinst.itype <;> rw [hType] at hBranch <;> first
      | exact absurd hBranch (by decide)
      | simp [DInst.einst, ExecuteUnit.einst, ExecuteUnit.rd, hType, hRd]
  have hType : dinst.itype ≠ .PCRel := by
    intro hPCRel
    rw [hPCRel] at hBranch
    exact absurd hBranch (by decide)
  rw [DInst.result, BranchUnit.pcrel, hNone, if_neg hType]
  simp only [Bool.false_eq_true, if_false, Option.or_none]
  rfl

theorem commit_of_transplant (hTransplant : (dinst.commitNext ops (0 : BitVec thidW)).transplant = true) :
    s.commit (dinst.commitNext ops (0 : BitVec thidW)) = s ↔ ∀ written ∈ dinst.result ops, s.reg written.1 = dinst.narrowed written.2 := by
  have hUpdate : (dinst.commitNext ops (0 : BitVec thidW)).update s.pregs = s.pregs := if_pos hTransplant
  rw [ThreadState.commit_commitNext, hUpdate]
  cases hResult : dinst.result ops with
  | none => simp
  | some written =>
    rw [ThreadState.ext_iff]
    simp only [and_true, Option.mem_some_iff, forall_eq']
    rw [Function.update_eq_self_iff]
    exact eq_comm

theorem rdEn_of_access {c : IType} (h : signals w c = some sig) (hAccess : LDSTUnit.valid (.ofSignals w sig) = true) :
    sig.rdEn = true := by
  have hType : (DInst.ofSignals w sig).itype = c := itype_of_signals h
  rw [LDSTUnit.valid, hType] at hAccess
  cases c <;> first
    | exact absurd hAccess (by decide)
    | (simp only [signals, pairSignals, accessSignals] at h
       repeat' split at h
       all_goals (cases h; try rfl))

theorem rdEn_of_branch {c : IType} (h : signals w c = some sig) (hBranch : sig.itype ∈ branches) : sig.rdEn = false := by
  rw [itype_of_signals h] at hBranch
  cases c <;> first
    | exact absurd hBranch (by decide)
    | (simp only [signals] at h
       repeat' split at h
       all_goals (cases h; try rfl))

theorem not_links_of_not_mem (h : dinst.itype ∉ branches) : ¬ dinst.Links := by
  rintro (⟨hType, -⟩ | ⟨hType, -⟩) <;> rw [hType] at h <;> exact h (by decide)

theorem branchValid_of_links (h : dinst.Links) : dinst.branchValid ops = true := by
  rcases h with ⟨hType, -⟩ | ⟨hType, -⟩ <;> rw [DInst.branchValid, BranchUnit.valid, hType]

theorem wide_of_links {c : IType} (h : signals w c = some sig) (hLinks : (DInst.ofSignals w sig).Links) : sig.is32bit = false := by
  have hType := itype_of_signals h
  have hBranch : c = .BImm ∨ c = .BReg := by
    rcases hLinks with ⟨hLinks, -⟩ | ⟨hLinks, -⟩
    · exact .inl (hType.symm.trans hLinks)
    · exact .inr (hType.symm.trans hLinks)
  rcases hBranch with rfl | rfl <;> simp only [signals] at h <;> (repeat' split at h) <;> cases h <;> rfl

section Decoded

variable (hDecode : DInst.decode w = dinst) (hValid : dinst.inst32.valid = true)
include hDecode hValid

theorem transplant_issue : (s.issue w thidW).commitNext.transplant =
    (dinst.memException (s.operands dinst) || dinst.branchException (s.operands dinst)) := by
  rw [ThreadState.issue_commitNext, hDecode]
  exact transplant_commitNext hValid

theorem precise_of_access (hAccess : LDSTUnit.valid dinst = true) (hRd : dinst.rd.valid = true) :
    Precise thidW w s ↔ Restored dinst s := by
  have hBranch : dinst.itype ∉ branches := fun h => by
    rw [not_access_of_mem h] at hAccess
    cases hAccess
  have hNoBranch : dinst.branchException (s.operands dinst) = false := by
    rw [DInst.branchException, Bool.eq_false_iff.mpr (mt mem_branches_of_valid hBranch), Bool.false_and]
  have hTransplant : (s.issue w thidW).commitNext.transplant = LDSTUnit.exceptions dinst (dinst.readPorts s.reg) := by
    rw [transplant_issue hDecode hValid, hNoBranch, DInst.memException, hAccess]
    simp [ThreadState.operands]
  have hCommit (hSet : (s.issue w thidW).commitNext.transplant = true) :
      s.commit (s.issue w thidW).commitNext = s ↔
        s.reg dinst.rd.bits = dinst.narrowed (ExecuteUnit.logicALU dinst (dinst.readPorts s.reg)) := by
    rw [ThreadState.issue_commitNext, hDecode] at hSet ⊢
    rw [commit_of_transplant hSet, result_of_access hAccess hRd]
    simp [ThreadState.operands]
  constructor
  · intro hPrecise
    refine ⟨fun hLinks => absurd hLinks (not_links_of_not_mem hBranch), fun _ hExceptions => ?_⟩
    have hSet := hTransplant.trans hExceptions
    exact (hCommit hSet).mp (hPrecise hSet).2
  · intro hRestored hSet
    have hExceptions := hTransplant.symm.trans hSet
    refine ⟨?_, (hCommit hSet).mpr (hRestored.access hAccess hExceptions)⟩
    rw [ThreadState.issue_minst, hDecode]
    refine if_neg ?_
    simp [DInst.ldstInstruction, ThreadState.operands, hExceptions]

theorem precise_of_not_access (hAccess : LDSTUnit.valid dinst = false) (hRd : dinst.itype ∈ branches → dinst.rd.valid = false)
    (hWide : dinst.Links → dinst.is32bit = false) : Precise thidW w s ↔ Restored dinst s := by
  have hTransplant : (s.issue w thidW).commitNext.transplant = dinst.branchException (s.operands dinst) := by
    rw [transplant_issue hDecode hValid, DInst.memException, hAccess]
    rfl
  have hMinst : (s.issue w thidW).minst = none := by
    rw [ThreadState.issue_minst, hDecode, DInst.ldstInstruction, hAccess]
    rfl
  have hCommit (hSet : (s.issue w thidW).commitNext.transplant = true) :
      s.commit (s.issue w thidW).commitNext = s ↔ (dinst.Links → s.reg 30 = s.pregs.pc + 4) := by
    have hBranch : dinst.itype ∈ branches := by
      rw [hTransplant, DInst.branchException, Bool.and_eq_true] at hSet
      exact mem_branches_of_valid hSet.1
    rw [ThreadState.issue_commitNext, hDecode] at hSet ⊢
    rw [commit_of_transplant hSet, result_of_branch hBranch (hRd hBranch)]
    rcases em dinst.Links with hLinks | hLinks
    · rw [if_pos hLinks]
      simp [hLinks, DInst.narrowed, hWide hLinks, ThreadState.operands]
    · rw [if_neg hLinks]
      simp [hLinks]
  constructor
  · intro hPrecise
    refine ⟨fun hLinks hUnaligned => ?_, fun hValid => absurd hValid (by rw [hAccess]; decide)⟩
    have hSet : (s.issue w thidW).commitNext.transplant = true := by
      rw [hTransplant, DInst.branchException, branchValid_of_links hLinks]
      exact hUnaligned
    exact (hCommit hSet).mp (hPrecise hSet).2 hLinks
  · intro hRestored hSet
    refine ⟨hMinst, (hCommit hSet).mpr fun hLinks => hRestored.link hLinks ?_⟩
    rw [hTransplant, DInst.branchException, Bool.and_eq_true] at hSet
    exact hSet.2

end Decoded

/-- A word with an exception is given to the host with the thread as it was exactly when what it writes is there already. -/
theorem precise_iff (thidW : Nat) (w : BitVec 32) (s : ThreadState) : Precise thidW w s ↔ Restored (.decode w) s := by
  rcases class_or_default w with hDefault | ⟨c, sig, hMatches, hSignals, hRow⟩
  · have hDecode : DInst.decode w = DInst.ofSignals w decode_default := congrArg (DInst.ofSignals w) hDefault
    refine ⟨fun _ => ?_, fun _ _ => ⟨?_, ?_⟩⟩
    · rw [hDecode]
      exact ⟨fun hLinks => absurd hLinks (not_links_of_not_mem (show IType.X ∉ branches by decide)), fun hAccess => by cases hAccess⟩
    · rw [ThreadState.issue_minst, hDecode]
      rfl
    · rw [ThreadState.issue_commitNext, hDecode]
      exact (commit_of_transplant rfl).mpr fun _ hNone => by cases hNone
  · have hDecode : DInst.decode w = DInst.ofSignals w sig := congrArg (DInst.ofSignals w) hRow
    have hValid : (DInst.ofSignals w sig).inst32.valid = true := bne_iff_ne.mpr (itype_ne_X hMatches hSignals)
    rw [hDecode]
    cases hAccess : LDSTUnit.valid (.ofSignals w sig) with
    | true => exact precise_of_access hDecode hValid hAccess (rdEn_of_access hSignals hAccess)
    | false => exact precise_of_not_access hDecode hValid hAccess (rdEn_of_branch hSignals) (wide_of_links hSignals)

/-- `BLR X0` to an address that is not a multiple of four has written register 30 when it is given to the host. -/
theorem blr_links_before_transplant : ¬ ∀ (w : BitVec 32) (s : ThreadState), Precise 2 w s := by
  intro hAll
  have hDecode : DInst.decode 0xD63F0000#32 = DInst.ofSignals 0xD63F0000#32 ⟨.BReg, OP_BLR, false, false, false, false, false⟩ :=
    decode_eq (c := .BReg) (by decide) rfl rfl
  have hRestored := (precise_of_not_access hDecode rfl rfl (fun _ => rfl) fun _ => rfl).mp
    (hAll _ ⟨Function.update (fun _ => 0) 0 2, ⟨0, 0⟩⟩)
  exact absurd (hRestored.link (.inr ⟨rfl, rfl⟩) (by decide)) (by decide)

end Words

end KnockoutKraken.Armflex

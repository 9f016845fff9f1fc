import KnockoutKraken.Armflex.PreciseExceptions
import KnockoutKraken.Armflex.Register31

/-!
# Writes of the stack pointer

The commit writes register 31 whenever an instruction names it. Which words
keep it is said here, and what follows for a thread over a run of words and
of visits to the host.
-/

namespace KnockoutKraken.Armflex

open Arm

section Writes

variable {w : BitVec 32} {sig : ControlSignals} {c : IType} {ops : Operands}

/-- What is written for a field of 31, and only for one. -/
def WriteRight (f : Option Field) (r : Option (BitVec 5)) : Prop :=
  (∀ field ∈ f, field.register = 31 → r = field.target) ∧
    (r = some 31 → ∃ field ∈ f, field.register = 31 ∧ field.stack = true)

theorem writeRight_none (r : Option (BitVec 5)) : WriteRight none r ↔ r ≠ some 31 := by
  simp [WriteRight]

theorem writeRight_some (f : Field) : WriteRight (some f) (some f.register) ↔ (f.register = 31 → f.stack = true) := by
  obtain ⟨r, stack⟩ := f
  rcases eq_or_ne r 31 with rfl | hr
  · cases stack <;> simp [WriteRight, Field.target]
  · have hNe : ¬ r = 31#5 := hr
    simp [WriteRight, hNe]

theorem writeRight_guarded (f : Field) :
    WriteRight (some f) (if f.register = 31 then none else some f.register) ↔ (f.register = 31 → f.stack = false) := by
  obtain ⟨r, stack⟩ := f
  rcases eq_or_ne r 31 with rfl | hr
  · cases stack <;> simp [WriteRight, Field.target]
  · have hNe : ¬ r = 31#5 := hr
    simp [WriteRight, hNe]

def Writes31 (w : BitVec 32) (sig : ControlSignals) (c : IType) (ops : Operands) : Prop :=
  ∀ k, WriteRight (destinations w c k) ((DInst.ofSignals w sig).written ops k)

theorem forall_fin_three {P : Fin 3 → Prop} : (∀ k, P k) ↔ P 0 ∧ P 1 ∧ P 2 := by
  simp [Fin.forall_fin_succ]

theorem written_stage {dinst : DInst} (hAccess : LDSTUnit.valid dinst = false) (k : Fin 3) :
    dinst.written ops k = if k = 0 then (dinst.result ops).map Prod.fst else none := by
  rw [DInst.written, hAccess]
  rfl

theorem writes_stage {dinst : DInst} {f : Option Field} (hAccess : LDSTUnit.valid dinst = false) :
    (∀ k, WriteRight (if k = 0 then f else none) (dinst.written ops k)) ↔ WriteRight f ((dinst.result ops).map Prod.fst) := by
  rw [forall_fin_three, written_stage hAccess, written_stage hAccess, written_stage hAccess]
  have hNone : WriteRight none none := (writeRight_none none).mpr (by simp)
  exact and_iff_left ⟨hNone, hNone⟩

theorem result_of_default {dinst : DInst} (hc : dinst.itype ∈ [IType.CSel, .MovI, .BitF, .DP1S, .DP2S, .ASSR, .ASER, .ASImm, .CCImm, .CCReg,
    .BCImm, .TBImm, .CBImm, .HINT]) : (dinst.result ops).map Prod.fst = if dinst.rd.valid then some dinst.rd.bits else none := by
  obtain ⟨⟨valid, rd⟩, rs1, rs2, imm, shiftVal, shiftType, cond, is32bit, itype, op, nzcv, inst32⟩ := dinst
  replace hc : itype ∈ _ := hc
  cases itype <;> first
    | exact absurd hc (by decide)
    | (simp only [DInst.result, BranchUnit.pcrel, DInst.einst, ExecuteUnit.einst, ExecuteUnit.rd]
       cases valid <;> rfl)

theorem result_of_logical {dinst : DInst} (hc : dinst.itype ∈ [IType.LogSR, .LogI]) :
    (dinst.result ops).map Prod.fst = if dinst.rd.bits = 31 then none else some dinst.rd.bits := by
  obtain ⟨⟨valid, rd⟩, rs1, rs2, imm, shiftVal, shiftType, cond, is32bit, itype, op, nzcv, inst32⟩ := dinst
  replace hc : itype ∈ _ := hc
  cases itype <;> first
    | exact absurd hc (by decide)
    | (simp only [DInst.result, BranchUnit.pcrel, DInst.einst, ExecuteUnit.einst, ExecuteUnit.rd]
       rcases eq_or_ne rd 31 with hRd | hRd
       · simp [hRd]
       · have hNe : ¬ rd = 31#5 := hRd
         simp [hNe])

theorem writes_written (hc : c ∈ [IType.CSel, .MovI, .BitF, .DP1S, .DP2S]) (hSignals : signals w c = some sig) :
    Writes31 w sig c ops ↔ ¬ Miswritten w c := by
  have hType := itype_of_signals hSignals
  have hRdEn : sig.rdEn = true := by
    cases c <;> first
      | exact absurd hc (by decide)
      | (simp only [signals] at hSignals
         repeat' split at hSignals
         all_goals (cases hSignals; try rfl))
  have hResult : ((DInst.ofSignals w sig).result ops).map Prod.fst = some (Rd w) := by
    rw [result_of_default (by rw [show (DInst.ofSignals w sig).itype = c from hType]; revert hc; cases c <;> decide)]
    have hBits : (DInst.ofSignals w sig).rd.bits = Rd w := by
      rw [DInst.ofSignals, hType]
      cases c <;> first | exact absurd hc (by decide) | rfl
    rw [show (DInst.ofSignals w sig).rd.valid = true from hRdEn, if_pos rfl, hBits]
  have hAccess : LDSTUnit.valid (DInst.ofSignals w sig) = false := by
    rw [LDSTUnit.valid, show (DInst.ofSignals w sig).itype = c from hType]
    cases c <;> first | exact absurd hc (by decide) | rfl
  have hDestinations : destinations w c = fun k => if k = 0 then some (zr (Rd w)) else none := by
    cases c <;> first | exact absurd hc (by decide) | rfl
  have hMiswritten : Miswritten w c ↔ Rd w = 31 := by
    cases c <;> first | exact absurd hc (by decide) | exact Iff.rfl
  rw [Writes31, hDestinations, writes_stage hAccess, hResult, hMiswritten]
  refine (writeRight_some (zr (Rd w))).trans ⟨fun h hRd => absurd (h hRd) Bool.false_ne_true, fun h hRd => absurd hRd h⟩

theorem not_access_of_signals (hSignals : signals w c = some sig) (hc : c ∉ singles ++ pairs) :
    LDSTUnit.valid (DInst.ofSignals w sig) = false := by
  rw [LDSTUnit.valid, show (DInst.ofSignals w sig).itype = c from itype_of_signals hSignals]
  cases c <;> first | exact absurd (by decide) hc | rfl

/-- The additions and subtractions, whose destination is the stack pointer without the flags in two classes. -/
theorem writes_arithmetic (hc : c ∈ [IType.ASSR, .ASER, .ASImm]) (hSignals : signals w c = some sig) :
    Writes31 w sig c ops ↔ ¬ Miswritten w c := by
  have hAccess := not_access_of_signals hSignals (by revert hc; cases c <;> decide)
  have hSig : sig = addSubtractSignals c w := by
    cases c <;> first | exact absurd hc (by decide) | (cases hSignals; rfl)
  have hResult : ((DInst.ofSignals w sig).result ops).map Prod.fst = if S w && Rd w == 31 then none else some (Rd w) := by
    rw [result_of_default (by rw [show (DInst.ofSignals w sig).itype = c from itype_of_signals hSignals]; revert hc; cases c <;> decide), hSig]
    have hBits : (DInst.ofSignals w (addSubtractSignals c w)).rd = ⟨!(S w && Rd w == 31), Rd w⟩ := by
      cases c <;> first | exact absurd hc (by decide) | rfl
    rw [hBits]
    cases S w && Rd w == 31 <;> rfl
  have hDestinations : ∃ stack, destinations w c = (fun k => if k = 0 then some ⟨Rd w, stack⟩ else none) ∧
      (Miswritten w c ↔ S w = false ∧ Rd w = 31 ∧ stack = false) ∧ (S w = true → stack = false) := by
    cases c <;> first
      | exact absurd hc (by decide)
      | exact ⟨false, rfl, by simp [Miswritten], fun _ => rfl⟩
      | exact ⟨!S w, rfl, by cases S w <;> simp [Miswritten], fun h => by rw [h]; rfl⟩
  obtain ⟨stack, hDestinations, hMiswritten, hStack⟩ := hDestinations
  rw [Writes31, hDestinations, writes_stage hAccess, hResult, hMiswritten]
  cases hS : S w with
  | false =>
    refine (writeRight_some ⟨Rd w, stack⟩).trans ?_
    cases stack <;> simp
  | true =>
    have hIf : (if true && Rd w == 31 then none else some (Rd w)) = if Rd w = 31 then none else some (Rd w) := by simp
    rw [hIf]
    refine (writeRight_guarded ⟨Rd w, stack⟩).trans ?_
    simp [hStack hS]

theorem writes_logical (hc : c ∈ [IType.LogSR, .LogI]) (hSignals : signals w c = some sig) :
    Writes31 w sig c ops ↔ ¬ Miswritten w c := by
  have hAccess := not_access_of_signals hSignals (by revert hc; cases c <;> decide)
  have hType : (DInst.ofSignals w sig).itype = c := itype_of_signals hSignals
  have hResult : ((DInst.ofSignals w sig).result ops).map Prod.fst = if Rd w = 31 then none else some (Rd w) := by
    have hBits : (DInst.ofSignals w sig).rd.bits = Rd w := by
      rw [DInst.ofSignals, itype_of_signals hSignals]
      cases c <;> first | exact absurd hc (by decide) | rfl
    rw [result_of_logical (by rw [hType]; exact hc), hBits]
  have hDestinations : ∃ stack, destinations w c = (fun k => if k = 0 then some ⟨Rd w, stack⟩ else none) ∧
      (Miswritten w c ↔ stack = true ∧ Rd w = 31) := by
    cases c <;> first
      | exact absurd hc (by decide)
      | exact ⟨false, rfl, by simp [Miswritten]⟩
      | exact ⟨opc w != 3, rfl, by simp [Miswritten]⟩
  obtain ⟨stack, hDestinations, hMiswritten⟩ := hDestinations
  rw [Writes31, hDestinations, writes_stage hAccess, hResult, hMiswritten]
  refine (writeRight_guarded ⟨Rd w, stack⟩).trans ?_
  cases stack <;> simp

theorem writes_pcRelative (hSignals : signals w .PCRel = some sig) : Writes31 w sig .PCRel ops ↔ ¬ Miswritten w .PCRel := by
  cases hSignals
  have hResult : ((DInst.ofSignals w ⟨.PCRel, if w.getLsbD 31 then OP_ADRP else OP_ADR, true, false, false, false, false⟩).result ops).map
      Prod.fst = some (Rd w) := rfl
  refine (writes_stage (f := some (zr (Rd w))) rfl).trans ?_
  rw [hResult]
  exact (writeRight_some (zr (Rd w))).trans ⟨fun h hRd => absurd (h hRd) Bool.false_ne_true, fun h hRd => absurd hRd h⟩

theorem writes_none (hc : c ∈ [IType.CCImm, .CCReg, .BCImm, .TBImm, .CBImm, .HINT, .BImm, .BReg]) (hSignals : signals w c = some sig) :
    Writes31 w sig c ops ↔ ¬ Miswritten w c := by
  have hAccess := not_access_of_signals hSignals (by revert hc; cases c <;> decide)
  have hDestinations : destinations w c = fun k => if k = 0 then none else none := by
    cases c <;> first | exact absurd hc (by decide) | exact funext fun k => (ite_self _).symm
  have hMiswritten : ¬ Miswritten w c := by
    cases c <;> first | exact absurd hc (by decide) | exact id
  rw [Writes31, hDestinations, writes_stage hAccess, writeRight_none]
  refine iff_of_true ?_ hMiswritten
  have hType : (DInst.ofSignals w sig).itype = c := itype_of_signals hSignals
  rcases em (c ∈ branches) with hBranch | hNot
  · rw [result_of_branch (by rw [hType]; exact hBranch) (rdEn_of_branch hSignals (by rw [itype_of_signals hSignals]; exact hBranch))]
    split <;> simp
  · have hRdEn : sig.rdEn = false := by
      cases c <;> first
        | exact absurd hc (by decide)
        | exact absurd (by decide) hNot
        | (simp only [signals] at hSignals
           repeat' split at hSignals
           all_goals (cases hSignals; try rfl))
    rw [result_of_default (by rw [hType]; revert hc hNot; cases c <;> decide), show (DInst.ofSignals w sig).rd.valid = false from hRdEn]
    simp

theorem writeRight_zr (r named : BitVec 5) : WriteRight (some (zr r)) (some named) ↔ r ≠ 31 ∧ named ≠ 31 := by
  have hTarget : r = 31 → (zr r).target = none := fun h => if_pos h
  constructor
  · rintro ⟨hWritten, hKept⟩
    constructor
    · intro hr
      have hSome := hWritten (zr r) rfl hr
      rw [hTarget hr] at hSome
      cases hSome
    · intro hNamed
      obtain ⟨field, hField, -, hStack⟩ := hKept (congrArg some hNamed)
      cases hField
      cases hStack
  · rintro ⟨hr, hNamed⟩
    refine ⟨fun field hField h31 => ?_, fun h31 => absurd (Option.some.inj h31) hNamed⟩
    cases hField
    exact absurd h31 hr

theorem writes_single (hc : c ∈ singles) (hSignals : signals w c = some sig) : Writes31 w sig c ops ↔ ¬ Miswritten w c := by
  obtain ⟨hAllocated, is32bit, hDInst⟩ := signals_single hc hSignals
  have hLoad : (accessOp (size w) (accessType w)).getLsbD 2 = loads w := (accessOp_fields _ _ hAllocated).2.1
  have hNone : WriteRight none none := (writeRight_none none).mpr (by simp)
  have hBase : WriteRight (some (sp (Rn w))) (some (Rn w)) := (writeRight_some (sp (Rn w))).mpr fun _ => rfl
  have hList : Writes31 w sig c ops ↔
      WriteRight (if loads w then some (zr (Rt w)) else none) (if loads w then some (dataRegister w c) else none) := by
    have hDestinations : destinations w c 0 = (if wback c then some (sp (Rn w)) else none) ∧
        destinations w c 1 = (if loads w then some (zr (Rt w)) else none) ∧ destinations w c 2 = none := by
      cases c <;> first
        | exact absurd hc (by decide)
        | (refine ⟨rfl, ?_, rfl⟩
           cases hLoads : loads w <;> simp [destinations, hLoads])
    have hWritten : (accessDInst w c (accessOp (size w) (accessType w)) is32bit).written ops 0 = (if wback c then some (Rn w) else none) ∧
        (accessDInst w c (accessOp (size w) (accessType w)) is32bit).written ops 1 =
          (if loads w then some (dataRegister w c) else none) ∧
        (accessDInst w c (accessOp (size w) (accessType w)) is32bit).written ops 2 = none := by
      rw [← hLoad]
      cases c <;> first
        | exact absurd hc (by decide)
        | (refine ⟨rfl, rfl, ?_⟩
           exact if_neg (by rw [Bool.and_eq_true]; exact fun h => Bool.false_ne_true h.2))
    obtain ⟨hd0, hd1, hd2⟩ := hDestinations
    obtain ⟨hw0, hw1, hw2⟩ := hWritten
    rw [Writes31, hDInst, forall_fin_three, hd0, hd1, hd2, hw0, hw1, hw2, and_iff_left hNone]
    refine and_iff_right ?_
    cases wback c
    · exact hNone
    · exact hBase
  rw [hList]
  cases hLoads : loads w with
  | false => cases c <;> first | exact absurd hc (by decide) | simp [Miswritten, hLoads, hNone]
  | true =>
    refine (writeRight_zr _ _).trans ?_
    cases c <;> first | exact absurd hc (by decide) | (simp only [Miswritten, dataRegister, hLoads]; grind)

theorem writes_pair (hc : c ∈ pairs) (hSignals : signals w c = some sig) : Writes31 w sig c ops ↔ ¬ Miswritten w c := by
  obtain ⟨operation, is32bit, hDInst, hLoadBit, -⟩ := signals_pair hc hSignals
  have hLoad : operation.getLsbD 2 = loadsPair w := hLoadBit
  have hNone : WriteRight none none := (writeRight_none none).mpr (by simp)
  have hBase : WriteRight (some (sp (Rn w))) (some (Rn w)) := (writeRight_some (sp (Rn w))).mpr fun _ => rfl
  have hDestinations : destinations w c 0 = (if wback c then some (sp (Rn w)) else none) ∧
      destinations w c 1 = (if loadsPair w then some (zr (Rt w)) else none) ∧
      destinations w c 2 = (if loadsPair w then some (zr (Rt2 w)) else none) := by
    cases c <;> first
      | exact absurd hc (by decide)
      | (refine ⟨rfl, ?_, ?_⟩ <;> cases hLoads : loadsPair w <;> simp [destinations, hLoads])
  have hWritten : (accessDInst w c operation is32bit).written ops 0 = (if wback c then some (Rn w) else none) ∧
      (accessDInst w c operation is32bit).written ops 1 = (if loadsPair w then some (Rt w) else none) ∧
      (accessDInst w c operation is32bit).written ops 2 = if loadsPair w then some (Rt2 w) else none := by
    rw [← hLoad]
    cases c <;> first
      | exact absurd hc (by decide)
      | (refine ⟨rfl, rfl, ?_⟩
         have hPair : (operation.getLsbD 2 && true) = operation.getLsbD 2 := Bool.and_true _
         rw [← hPair]
         rfl)
  obtain ⟨hd0, hd1, hd2⟩ := hDestinations
  obtain ⟨hw0, hw1, hw2⟩ := hWritten
  have hFirst : WriteRight (if wback c then some (sp (Rn w)) else none) (if wback c then some (Rn w) else none) := by
    cases wback c
    · exact hNone
    · exact hBase
  rw [Writes31, hDInst, forall_fin_three, hd0, hd1, hd2, hw0, hw1, hw2, and_iff_right hFirst]
  have hMiswritten : Miswritten w c ↔ loadsPair w = true ∧ (Rt w = 31 ∨ Rt2 w = 31) := by
    cases c <;> first | exact absurd hc (by decide) | exact Iff.rfl
  rw [hMiswritten]
  cases loadsPair w with
  | false => simp [hNone]
  | true =>
    rw [if_pos rfl, if_pos rfl, if_pos rfl, if_pos rfl, writeRight_zr, writeRight_zr]
    grind

/-- A word writes register 31 as the architecture says but for the miswritten ones. -/
theorem writes_iff (hSignals : signals w c = some sig) : Writes31 w sig c ops ↔ ¬ Miswritten w c := by
  cases c
  case X | DP3S => cases hSignals
  case CSel | MovI | BitF | DP1S | DP2S => exact writes_written (by decide) hSignals
  case ASSR | ASER | ASImm => exact writes_arithmetic (by decide) hSignals
  case LogSR | LogI => exact writes_logical (by decide) hSignals
  case PCRel => exact writes_pcRelative hSignals
  case LSUImm | LSUReg | LSRegPo | LSRegPr | LSReg => exact writes_single (by decide) hSignals
  case LSPair | LSPairPo | LSPairPr => exact writes_pair (by decide) hSignals
  all_goals exact writes_none (by decide) hSignals

end Writes

section Words

variable {w : BitVec 32} {s : ThreadState}

theorem disciplined_of_signals {sig : ControlSignals} {c : IType} (hDecode : DInst.decode w = DInst.ofSignals w sig)
    (hSignals : signals w c = some sig) : Disciplined w ↔ ¬ Misread w c ∧ ¬ Miswritten w c := by
  have hType : (DInst.decode w).itype = c := (congrArg DInst.itype hDecode).trans (itype_of_signals hSignals)
  have hWrites (s : ThreadState) : Writes31 w sig c (s.operands (DInst.ofSignals w sig)) ↔ ¬ Miswritten w c := writes_iff hSignals
  constructor
  · rintro ⟨hRead, hWritten, hKept⟩
    rw [hType, hDecode] at hRead
    rw [hType] at hWritten hKept
    refine ⟨(reads_iff hSignals).mp hRead, (hWrites ones).mp fun k => ?_⟩
    rw [← hDecode]
    exact ⟨hWritten ones k, hKept ones k⟩
  · rintro ⟨hRead, hWritten⟩
    refine ⟨?_, fun s k => ?_, fun s k => ?_⟩ <;> rw [hType, hDecode]
    · exact (reads_iff hSignals).mpr hRead
    · exact ((hWrites s).mpr hWritten k).1
    · exact ((hWrites s).mpr hWritten k).2

theorem written_of_default (h : controlSignals w = decode_default) (ops : Operands) (k : Fin 3) : (DInst.decode w).written ops k = none := by
  have hDecode : DInst.decode w = DInst.ofSignals w decode_default := congrArg (DInst.ofSignals w) h
  rw [hDecode, written_stage rfl]
  exact ite_self _

theorem kept_of_not_miswritten (h : ¬ Miswritten w (DInst.decode w).itype) {ops : Operands} {k : Fin 3}
    (hWritten : (DInst.decode w).written ops k = some 31) : WritesStack w (DInst.decode w).itype := by
  rcases class_or_default w with hDefault | ⟨c, sig, -, hSignals, hRow⟩
  · rw [written_of_default hDefault] at hWritten
    cases hWritten
  · have hDecode : DInst.decode w = DInst.ofSignals w sig := congrArg (DInst.ofSignals w) hRow
    have hType : (DInst.decode w).itype = c := (congrArg DInst.itype hDecode).trans (itype_of_signals hSignals)
    rw [hType] at h ⊢
    rw [hDecode] at hWritten
    exact ⟨k, ((writes_iff hSignals).mpr h k).2 hWritten⟩

theorem disciplined_iff (w : BitVec 32) :
    Disciplined w ↔ ¬ Misread w (DInst.decode w).itype ∧ ¬ Miswritten w (DInst.decode w).itype := by
  rcases class_or_default w with hDefault | ⟨c, sig, -, hSignals, hRow⟩
  · have hDecode : DInst.decode w = DInst.ofSignals w decode_default := congrArg (DInst.ofSignals w) hDefault
    have hType : (DInst.decode w).itype = .X := congrArg DInst.itype hDecode
    rw [hType]
    refine iff_of_true ⟨fun s => ?_, fun s k => ?_, fun s k hWritten => ?_⟩ ⟨id, id⟩
    · rw [hDecode]
      exact .nil
    · rw [hType]
      exact fun field hField => by cases hField
    · rw [written_of_default hDefault] at hWritten
      cases hWritten
  · have hDecode : DInst.decode w = DInst.ofSignals w sig := congrArg (DInst.ofSignals w) hRow
    have hType : (DInst.decode w).itype = c := (congrArg DInst.itype hDecode).trans (itype_of_signals hSignals)
    rw [hType]
    exact disciplined_of_signals hDecode hSignals

end Words

/-- A step of a thread: a word with what memory holds at its addresses, or the host that has had the thread. -/
inductive ThreadStep where
  | word (w : BitVec 32) (raw : Fin 2 → Word)
  | host (state : ThreadState)

namespace ThreadState

variable (s : ThreadState)

def committed (w : BitVec 32) (raw : Fin 2 → Word) : CommitInst 0 :=
  match (s.issue w 0).minst with
  | some inst => inst.packed raw
  | none => (s.issue w 0).commitNext

def next : ThreadStep → ThreadState
  | .word w raw => s.commit (s.committed w raw)
  | .host state => state

def run (steps : List ThreadStep) : ThreadState := steps.foldl next s

/-- The step is one of an instruction that writes the stack pointer, or of a transplant. -/
def MayChangeStack : ThreadStep → Prop
  | .word w raw => WritesStack w (DInst.decode w).itype ∨ (s.committed w raw).transplant = true
  | .host _ => True

variable {s}

theorem commit_of_not_written {thidW : Nat} {inst : CommitInst thidW} {r : BitVec 5} (h : ∀ k, inst.rd k ≠ some r) :
    (s.commit inst).reg r = s.reg r := by
  have hFold (writes : List (RFileWrite thidW)) (s : ThreadState) (hWrites : ∀ wr ∈ writes, wr.addr ≠ r) :
      (writes.foldl write s).reg r = s.reg r := by
    induction writes generalizing s with
    | nil => rfl
    | cons wr writes ih =>
      refine (ih (s.write wr) fun wr' hMem => hWrites wr' (List.mem_cons_of_mem _ hMem)).trans ?_
      exact Function.update_of_ne (Ne.symm (hWrites wr List.mem_cons_self)) _ _
  refine hFold inst.writes s fun wr hMem => ?_
  obtain ⟨hMem, hEn⟩ := List.mem_filter.mp hMem
  obtain ⟨k, -, rfl⟩ := List.mem_map.mp hMem
  intro hAddr
  obtain ⟨r', hRd⟩ := Option.isSome_iff_exists.mp hEn
  have hSame : (inst.rd k).getD 0 = r := hAddr
  rw [hRd] at hSame
  exact h k (hRd.trans (congrArg some hSame))

theorem rd_committed {w : BitVec 32} {raw : Fin 2 → Word} (h : (s.committed w raw).transplant = false) (k : Fin 3) :
    (s.committed w raw).rd k = (DInst.decode w).written (s.operands (.decode w)) k := by
  rw [committed] at h ⊢
  rw [issue_minst, DInst.ldstInstruction] at h ⊢
  cases hAccess : LDSTUnit.valid (DInst.decode w) with
  | false =>
    rw [hAccess] at h
    rw [DInst.written, hAccess]
    rfl
  | true =>
    rw [hAccess] at h
    rw [DInst.written, hAccess]
    cases hExceptions : LDSTUnit.exceptions (DInst.decode w) (s.operands (.decode w)).rVal with
    | false => rfl
    | true =>
      rw [hExceptions] at h
      have hTransplant : (s.issue w 0).commitNext.transplant = true := by
        rw [issue_commitNext]
        simp [CommitInst.transplant, DInst.commitNext, DInst.memException, hAccess, hExceptions]
      exact absurd (hTransplant.symm.trans h) (by decide)

/-- A step that is not allowed to leaves register 31. -/
theorem reg_31_next {step : ThreadStep} (hWritten : ∀ w raw, step = .word w raw → ¬ Miswritten w (DInst.decode w).itype)
    (hStack : ¬ s.MayChangeStack step) : (s.next step).reg 31 = s.reg 31 := by
  cases step with
  | host state => exact absurd trivial hStack
  | word w raw =>
    obtain ⟨hNot, hTransplant⟩ := not_or.mp hStack
    refine commit_of_not_written fun k hRd => hNot ?_
    rw [rd_committed (Bool.eq_false_iff.mpr hTransplant)] at hRd
    exact kept_of_not_miswritten (hWritten w raw rfl) hRd

theorem reg_31_run {steps : List ThreadStep} (hWritten : ∀ w raw, .word w raw ∈ steps → ¬ Miswritten w (DInst.decode w).itype)
    (hReg : (s.run steps).reg 31 ≠ s.reg 31) :
    ∃ before step after, steps = before ++ step :: after ∧ (s.run before).MayChangeStack step := by
  induction steps generalizing s with
  | nil => exact absurd rfl hReg
  | cons step steps ih =>
    rcases em (s.MayChangeStack step) with hChanges | hKeeps
    · exact ⟨[], step, steps, rfl, hChanges⟩
    · have hStep := reg_31_next (fun w raw hWord => hWritten w raw (hWord ▸ List.mem_cons_self)) hKeeps
      obtain ⟨before, step', after, rfl, hChanges⟩ := ih (s := s.next step)
        (fun w raw hWord => hWritten w raw (List.mem_cons_of_mem _ hWord)) (by rw [hStep]; exact hReg)
      exact ⟨step :: before, step', after, rfl, hChanges⟩

end ThreadState

def stackSteps : List ThreadStep := [.word 0xD28000A1#32 fun _ => 0, .word 0x910043FF#32 fun _ => 0]

end KnockoutKraken.Armflex

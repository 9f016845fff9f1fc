import KnockoutKraken.Arm.DecodeTable

/-!
# The encoding of the instructions

A class of instructions is one diagram: the bits that are the same in all
its words. The other bits are fields, and the decode table is told here
field by field instead of row by row.
-/

namespace KnockoutKraken.Arm

open Library

section Fields

variable (w : BitVec 32)

/-- The registers have 64 bits. -/
def sf : Bool := w.getLsbD 31

def Rd : BitVec 5 := w.extractLsb' 0 5

def Rn : BitVec 5 := w.extractLsb' 5 5

def Rm : BitVec 5 := w.extractLsb' 16 5

/-- The operation of most data-processing classes. -/
def opc : BitVec 2 := w.extractLsb' 29 2

def op : Bool := w.getLsbD 30

def S : Bool := w.getLsbD 29

def invert : Bool := w.getLsbD 21

/-- The elements of an immediate have 64 bits. -/
def N : Bool := w.getLsbD 22

def size : BitVec 2 := w.extractLsb' 30 2

/-- A memory access stores, loads, or loads with the sign to 64 or to 32 bits. -/
def accessType : BitVec 2 := w.extractLsb' 22 2

end Fields

def diagram : IType → BitPat 32
  | .PCRel => .ofDigits 32 22210000222222222222222222222222
  | .LogSR => .ofDigits 32 22201010222222222222222222222222
  | .LogI => .ofDigits 32 22210010022222222222222222222222
  | .MovI => .ofDigits 32 22210010122222222222222222222222
  | .BitF => .ofDigits 32 22210011022222222222222222222222
  | .CSel => .ofDigits 32 22011010100222222222022222222222
  | .CCImm => .ofDigits 32 22111010010222222222102222202222
  | .CCReg => .ofDigits 32 22111010010222222222002222202222
  | .ASSR => .ofDigits 32 22201011220222222222222222222222
  | .ASER => .ofDigits 32 22201011001222222222222222222222
  | .ASImm => .ofDigits 32 22210001022222222222222222222222
  | .DP1S => .ofDigits 32 21011010110000000002222222222222
  | .DP2S => .ofDigits 32 20011010110222220010222222222222
  | .BImm => .ofDigits 32 20010122222222222222222222222222
  | .BReg => .ofDigits 32 11010110022111110000002222200000
  | .TBImm => .ofDigits 32 20110112222222222222222222222222
  | .BCImm => .ofDigits 32 01010100222222222222222222202222
  | .CBImm => .ofDigits 32 20110102222222222222222222222222
  | .LSPairPo => .ofDigits 32 22101000122222222222222222222222
  | .LSPair => .ofDigits 32 22101001022222222222222222222222
  | .LSPairPr => .ofDigits 32 22101001122222222222222222222222
  | .LSReg => .ofDigits 32 22111000221222222122102222222222
  | .LSUImm => .ofDigits 32 22111001222222222222222222222222
  | .LSUReg => .ofDigits 32 22111000220222222222002222222222
  | .LSRegPo => .ofDigits 32 22111000220222222222012222222222
  | .LSRegPr => .ofDigits 32 22111000220222222222112222222222
  | .HINT => .ofDigits 32 11010101000000110010222222211111
  -- no word is of these two
  | .X | .DP3S => ⟨0, 1⟩

section Signals

def accessOp (size type : BitVec 2) : Op :=
  match type with
  | 0b00#2 => size.setWidth 4
  | 0b01#2 => size.setWidth 4 + isLoad
  | _ => size.setWidth 4 + isLoad + isSigned

/-- A sign is extended to more bits than the access has. -/
def accessAllocated (size type : BitVec 2) : Bool :=
  match type with
  | 0b10#2 => size != 3
  | 0b11#2 => size.getLsbD 1 == false
  | _ => true

/-- The pair accesses, with the load bit and the size of each of the two. -/
def pairSignals (c : IType) (w : BitVec 32) : Option ControlSignals :=
  let isL := w.getLsbD 22
  match size w, isL with
  | 0b00#2, _ => some ⟨c, if isL then OP_LDP32 else OP_STP32, true, false, false, false, true⟩
  | 0b10#2, _ => some ⟨c, if isL then OP_LDP64 else OP_STP64, true, false, false, false, false⟩
  | 0b01#2, true => some ⟨c, OP_LDPSW, true, false, false, false, false⟩
  | _, _ => none

def accessSignals (c : IType) (narrow32 : Bool) (w : BitVec 32) : Option ControlSignals :=
  if accessAllocated (size w) (accessType w) then
    some ⟨c, accessOp (size w) (accessType w), true, false, false, false,
      if (accessType w).getLsbD 1 then (accessType w).getLsbD 0
      else size w == 2 || narrow32 && (size w).getLsbD 1 == false⟩
  else none

/-- The signals of the words of a class, but for those that are no instruction. -/
def signals (w : BitVec 32) : IType → Option ControlSignals
  | .PCRel => some ⟨.PCRel, if w.getLsbD 31 then OP_ADRP else OP_ADR, true, false, false, false, false⟩
  | .LogSR =>
    let operation := if opc w = 3 then 0 else opc w
    some ⟨.LogSR, (operation ++ BitVec.ofBool (invert w)).setWidth 4, !(opc w == 3 && !invert w && Rd w == 31), true, false,
      opc w == 3, !sf w⟩
  | .LogI =>
    let operation := if opc w = 3 then 0 else opc w
    if !sf w && N w then none
    else some ⟨.LogI, (operation ++ 0#1).setWidth 4, !(opc w == 3 && Rd w == 31), false, false, opc w == 3, !sf w⟩
  | .MovI =>
    let signals op : Option ControlSignals := some ⟨.MovI, op, true, false, false, false, !sf w⟩
    if !sf w && w.getLsbD 22 then none
    else
      match opc w with
      | 0b00#2 => signals OP_MOVN
      | 0b10#2 => signals OP_MOVZ
      | 0b11#2 => signals OP_MOVK
      | _ => none
  | .BitF => if N w != sf w || opc w == 3 then none else some ⟨.BitF, (opc w).setWidth 4, true, true, false, false, !sf w⟩
  | .CSel => some ⟨.CSel, (BitVec.ofBool (op w) ++ BitVec.ofBool (w.getLsbD 10)).setWidth 4, true, false, true, false, !sf w⟩
  | .CCImm => some ⟨.CCImm, if op w then OP_CCMP else OP_CCMN, false, false, true, true, !sf w⟩
  | .CCReg => some ⟨.CCReg, if op w then OP_CCMP else OP_CCMN, false, false, true, true, !sf w⟩
  | .ASSR => some ⟨.ASSR, if op w then OP_SUB else OP_ADD, !(S w && Rd w == 31), true, false, S w, !sf w⟩
  | .ASER => some ⟨.ASER, if op w then OP_SUB else OP_ADD, !(S w && Rd w == 31), true, false, S w, !sf w⟩
  | .ASImm => some ⟨.ASImm, if op w then OP_SUB else OP_ADD, !(S w && Rd w == 31), true, false, S w, !sf w⟩
  | .DP1S =>
    let opcode := w.extractLsb' 10 3
    if opcode = 3 ∧ sf w = false ∨ 6 ≤ opcode then none else some ⟨.DP1S, opcode.setWidth 4, true, false, false, false, !sf w⟩
  | .DP2S => some ⟨.DP2S, (w.extractLsb' 10 2).setWidth 4, true, true, false, false, !sf w⟩
  | .BImm => some ⟨.BImm, if w.getLsbD 31 then OP_BL else OP_B, false, false, false, false, false⟩
  | .BReg =>
    match w.extractLsb' 21 2 with
    | 0b00#2 => some ⟨.BReg, OP_BR, false, false, false, false, false⟩
    | 0b01#2 => some ⟨.BReg, OP_BLR, false, false, false, false, false⟩
    | 0b10#2 => some ⟨.BReg, OP_RET, false, false, false, false, false⟩
    | _ => none
  | .TBImm => some ⟨.TBImm, if w.getLsbD 24 then OP_TBNZ else OP_TBZ, false, false, false, false, !sf w⟩
  | .BCImm => some ⟨.BCImm, OP_BCOND, false, false, true, false, false⟩
  | .CBImm => some ⟨.CBImm, if w.getLsbD 24 then OP_CBNZ else OP_CBZ, false, false, false, false, !sf w⟩
  | .LSPairPo => pairSignals .LSPairPo w
  | .LSPair => pairSignals .LSPair w
  | .LSPairPr => pairSignals .LSPairPr w
  -- the accesses with a sign are not there with a register offset
  | .LSReg => if (accessType w).getLsbD 1 then none else accessSignals .LSReg true w
  | .LSUImm => accessSignals .LSUImm true w
  | .LSUReg => accessSignals .LSUReg false w
  | .LSRegPo => accessSignals .LSRegPo false w
  | .LSRegPr => accessSignals .LSRegPr false w
  | .HINT =>
    if w.extractLsb' 5 7 = 0 ∨ w.extractLsb' 10 2 = 1 then some ⟨.HINT, OP_X, false, false, false, false, false⟩ else none
  | .X | .DP3S => none

/-- The 32-bit conditional compare negative is not in the table. -/
def listed (w : BitVec 32) : IType → Bool
  | .CCImm | .CCReg => sf w || op w
  | _ => true

/-- What the table is to say of the words of a class. -/
def rowOf (c : IType) (w : BitVec 32) : ControlSignals := ((signals w c).filter fun _ => listed w c).getD decode_default

/-- The bits that the signals of a class depend on, but for a destination of 31. -/
def readBits : IType → List Nat
  | .PCRel | .BImm => [31]
  | .LogSR => [31, 30, 29, 21]
  | .LogI => [31, 30, 29, 22]
  | .MovI | .BitF => [31, 30, 29, 22]
  | .CSel => [31, 30, 10]
  | .CCImm | .CCReg => [31, 30]
  | .ASSR | .ASER | .ASImm => [31, 30, 29]
  | .DP1S => [31, 12, 11, 10]
  | .DP2S => [31, 11, 10]
  | .BReg => [22, 21]
  | .TBImm | .CBImm => [31, 24]
  | .LSPairPo | .LSPair | .LSPairPr => [31, 30, 22]
  | .LSReg | .LSUImm | .LSUReg | .LSRegPo | .LSRegPr => [31, 30, 23, 22]
  | .HINT => [11, 10, 9, 8, 7, 6, 5]
  | .BCImm | .X | .DP3S => []

end Signals

section Table

def classes : List IType := [
  .HINT, .LogSR, .LogI, .CCImm, .CCReg, .CSel, .ASImm, .ASSR, .ASER, .MovI, .DP1S, .DP2S, .BitF, .LSUReg, .LSRegPo, .LSReg,
  .LSRegPr, .LSUImm, .LSPairPo, .LSPair, .LSPairPr, .BImm, .BCImm, .TBImm, .CBImm, .BReg, .PCRel]

theorem mem_classes_of_matches {c : IType} {w : BitVec 32} (h : (diagram c).Matches w) : c ∈ classes := by
  have hNone : ¬ (⟨0, 1⟩ : BitPat 32).Matches w := by
    intro hMatches
    have hZero : (0 : BitVec 32) = 1 := BitVec.and_zero.symm.trans hMatches
    exact absurd hZero (by decide)
  cases c with
  | X | DP3S => exact absurd h hNone
  | _ => decide

/-- The words with the destination 31. -/
def ZR : BitPat 32 := ⟨31, 31⟩

/-- The classes in which a word with the destination 31 is a comparison. -/
def comparing : IType → Bool
  | .LogSR | .LogI | .ASSR | .ASER | .ASImm => true
  | _ => false

/-- The patterns in which the table is compared with the signals, for each class. A class with comparisons is taken
with the destination 31 and with another one. -/
def parts (c : IType) : List (BitPat 32) :=
  if comparing c then [(diagram c).both ZR, (diagram c).both ⟨31, 0⟩] else [diagram c]

theorem agrees_table : classes.all (fun c => (parts c).all fun p =>
    BitPat.agrees (rowOf c) decode_default (BitPat.rowsFor decode_table p) (readBits c) p) = true := by
  decide +kernel

theorem asksWhole_table : classes.all (fun c => !comparing c ||
    (BitPat.rowsFor decode_table (diagram c)).all fun row => decide (ZR.AsksWhole row.1)) = true := by
  decide +kernel

theorem covered_table : decode_table.all (fun row => classes.any fun c => decide (row.1.Covered (diagram c))) = true := by
  decide +kernel

theorem apart_classes : classes.Pairwise fun c d => (diagram c).Apart (diagram d) := by
  decide +kernel

section Reads

variable {w mask : BitVec 32}

theorem getLsbD_and_of {i : Nat} (h : mask.getLsbD i = true) : (w &&& mask).getLsbD i = w.getLsbD i := by
  rw [BitVec.getLsbD_and, h, Bool.and_true]

theorem extractLsb'_and_of {i k : Nat} (h : mask.extractLsb' i k = BitVec.allOnes k) :
    (w &&& mask).extractLsb' i k = w.extractLsb' i k := by
  rw [BitVec.extractLsb'_and, h, BitVec.and_allOnes]

end Reads

theorem rowOf_and (c : IType) {p : BitPat 32} (hp : p ∈ parts c) (w : BitVec 32) :
    rowOf c (w &&& p.maskWith (readBits c)) = rowOf c w := by
  cases c with
  | X | DP3S =>
    rfl
  | LogSR | LogI | ASSR | ASER | ASImm =>
    rcases List.mem_pair.mp hp with rfl | rfl <;>
      simp (disch := decide +kernel) only [rowOf, signals, listed, sf, S, op, opc, Rd, invert, N, getLsbD_and_of,
        extractLsb'_and_of] <;> rfl
  | _ =>
    rw [List.mem_singleton.mp hp]
    simp (disch := decide +kernel) only [rowOf, signals, listed, pairSignals, accessSignals, sf, op, opc, N, size, accessType,
      getLsbD_and_of, extractLsb'_and_of] <;> rfl

theorem not_matches_clear (w : BitVec 32) : ¬ ZR.Matches (w &&& ~~~ZR.mask) := by
  rw [BitPat.Matches, BitVec.and_assoc]
  exact fun h => absurd (BitVec.and_zero.symm.trans h) (by decide)

theorem rowOf_clear {c : IType} (hc : comparing c = true) {w : BitVec 32} (hw : ¬ ZR.Matches w) :
    rowOf c (w &&& ~~~ZR.mask) = rowOf c w := by
  have hRd (v : BitVec 32) (hv : ¬ ZR.Matches v) : (v.extractLsb' 0 5 == 31) = false := by
    rw [beq_eq_false_iff_ne]
    intro hAll
    apply hv
    apply BitVec.eq_of_toNat_eq
    have hNat := congrArg BitVec.toNat hAll
    rw [BitVec.extractLsb'_toNat, Nat.shiftRight_zero] at hNat
    exact (BitVec.toNat_and _ _).trans ((Nat.and_two_pow_sub_one_eq_mod v.toNat 5).trans hNat)
  cases c with
  | LogSR | LogI | ASSR | ASER | ASImm =>
    simp (disch := decide +kernel) only [rowOf, signals, listed, sf, S, op, opc, Rd, invert, N, getLsbD_and_of,
      extractLsb'_and_of, hRd w hw, hRd _ (not_matches_clear w)]
    rfl
  | _ => cases hc

theorem controlSignals_of_matches {c : IType} {w : BitVec 32} (h : (diagram c).Matches w) : controlSignals w = rowOf c w := by
  have hc := mem_classes_of_matches h
  have hBits : ∀ i ∈ readBits c, i < 32 := by cases c <;> decide
  have hPart {p : BitPat 32} (hp : p ∈ parts c) {v : BitVec 32} (hv : p.Matches v) : controlSignals v = rowOf c v := by
    have hAgrees := List.all_eq_true.mp (List.all_eq_true.mp agrees_table c hc) p hp
    rw [controlSignals, ← BitPat.lookup_rowsFor hv]
    exact BitPat.lookup_eq_of_agrees hAgrees hBits (rowOf_and c hp) hv
  cases hComparing : comparing c with
  | false => exact hPart (by rw [parts, hComparing]; exact List.mem_singleton_self _) h
  | true =>
    by_cases hZR : ZR.Matches w
    · exact hPart (by rw [parts, hComparing]; exact List.mem_cons_self) (h.both hZR)
    · have hRows : ∀ row ∈ BitPat.rowsFor decode_table (diagram c), ZR.AsksWhole row.1 := by
        have hAsks := List.all_eq_true.mp asksWhole_table c hc
        rw [hComparing] at hAsks
        exact fun row hRow => of_decide_eq_true (List.all_eq_true.mp hAsks row hRow)
      have hOpen : ~~~ZR.mask &&& (diagram c).mask = (diagram c).mask := by
        clear hRows
        cases c with
        | LogSR | LogI | ASSR | ASER | ASImm => decide +kernel
        | _ => cases hComparing
      have hv : (diagram c).Matches (w &&& ~~~ZR.mask) := by
        rw [BitPat.Matches, BitVec.and_assoc, hOpen]
        exact h
      have hClear : controlSignals (w &&& ~~~ZR.mask) = controlSignals w := by
        rw [controlSignals, controlSignals, ← BitPat.lookup_rowsFor hv, ← BitPat.lookup_rowsFor h]
        exact BitPat.lookup_clear hRows hZR (not_matches_clear w) _
      have hNone : (⟨31, 0⟩ : BitPat 32).Matches (w &&& ~~~ZR.mask) := by
        rw [BitPat.Matches, BitVec.and_assoc]
        exact BitVec.and_zero
      have hMem : (diagram c).both ⟨31, 0⟩ ∈ parts c := by
        rw [parts, hComparing]
        exact List.mem_cons_of_mem _ (List.mem_singleton_self _)
      rw [← hClear, hPart hMem (hv.both hNone), rowOf_clear hComparing hZR]

theorem controlSignals_of_signals {c : IType} {w : BitVec 32} (h : (diagram c).Matches w) {sig : ControlSignals}
    (hSignals : signals w c = some sig) (hListed : listed w c = true) : controlSignals w = sig := by
  rw [controlSignals_of_matches h, rowOf, hSignals, Option.filter_some, if_pos hListed]
  rfl

theorem controlSignals_of_not_matches {w : BitVec 32} (h : ∀ c ∈ classes, ¬ (diagram c).Matches w) :
    controlSignals w = decode_default := by
  apply BitPat.lookup_eq_default
  intro row hRow hMatches
  have hAny := List.all_eq_true.mp covered_table row hRow
  obtain ⟨c, hc, hCovered⟩ := List.any_eq_true.mp hAny
  exact h c hc (hMatches.of_covered (of_decide_eq_true hCovered))

end Table

end KnockoutKraken.Arm

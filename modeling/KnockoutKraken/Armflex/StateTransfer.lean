import KnockoutKraken.Armflex.HostRegisters
import KnockoutKraken.Regression.FpgaInterface

/-!
# The client and the port

The calls of the client are accesses of the port. The addresses that it
computes are those of the slots and of the address spaces, so that a
state that was pushed is in the slot of its thread, and one that was
transplanted back is the state of the slot.
-/

namespace KnockoutKraken.Armflex

open Library Util Antmicro Regression

/-- The register behind an address of the client; the port has sixteen address lines. -/
def hostReg (addr : BitVec 32) : BitVec csrAddrW := AXI4LiteCSR.register (addr.setWidth (csrAddrW + 2))

theorem toNat_hostReg {addr : BitVec 32} {n : Nat} (hAddr : addr.toNat = n * 4) (hn : n < 2 ^ csrAddrW) :
    (hostReg addr).toNat = n := by
  rw [hostReg, AXI4LiteCSR.register, BitVec.toNat_setWidth, BitVec.toNat_ushiftRight, BitVec.toNat_setWidth, hAddr,
    Nat.shiftRight_eq_div_pow]
  simp only [csrAddrW] at hn ⊢
  omega

/-- A finished access of the host, as the registers see it. -/
inductive HostAccess where
  | write (reg : BitVec csrAddrW) (data : BitVec axiDataW)
  | read (reg : BitVec csrAddrW) (data : BitVec axiDataW)
deriving DecidableEq

namespace HostAccess

variable {thidW : Nat}

/-- A write ends for the registers with its data, a read with the data it is answered with. -/
def ofPorts (o : CSRPorts csrAddrW axiDataW) : Option HostAccess :=
  match o.write with
  | some (reg, data) => some (.write reg data)
  | none => o.r.bind fun data => o.read.map fun reg => .read reg data

def ofCall : AXILCall × BitVec 32 → HostAccess
  | (.write addr data, _) => .write (hostReg addr) data
  | (.read addr, data) => .read (hostReg addr) data

theorem ofCall_of_write {call : AXILCall × BitVec 32} {addr data : BitVec 32} (h : call.1 = .write addr data) :
    ofCall call = .write (hostReg addr) data := by
  obtain ⟨_, ack⟩ := call
  cases h
  rfl

def writtenTo (r : HostRegister thidW) : HostAccess → Option (BitVec axiDataW)
  | .write reg data => if HostRegister.ofAddr reg = some r then some data else none
  | .read _ _ => none

def Written (accesses : List HostAccess) (r : HostRegister thidW) (data : BitVec axiDataW) : Prop :=
  ∃ access ∈ accesses, access.writtenTo r = some data

end HostAccess

open ControlPort TransplantUnit HostRegister

section Slots

variable {thidW : Nat}

def slotHalf (t : BitVec thidW) (m : Nat) (odd : Bool) : BitVec (hostAddrW thidW + 1) := slotRow t m ++ BitVec.ofBool odd

theorem rowOf_slotHalf (t : BitVec thidW) (m : Nat) (odd : Bool) : rowOf (slotHalf t m odd) = slotRow t m := by
  apply BitVec.eq_of_getLsbD_eq
  intro j hj
  simp [rowOf, slotHalf, BitVec.getElem_append, hj, Nat.add_comm 1 j]

theorem side_slotHalf (t : BitVec thidW) (m : Nat) (odd : Bool) : (slotHalf t m odd).getLsbD 0 = odd := by
  simp [slotHalf, BitVec.getElem_append]

theorem slotHalf_injective {t : BitVec thidW} {m m' : Nat} {odd odd' : Bool} (hm : m < 64) (hm' : m' < 64)
    (h : slotHalf t m odd = slotHalf t m' odd') : m = m' ∧ odd = odd' := by
  have hRow : slotRow t m = slotRow t m' := by rw [← rowOf_slotHalf t m odd, h, rowOf_slotHalf]
  refine ⟨(slotRow_injective hm hm' hRow).2, ?_⟩
  rw [← side_slotHalf t m odd, h, side_slotHalf]

theorem toNat_slotHalf (t : BitVec thidW) {m : Nat} (hm : m < 64) (odd : Bool) :
    (slotHalf t m odd).toNat = t.toNat * 128 + 2 * m + odd.toNat := by
  have hRow : (slotRow t m).toNat = t.toNat * 64 + m := by
    have hBound : t.toNat * 64 + m < 2 ^ hostAddrW thidW := by
      have hLt := t.isLt
      have hPow : 2 ^ (thidW + 6) ≤ 2 ^ hostAddrW thidW := Nat.pow_le_pow_right (by decide) (Nat.le_max_right _ _)
      rw [Nat.pow_add] at hPow
      omega
    rw [slotRow, hostRow, BitVec.toNat_setWidth, ArchState.toNat_append, BitVec.toNat_ofNat, Nat.mod_eq_of_lt hm]
    exact Nat.mod_eq_of_lt hBound
  rw [slotHalf, BitVec.toNat_append, ← Nat.shiftLeft_add_eq_or_of_lt (BitVec.isLt _), Nat.shiftLeft_eq, hRow]
  cases odd <;> simp <;> omega

theorem half_eq (odd : Bool) (word : Word) : ControlPort.half odd word = Host.half word odd := by
  cases odd with
  | false =>
    apply BitVec.eq_of_getLsbD_eq
    intro j hj
    change (BitVec.extractLsb' 0 32 word).getLsbD j = (BitVec.setWidth 32 word).getLsbD j
    rw [BitVec.getLsbD_extractLsb', BitVec.getLsbD_setWidth, Nat.zero_add]
  | true =>
    apply BitVec.eq_of_getLsbD_eq
    intro j hj
    change (BitVec.extractLsb' 32 32 word).getLsbD j = (BitVec.setWidth 32 (word >>> 32)).getLsbD j
    rw [BitVec.getLsbD_extractLsb', BitVec.getLsbD_setWidth, BitVec.getLsbD_ushiftRight]

theorem word_eq_of_halves {word word' : Word} (h : ∀ odd, ControlPort.half odd word = ControlPort.half odd word') :
    word = word' := by
  have hLow : word.extractLsb' 0 32 = word'.extractLsb' 0 32 := h false
  have hHigh : word.extractLsb' 32 32 = word'.extractLsb' 32 32 := h true
  apply BitVec.eq_of_getLsbD_eq
  intro j hj
  by_cases hLt : j < 32
  · have hBit := congrArg (BitVec.getLsbD · j) hLow
    simpa [BitVec.getLsbD_extractLsb', hLt] using hBit
  · have hBit := congrArg (BitVec.getLsbD · (j - 32)) hHigh
    have hj' : j - 32 < 32 := by change j < 64 at hj; omega
    simpa [BitVec.getLsbD_extractLsb', hj', show 32 + (j - 32) = j by omega] using hBit

theorem toNat_thread (hW : thidW ≤ 6) (t : BitVec thidW) : t.toNat < 64 ∧ (t.setWidth 32).toNat = t.toNat := by
  have hThread : t.toNat < 64 := Nat.lt_of_lt_of_le t.isLt (Nat.pow_le_pow_right (by decide) hW)
  exact ⟨hThread, (BitVec.toNat_setWidth ..).trans (Nat.mod_eq_of_lt (by omega))⟩

/-- The address the client computes for half of a row reaches it, with no more than sixty-four threads. -/
theorem ofAddr_half (hW : thidW ≤ 6) {c : FPGAContext} (hBase : c.baseAddress = initBaseAddress) (t : BitVec thidW) {m : Nat}
    (hm : m < 64) (odd : Bool) :
    ofAddr (hostReg (Host.halfAddr (Host.baseOffset c (t.setWidth 32)) m odd)) = some (.buffer (slotHalf t m odd)) := by
  obtain ⟨hThread, hT⟩ := toNat_thread hW t
  have hOdd : odd.toNat ≤ 1 := Bool.toNat_le odd
  have hSum : (Host.halfAddr (Host.baseOffset c (t.setWidth 32)) m odd).toNat = (t.toNat * 128 + 2 * m + odd.toNat) * 4 := by
    simp only [Host.halfAddr, Host.baseOffset, hBase, initBaseAddress, BitVec.toNat_add, BitVec.toNat_mul,
      BitVec.toNat_shiftLeft, hT, BitVec.ofNat_eq_ofNat, BitVec.toNat_ofNat, Nat.shiftLeft_eq]
    omega
  have hAddr := toNat_hostReg hSum (by simp only [csrAddrW]; omega)
  have hWord : (archstateSlave.line 13 (hostReg (Host.halfAddr (Host.baseOffset c (t.setWidth 32)) m odd))).toNat =
      t.toNat * 128 + 2 * m + odd.toNat := by
    rw [CSRBusSlave.line, BitVec.toNat_setWidth, BitVec.toNat_sub, hAddr, BitVec.toNat_ofNat]
    simp only [archstateSlave, csrAddrW]
    omega
  rw [HostedPipeline.ofAddr_eq_buffer_iff]
  refine ⟨decide_eq_true ?_, BitVec.eq_of_toNat_eq ?_⟩
  · rw [hAddr]
    simp only [archstateSlave]
    omega
  · rw [toNat_slotHalf t hm, bufferWord, BitVec.toNat_setWidth, hWord, Nat.mod_eq_of_lt]
    have hLt := (slotHalf t m odd).isLt
    rwa [toNat_slotHalf t hm] at hLt

theorem ofAddr_thread (hW : thidW ≤ 6) {c : FPGAContext} (hBase : c.baseAddress = initBaseAddress) (t : BitVec thidW) :
    ofAddr (hostReg (Host.threadAddr c (t.setWidth 32))) = some (.asid t) := by
  obtain ⟨hThread, hT⟩ := toNat_thread hW t
  have hSum : (Host.threadAddr c (t.setWidth 32)).toNat = (0x2000 + t.toNat) * 4 := by
    simp only [Host.threadAddr, hBase, initBaseAddress, BitVec.toNat_add, BitVec.toNat_mul, hT, BitVec.ofNat_eq_ofNat,
      BitVec.toNat_ofNat]
    omega
  have hAddr := toNat_hostReg hSum (by simp only [csrAddrW]; omega)
  have hWord : (2 ^ csrAddrW - 0x2000 % 2 ^ csrAddrW + (0x2000 + t.toNat)) % 2 ^ csrAddrW = t.toNat := by
    simp only [csrAddrW]
    omega
  rw [HostedPipeline.ofAddr_eq_asid_iff]
  refine ⟨decide_eq_true ?_, BitVec.eq_of_toNat_eq ?_⟩
  · rw [hAddr]
    simp only [thid2asidSlave]
    exact ⟨Nat.le_add_right _ _, Nat.add_lt_add_left t.isLt _⟩
  · rw [CSRBusSlave.line, BitVec.toNat_setWidth, BitVec.toNat_sub, hAddr, BitVec.toNat_ofNat]
    change (2 ^ csrAddrW - 0x2000 % 2 ^ csrAddrW + (0x2000 + t.toNat)) % 2 ^ csrAddrW % 2 ^ thidW = t.toNat
    rw [hWord, Nat.mod_eq_of_lt t.isLt]

theorem mem_pushed {c : FPGAContext} {threadId : BitVec 32} {state : Nat → BitVec 64} {n : Nat}
    {calls : List (AXILCall × BitVec 32)} {u : Unit} (h : (Host.transplantPushState c threadId state n).Does calls (.ok u))
    (access : HostAccess) : access ∈ calls.map HostAccess.ofCall ↔ ∃ m < n, ∃ odd,
      access = .write (hostReg (Host.halfAddr (Host.baseOffset c threadId) m odd)) (Host.half (state m) odd) := by
  have hCalls := Host.does_pushStateLoop h
  have hFirst : ∀ call, call ∈ calls.map Prod.fst ↔ ∃ m < n, ∃ odd,
      call = .write (Host.halfAddr (Host.baseOffset c threadId) m odd) (Host.half (state m) odd) := by
    intro call
    rw [hCalls]
    simp [List.mem_range'_1]
  constructor
  · intro hMem
    obtain ⟨call, hCall, rfl⟩ := List.mem_map.mp hMem
    obtain ⟨m, hm, odd, hEq⟩ := (hFirst call.1).mp (List.mem_map_of_mem hCall)
    exact ⟨m, hm, odd, HostAccess.ofCall_of_write hEq⟩
  · rintro ⟨m, hm, odd, rfl⟩
    obtain ⟨call, hCall, hEq⟩ := List.mem_map.mp ((hFirst _).mpr ⟨m, hm, odd, rfl⟩)
    exact List.mem_map.mpr ⟨call, hCall, HostAccess.ofCall_of_write hEq⟩

theorem mem_got {c : FPGAContext} {threadId : BitVec 32} {state state' : Nat → BitVec 64} {n : Nat}
    {calls : List (AXILCall × BitVec 32)} (h : (Host.transplantGetState c threadId state n).Does calls (.ok state'))
    (access : HostAccess) : access ∈ calls.map HostAccess.ofCall ↔ ∃ m < n, ∃ odd,
      access = .read (hostReg (Host.halfAddr (Host.baseOffset c threadId) m odd)) (Host.half (state' m) odd) := by
  rw [(Host.does_getStateLoop h).2, List.map_flatMap, List.mem_flatMap]
  simp [List.mem_range'_1, HostAccess.ofCall]

/-- The access that registers a thread comes before those of the state. -/
theorem mem_registered {c : FPGAContext} {threadId processId : BitVec 32} {α : Type} {p : Host α} {a : α}
    {calls : List (AXILCall × BitVec 32)}
    (h : (Host.registerThreadWithProcess c threadId processId >>= fun _ => p).Does calls (.ok a)) :
    ∃ rest, p.Does rest (.ok a) ∧ ∀ access, access ∈ calls.map HostAccess.ofCall ↔
      access = .write (hostReg (Host.threadAddr c threadId)) processId ∨ access ∈ rest.map HostAccess.ofCall := by
  obtain ⟨first, rest, _, rfl, hFirst, hRest⟩ := Calls.does_bind_ok_iff.mp h
  obtain ⟨ack, rfl⟩ := Host.does_writeAXIL hFirst
  exact ⟨rest, hRest, fun access => List.mem_cons⟩

theorem lt_of_lt_totRegs {m : Nat} (hm : m < Host.totRegs) : m < 64 := Nat.lt_trans hm (by decide)

theorem written_pushed (hW : thidW ≤ 6) {c : FPGAContext} (hBase : c.baseAddress = initBaseAddress) {t : BitVec thidW}
    {processId : BitVec 32} {state : Nat → Word} {calls : List (AXILCall × BitVec 32)} {u : Unit}
    (h : (Host.registerAndPushState c (t.setWidth 32) processId state).Does calls (.ok u)) (r : HostRegister thidW)
    (data : BitVec axiDataW) : HostAccess.Written (calls.map HostAccess.ofCall) r data ↔
      (r = .asid t ∧ data = processId) ∨
        ∃ m < Host.totRegs, ∃ odd, r = .buffer (slotHalf t m odd) ∧ data = Host.half (state m) odd := by
  obtain ⟨rest, hRest, hMem⟩ := mem_registered h
  constructor
  · rintro ⟨access, hAccess, hData⟩
    rcases (hMem access).mp hAccess with rfl | hState
    · obtain ⟨hReg, hEq⟩ := Option.ite_none_right_eq_some.mp hData
      rw [ofAddr_thread hW hBase] at hReg
      exact .inl ⟨(Option.some.inj hReg).symm, (Option.some.inj hEq).symm⟩
    · obtain ⟨m, hm, odd, rfl⟩ := (mem_pushed hRest access).mp hState
      obtain ⟨hReg, hEq⟩ := Option.ite_none_right_eq_some.mp hData
      rw [ofAddr_half hW hBase t (lt_of_lt_totRegs hm)] at hReg
      exact .inr ⟨m, hm, odd, (Option.some.inj hReg).symm, (Option.some.inj hEq).symm⟩
  · rintro (⟨rfl, rfl⟩ | ⟨m, hm, odd, rfl, rfl⟩)
    · exact ⟨_, (hMem _).mpr (.inl rfl), if_pos (ofAddr_thread hW hBase t)⟩
    · exact ⟨_, (hMem _).mpr (.inr ((mem_pushed hRest _).mpr ⟨m, hm, odd, rfl⟩)),
        if_pos (ofAddr_half hW hBase t (lt_of_lt_totRegs hm) odd)⟩

theorem written_back (hW : thidW ≤ 6) {c : FPGAContext} (hBase : c.baseAddress = initBaseAddress) {t : BitVec thidW}
    {state state' : Nat → Word} {calls : List (AXILCall × BitVec 32)}
    (h : (Host.transplantBack c (t.setWidth 32) state).Does calls (.ok state')) :
    (∀ {r : HostRegister thidW} {data},
      HostAccess.Written (calls.map HostAccess.ofCall) r data ↔ r = .asid t ∧ data = 0) ∧
    ∀ m < Host.totRegs, ∀ odd,
      .read (hostReg (Host.halfAddr (Host.baseOffset c (t.setWidth 32)) m odd)) (Host.half (state' m) odd) ∈
        calls.map HostAccess.ofCall := by
  obtain ⟨rest, hRest, hMem⟩ := mem_registered h
  refine ⟨⟨?_, ?_⟩, fun m hm odd => (hMem _).mpr (.inr ((mem_got hRest _).mpr ⟨m, hm, odd, rfl⟩))⟩
  · rintro ⟨access, hAccess, hData⟩
    rcases (hMem access).mp hAccess with rfl | hState
    · obtain ⟨hReg, hEq⟩ := Option.ite_none_right_eq_some.mp hData
      rw [ofAddr_thread hW hBase] at hReg
      exact ⟨(Option.some.inj hReg).symm, (Option.some.inj hEq).symm⟩
    · obtain ⟨m, hm, odd, rfl⟩ := (mem_got hRest access).mp hState
      cases hData
  · rintro ⟨rfl, rfl⟩
    exact ⟨_, (hMem _).mpr (.inl rfl), if_pos (ofAddr_thread hW hBase t)⟩

end Slots

namespace HostedPipeline

variable {params : PipelineParams} {δ : Type} {asidW : Nat} {x : ExecuteStage δ params.thidW}
  {s : HostedPipeline params δ asidW} {i : Input params}

section Runs

theorem written_eq_access (r : HostRegister params.thidW) :
    s.written i r = (HostAccess.ofPorts (s.ports i)).bind (HostAccess.writtenTo r) := by
  rw [written, HostAccess.ofPorts]
  cases (s.ports i).write with
  | some access => by_cases hReg : ofAddr access.1 = some r <;> simp [Option.filter, HostAccess.writtenTo, hReg]
  | none =>
    cases (s.ports i).r with
    | none => rfl
    | some data => cases (s.ports i).read <;> rfl

theorem buffer_next (hW : params.thidW ≤ 10) {word : BitVec (hostAddrW params.thidW + 1)}
    (hUnit : s.axi.transplantU.stores ≠ some (rowOf word)) :
    (s.next x i).value (.buffer word) = ((s.written i (.buffer word)).map id).getD (s.value (.buffer word)) := by
  rw [value_next hW, valueNext, if_neg hUnit, Option.map_id]
  rfl

/-- What only the writes of the host to a register change, and all of them have one word, is what the word makes of it. -/
theorem run_of_written {α : Type} (shown : HostedPipeline params δ asidW → α) (f : BitVec axiDataW → α)
    {r : HostRegister params.thidW} {is : List (Input params)}
    (hStep : (machine x).Along (fun s i => shown (s.next x i) = ((s.written i r).map f).getD (shown s)) s is)
    {data : BitVec axiDataW} (hSome : HostAccess.Written ((machine x).emitted HostAccess.ofPorts s is) r data)
    (hOnly : ∀ data', HostAccess.Written ((machine x).emitted HostAccess.ofPorts s is) r data' → data' = data) :
    shown ((machine x).run s is) = f data := by
  obtain ⟨access, hMem, hWritten⟩ := hSome
  have hRun : shown ((machine x).run s is) =
      ((((machine x).emitted HostAccess.ofPorts s is).filterMap (HostAccess.writtenTo r)).getLast?.map f).getD (shown s) := by
    rw [← Machine.emitted_bind]
    exact Machine.Along.last_emitted (hStep.mono fun s i h => h.trans (by rw [written_eq_access]; rfl))
  rw [hRun]
  cases hLast : (((machine x).emitted HostAccess.ofPorts s is).filterMap (HostAccess.writtenTo r)).getLast? with
  | none =>
    have hAll := List.filterMap_eq_nil_iff.mp (List.getLast?_eq_none_iff.mp hLast) access hMem
    rw [hWritten] at hAll
    cases hAll
  | some last =>
    obtain ⟨access', hMem', hEq⟩ := List.mem_filterMap.mp (List.mem_of_getLast? hLast)
    rw [← hOnly last ⟨access', hMem', hEq⟩]
    rfl

theorem written_eq_none (r : HostRegister params.thidW) {is : List (Input params)}
    (hQuiet : ∀ data, ¬ HostAccess.Written ((machine x).emitted HostAccess.ofPorts s is) r data) :
    (machine x).Along (fun s i => s.written i r = none) s is := by
  have hNone : (machine x).emitted (fun o => (HostAccess.ofPorts o).bind (HostAccess.writtenTo r)) s is = [] := by
    rw [Machine.emitted_bind, List.filterMap_eq_nil_iff]
    intro access hMem
    exact Option.eq_none_iff_forall_not_mem.mpr fun data hData => hQuiet data ⟨access, hMem, hData⟩
  exact ((Machine.emitted_eq_nil_iff s is).mp hNone).mono fun s i h => (written_eq_access r).trans h

/-- A read of half of a row that is underway has seen what is there. -/
def Steady (word : BitVec (hostAddrW params.thidW + 1)) (s : HostedPipeline params δ asidW) : Prop :=
  s.port.axilToCSR.state = .sReadData → ofAddr s.addr = some (.buffer word) → s.seen = s.value (.buffer word)

theorem steady_of_idle (h : s.Transfer .idle) (word : BitVec (hostAddrW params.thidW + 1)) : s.Steady word := by
  intro hState
  have hShown : s.bridge.csr.state = .sReadData := hState
  cases h with
  | idle a hCsr => rw [hCsr] at hShown; cases hShown
  | answeredAw a _ hCsr => rw [hCsr] at hShown; cases hShown
  | answeredAr a _ hCsr => rw [hCsr] at hShown; cases hShown

theorem Inv.steady_next (h : s.Inv) {word : BitVec (hostAddrW params.thidW + 1)} (hSteady : s.Steady word)
    (hKept : (s.next x i).value (.buffer word) = s.value (.buffer word)) : (s.next x i).Steady word := by
  intro hData hAddr
  change (s.port.axilToCSR.next i.master).state = .sReadData at hData
  obtain ⟨state, a, hState⟩ := h.flagged
  rw [hState] at hData
  rw [hKept]
  rcases WatchedCSR.reads_of_next _ hData with ⟨rfl, hAr⟩ | ⟨rfl, hReady⟩
  · obtain ⟨-, hSame, hSeen⟩ := takes_ar (x := x) hState hAr
    rw [hSame] at hAddr
    rw [hSeen, valueAt, hAddr]
    rfl
  · obtain ⟨-, hSame, hSeen⟩ := awaits_r (x := x) hState hReady
    rw [hSame] at hAddr
    rw [hSeen]
    exact hSteady (by rw [hState]; rfl) hAddr

theorem Inv.read_eq (h : s.Inv) (hAtomic : s.Atomic x i) {word : BitVec (hostAddrW params.thidW + 1)} (hSteady : s.Steady word)
    {reg : BitVec csrAddrW} {data : BitVec axiDataW} (hAccess : HostAccess.ofPorts (s.ports i) = some (.read reg data))
    (hReg : ofAddr reg = some (.buffer word)) : data = s.value (.buffer word) := by
  rw [HostAccess.ofPorts] at hAccess
  cases hWrite : (s.ports i).write with
  | some access => rw [hWrite] at hAccess; cases hAccess
  | none =>
    rw [hWrite, Option.bind_eq_some_iff] at hAccess
    obtain ⟨shown, hR, hMap⟩ := hAccess
    obtain ⟨a, hRead, hEq⟩ := Option.map_eq_some_iff.mp hMap
    obtain ⟨rfl, rfl⟩ := HostAccess.read.inj hEq
    obtain ⟨hFire, -⟩ := Option.ite_none_right_eq_some.mp hR
    obtain ⟨-, hName⟩ := Option.ite_none_right_eq_some.mp hRead
    obtain ⟨state, b, hState⟩ := h.flagged
    have hValid : s.port.axilToCSR.rvalid = true := (Bool.and_eq_true_iff.mp hFire).2
    have hData : s.port.axilToCSR.state = .sReadData := by
      rw [hState] at hValid ⊢
      exact of_decide_eq_true hValid
    rw [hAtomic.read shown hR a hRead, if_pos (ofAddr_eq_buffer_iff.mp hReg).1]
    refine hSteady hData ?_
    rw [← hReg, ← Option.some.inj hName]
    rfl

/-- In a run in which neither the host nor the unit writes half of a row, the reads of it that begin in the run have its word. -/
theorem reads_run (hW : params.thidW ≤ 10) (h : s.Inv) {word : BitVec (hostAddrW params.thidW + 1)} (hSteady : s.Steady word)
    {is : List (Input params)} (hRule : (machine x).Along Rule s is)
    (hUnit : (machine x).Along (fun s _ => s.axi.transplantU.stores ≠ some (rowOf word)) s is)
    (hQuiet : (machine x).Along (fun s i => s.written i (.buffer word) = none) s is) {reg : BitVec csrAddrW} {data : BitVec axiDataW}
    (hAccess : .read reg data ∈ (machine x).emitted HostAccess.ofPorts s is) (hReg : ofAddr reg = some (.buffer word)) :
    data = s.value (.buffer word) := by
  induction is generalizing s with
  | nil => cases hAccess
  | cons i is ih =>
    rw [Machine.emitted_cons, List.mem_append, Option.mem_toList] at hAccess
    rcases hAccess with hFirst | hLater
    · exact h.read_eq (h.atomic hW : s.Atomic x i) hSteady hFirst hReg
    · have hKept : (s.next x i).value (.buffer word) = s.value (.buffer word) := by rw [buffer_next hW hUnit.1, hQuiet.1]; rfl
      rw [← hKept]
      exact ih (h.next hRule.1) (h.steady_next hSteady hKept) hRule.2 hUnit.2 hQuiet.2 hLater

theorem value_slotHalf (t : params.Thid) (m : Nat) (odd : Bool) :
    s.value (.buffer (slotHalf t m odd)) = Host.half (s.axi.transplantU.slotWord t m) odd := by
  rw [value, side_slotHalf, rowOf_slotHalf, half_eq]
  rfl

theorem asid_run {t : params.Thid} {is : List (Input params)} {processId : BitVec axiDataW}
    (hWritten : ∀ data, HostAccess.Written ((machine x).emitted HostAccess.ofPorts s is) (.asid t) data ↔ data = processId) :
    ((machine x).run s is).port.thid2asid.asid t = processId.setWidth asidW :=
  run_of_written (fun s => s.port.thid2asid.asid t) (BitVec.setWidth asidW)
    (Machine.along_of_forall (fun _ _ => asid_written t) s is) ((hWritten processId).mpr rfl) fun data => (hWritten data).mp

/-- A client that has registered a thread and pushed its state finds both there, and has written nothing else. -/
theorem pushed_run (hW : params.thidW ≤ 6) {ctx : FPGAContext} (hBase : ctx.baseAddress = initBaseAddress) (t : params.Thid)
    {is : List (Input params)}
    (hUnit : (machine x).Along (fun s _ => ∀ m < Host.totRegs, s.axi.transplantU.stores ≠ some (slotRow t m)) s is)
    {calls : List (AXILCall × BitVec 32)} (hCalls : (machine x).emitted HostAccess.ofPorts s is = calls.map HostAccess.ofCall)
    {processId : BitVec 32} {state : Nat → Word} {u : Unit}
    (hDoes : (Host.registerAndPushState ctx (t.setWidth 32) processId state).Does calls (.ok u)) :
    ((machine x).run s is).port.thid2asid.asid t = processId.setWidth asidW ∧
    (∀ m < Host.totRegs, ((machine x).run s is).axi.transplantU.slotWord t m = state m) ∧
    ∀ r, r ≠ .asid t → (∀ m < Host.totRegs, ∀ odd, r ≠ .buffer (slotHalf t m odd)) →
      (machine x).Along (fun s i => s.written i r = none) s is := by
  have hWritten := fun r data => hCalls ▸ written_pushed hW hBase hDoes r data
  refine ⟨asid_run fun data => ?_, fun m hm => word_eq_of_halves fun odd => ?_, fun r hAsid hOther => ?_⟩
  · rw [hWritten]
    simp
  · rw [half_eq, half_eq, ← value_slotHalf]
    refine run_of_written (fun s => s.value (.buffer (slotHalf t m odd))) id (hUnit.mono fun s i hStores => ?_)
      ((hWritten _ _).mpr (.inr ⟨m, hm, odd, rfl, rfl⟩)) fun data hData => ?_
    · refine buffer_next (Nat.le_trans hW (by decide)) ?_
      rw [rowOf_slotHalf]
      exact hStores m hm
    · rcases (hWritten _ _).mp hData with ⟨hReg, -⟩ | ⟨m', hm', odd', hReg, rfl⟩
      · cases hReg
      · obtain ⟨rfl, rfl⟩ := slotHalf_injective (lt_of_lt_totRegs hm) (lt_of_lt_totRegs hm') (HostRegister.buffer.inj hReg)
        rfl
  · refine written_eq_none r fun data hData => ?_
    rcases (hWritten _ _).mp hData with ⟨hReg, -⟩ | ⟨m, hm, odd, hReg, -⟩
    · exact hAsid hReg
    · exact hOther m hm odd hReg

/-- A client that transplants a thread back gets the state of its slot, and writes nothing but the register of the thread. -/
theorem got_run (hW : params.thidW ≤ 6) {ctx : FPGAContext} (hBase : ctx.baseAddress = initBaseAddress) (t : params.Thid)
    {is : List (Input params)} (h : s.Inv) (hIdle : s.Transfer .idle) (hRule : (machine x).Along Rule s is)
    (hUnit : (machine x).Along (fun s _ => ∀ m < Host.totRegs, s.axi.transplantU.stores ≠ some (slotRow t m)) s is)
    {calls : List (AXILCall × BitVec 32)} (hCalls : (machine x).emitted HostAccess.ofPorts s is = calls.map HostAccess.ofCall)
    {state state' : Nat → Word} (hDoes : (Host.transplantBack ctx (t.setWidth 32) state).Does calls (.ok state')) :
    ((machine x).run s is).port.thid2asid.asid t = 0 ∧
    (∀ m < Host.totRegs, state' m = s.axi.transplantU.slotWord t m) ∧
    ∀ r, r ≠ .asid t → (machine x).Along (fun s i => s.written i r = none) s is := by
  obtain ⟨hWritten, hReads⟩ := written_back hW hBase hDoes
  rw [← hCalls] at hWritten hReads
  have hQuiet : ∀ r, r ≠ .asid t → (machine x).Along (fun s i => s.written i r = none) s is := fun r hAsid =>
    written_eq_none r fun data hData => hAsid (hWritten.mp hData).1
  refine ⟨(asid_run fun data => ?_).trans (BitVec.setWidth_zero asidW 32), fun m hm => word_eq_of_halves fun odd => ?_, hQuiet⟩
  · exact hWritten.trans (and_iff_right rfl)
  · rw [half_eq, half_eq, ← value_slotHalf]
    refine reads_run (Nat.le_trans hW (by decide)) h (steady_of_idle hIdle _) hRule (hUnit.mono fun s _ hStores => ?_)
      (hQuiet _ (by simp)) (hReads m hm odd) (ofAddr_half hW hBase t (lt_of_lt_totRegs hm) odd)
    rw [rowOf_slotHalf]
    exact hStores m hm

end Runs

variable (x) in
/-- The client and the port agree on where the threads and their slots are. In every run of a host that shows its addresses
until they are taken, and whose accesses from an idle cycle on are the calls of the client: when the client has registered a
thread and pushed its state, the thread has the address space and its slot the state; when it has transplanted a thread back,
the state it got is the one of the slot, and the thread is out of its address space; and no other register was written. The
unit does not store to the slot in the meantime. -/
theorem state_transferred (hW : params.thidW ≤ 6) (c : Contents params asidW) {ctx : FPGAContext}
    (hBase : ctx.baseAddress = initBaseAddress) (t : params.Thid) (before during : List (Input params))
    (hRule : (machine x).Along Rule (reset c) (before ++ during)) (hIdle : ((machine x).run (reset c) before).Transfer .idle)
    (hUnit : (machine x).Along (fun s _ => ∀ m < Host.totRegs, s.axi.transplantU.stores ≠ some (slotRow t m))
      ((machine x).run (reset c) before) during) {calls : List (AXILCall × BitVec 32)}
    (hCalls : (machine x).emitted HostAccess.ofPorts ((machine x).run (reset c) before) during = calls.map HostAccess.ofCall) :
    (∀ processId state u, (Host.registerAndPushState ctx (t.setWidth 32) processId state).Does calls (.ok u) →
      ((machine x).run (reset c) (before ++ during)).port.thid2asid.asid t = processId.setWidth asidW ∧
      (∀ m < Host.totRegs, ((machine x).run (reset c) (before ++ during)).axi.transplantU.slotWord t m = state m) ∧
      ∀ r, r ≠ .asid t → (∀ m < Host.totRegs, ∀ odd, r ≠ .buffer (slotHalf t m odd)) →
        (machine x).Along (fun s i => s.written i r = none) ((machine x).run (reset c) before) during) ∧
    ∀ state state', (Host.transplantBack ctx (t.setWidth 32) state).Does calls (.ok state') →
      ((machine x).run (reset c) (before ++ during)).port.thid2asid.asid t = 0 ∧
      (∀ m < Host.totRegs, state' m = ((machine x).run (reset c) before).axi.transplantU.slotWord t m) ∧
      ∀ r, r ≠ .asid t →
        (machine x).Along (fun s i => s.written i r = none) ((machine x).run (reset c) before) during := by
  obtain ⟨hBefore, hDuring⟩ := (Machine.along_append (reset c) before during).mp hRule
  have hInv : ((machine x).run (reset c) before).Inv :=
    hBefore.invariant (inv_reset c) fun _ _ (h : Inv _) hHeld => h.next hHeld
  rw [Machine.run_append]
  constructor
  · intro processId state u hDoes
    exact pushed_run hW hBase t hUnit hCalls hDoes
  · intro state state' hDoes
    exact got_run hW hBase t hInv hIdle hDuring hUnit hCalls hDoes

section TwoThreads

open WatchedPipeline PipelineAxi

def openContext : FPGAContext := ⟨3, initBaseAddress⟩

/-- The cycles of a call: the port is idle in front of it and behind it. -/
def carry : AXILCall × BitVec 32 → List (Input twoThreads)
  | (.write addr data, _) => writeWord (addr.setWidth 16) data
  | (.read addr, _) => readWord (addr.setWidth 16)

/-- Register `m` has the words `2 * m` and `2 * m + 1`. -/
def counting (m : Nat) : Word := BitVec.ofNat 32 (2 * m + 1) ++ BitVec.ofNat 32 (2 * m)

/-- X0 of thread 1 is 0x600000005, its other words are 0. -/
def answer : AXILCall → BitVec 32
  | .write _ _ => 0
  | .read addr => if addr = 0x200 then 5 else if addr = 0x204 then 6 else 0

def pushed : List (AXILCall × BitVec 32) := ((Host.registerAndPushState openContext 1 2 counting).answered answer).1

def back : List (AXILCall × BitVec 32) := ((Host.transplantBack openContext 1 fun _ => 0).answered answer).1

def filledX0 : List (Input twoThreads) := writeWord 0x200 5 ++ writeWord 0x204 6

theorem stores_ne_of_none {s : HostedPipeline twoThreads Unit 2} {t : twoThreads.Thid} {is : List (Input twoThreads)}
    (h : (machine (loads false)).Along (fun s _ => s.axi.transplantU.stores = none) s is) :
    (machine (loads false)).Along (fun s _ => ∀ m < Host.totRegs, s.axi.transplantU.stores ≠ some (slotRow t m)) s is :=
  h.mono fun s _ hNone m _ => by simp [hNone]

theorem state_transferred_two :
    ((machine (loads false)).run (reset ⟨powerUpOf 1, 0⟩ : HostedPipeline twoThreads Unit 2)
      (pushed.flatMap carry)).axi.transplantU.slotWord 1 34 = counting 34 ∧
    ∃ state' : Nat → Word, (Host.transplantBack openContext 1 fun _ => 0).Does back (.ok state') ∧ state' 0 =
      ((machine (loads false)).run (reset ⟨powerUpOf 1, 0⟩ : HostedPipeline twoThreads Unit 2)
        filledX0).axi.transplantU.slotWord 1 0 := by
  have hPush : (Host.registerAndPushState openContext 1 2 counting).Does pushed (.ok ()) :=
    Calls.does_answered answer (Host.registerAndPushState openContext 1 2 counting)
  have hBack : (Host.transplantBack openContext 1 fun _ => 0).Does back (.ok _) :=
    Calls.does_answered answer (Host.transplantBack openContext 1 fun _ => 0)
  refine ⟨?_, _, hBack, ?_⟩
  · exact ((state_transferred (loads false) (by decide) ⟨powerUpOf 1, 0⟩ rfl (1 : twoThreads.Thid) [] (pushed.flatMap carry)
      (by decide +kernel) (.idle 0 rfl) (stores_ne_of_none (by decide +kernel)) (by decide +kernel)).1
      2 counting () hPush).2.1 34 (by decide)
  · exact ((state_transferred (loads false) (by decide) ⟨powerUpOf 1, 0⟩ rfl (1 : twoThreads.Thid) filledX0
      (back.flatMap carry) (by decide +kernel) (.idle 0x81 (by decide +kernel)) (stores_ne_of_none (by decide +kernel))
      (by decide +kernel)).2 (fun _ => 0) _ hBack).2.1 0 (by decide)

end TwoThreads

end HostedPipeline

end KnockoutKraken.Armflex

import KnockoutKraken.Antmicro.CSR
import KnockoutKraken.Library.Machine

/-!
# From the bus of the host to the registers

The bridge takes one transfer at a time. It answers an address a cycle
after it has seen it, and it keeps the address it has seen: a master that
took its address back would make the bridge write somewhere else. A read
is shown to the registers twice, with its address and with its data, so
that a block memory has its row ready.
-/

namespace KnockoutKraken.Antmicro

open Library

section Bus

structure CSRBusBundle (addrWidth dataWidth : Nat) where
  addr : BitVec addrWidth
  dataOut : BitVec dataWidth
  write : Bool
  read : Bool
deriving DecidableEq

structure CSRBusSlave where
  addrStart : Nat
  regCount : Nat

variable {addrWidth dataWidth : Nat} (slave : CSRBusSlave) (master : CSRBusBundle addrWidth dataWidth)

def CSRBusSlave.hit (addr : BitVec addrWidth) : Bool :=
  decide (slave.addrStart ≤ addr.toNat ∧ addr.toNat < slave.addrStart + slave.regCount)

/-- The register of a slave behind an address; the slave may have fewer address lines. -/
def CSRBusSlave.line (width : Nat) (addr : BitVec addrWidth) : BitVec width :=
  (addr - BitVec.ofNat addrWidth slave.addrStart).setWidth width

def CSRBusSlave.bus (width : Nat) : CSRBusBundle width dataWidth where
  addr := slave.line width master.addr
  dataOut := master.dataOut
  write := master.write && slave.hit master.addr
  read := master.read && slave.hit master.addr

/-- What the slaves answer the master: of several that are hit the last one, and a mark of its own when none is. -/
def csrDataIn (default : BitVec dataWidth) (slaves : List (CSRBusSlave × BitVec dataWidth)) (addr : BitVec addrWidth) :
    BitVec dataWidth :=
  slaves.foldl (fun dataIn slave => if slave.1.hit addr then slave.2 else dataIn) default

def CSRBusBundle.write? : Option (CSRBusWrite dataWidth) :=
  if master.write then some ⟨master.addr.toNat, master.dataOut⟩ else none

end Bus

inductive CSRState where
  | sIdle | sReadAddr | sReadData | sWriteAddr | sWriteData | sWriteResp
deriving DecidableEq

/-- The registers are named by `regWidth` bits; the bus counts in bytes. -/
structure AXI4LiteCSR (regWidth : Nat) where
  state : CSRState
  awready : Bool
  wready : Bool
  bvalid : Bool
  arready : Bool
  rvalid : Bool
  addr : BitVec (regWidth + 2)
deriving DecidableEq

structure AXI4LiteMaster (addrWidth dataWidth : Nat) where
  aw : Option (BitVec addrWidth)
  w : Option (BitVec dataWidth)
  bready : Bool
  ar : Option (BitVec addrWidth)
  rready : Bool

namespace AXI4LiteCSR

variable {regWidth dataWidth : Nat}

def reset (regWidth : Nat) : AXI4LiteCSR regWidth := ⟨.sIdle, false, false, false, false, false, 0⟩

variable (u : AXI4LiteCSR regWidth) (m : AXI4LiteMaster (regWidth + 2) dataWidth)

def register (addr : BitVec (regWidth + 2)) : BitVec regWidth := (addr >>> 2).setWidth regWidth

@[simp] def awFire : Option (BitVec (regWidth + 2)) := if u.awready then m.aw else none

@[simp] def wFire : Option (BitVec dataWidth) := if u.wready then m.w else none

@[simp] def bFire : Bool := m.bready && u.bvalid

@[simp] def arFire : Option (BitVec (regWidth + 2)) := if u.arready then m.ar else none

@[simp] def rFire : Bool := m.rready && u.rvalid

@[simp] def bus : CSRBusBundle regWidth dataWidth where
  addr := u.addr.setWidth regWidth
  dataOut := m.w.getD 0
  write := (u.wFire m).isSome
  read := u.rFire m || (u.arFire m).isSome

def next : AXI4LiteCSR regWidth :=
  match u.state with
  | .sIdle =>
    match m.aw, m.ar with
    | some addr, _ => { u with state := .sWriteAddr, addr := addr >>> 2, awready := true }
    | none, some addr => { u with state := .sReadAddr, addr := addr >>> 2, arready := true }
    | none, none => u
  | .sReadAddr => if (u.arFire m).isSome then { u with state := .sReadData, arready := false, rvalid := true } else u
  | .sReadData => if u.rFire m then { u with state := .sIdle, rvalid := false } else u
  | .sWriteAddr => if (u.awFire m).isSome then { u with state := .sWriteData, awready := false, wready := true } else u
  | .sWriteData => if (u.wFire m).isSome then { u with state := .sWriteResp, wready := false, bvalid := true } else u
  | .sWriteResp => if u.bFire m then { u with state := .sIdle, bvalid := false } else u

end AXI4LiteCSR

section Spec

/-- What the channels and the registers see in a cycle: the transfers of the channels, and the accesses of the registers. -/
structure CSRPorts (regWidth dataWidth : Nat) where
  /-- What the registers answer. -/
  dataIn : BitVec dataWidth
  aw : Option (BitVec (regWidth + 2)) := none
  w : Option (BitVec dataWidth) := none
  b : Bool := false
  ar : Option (BitVec (regWidth + 2)) := none
  r : Option (BitVec dataWidth) := none
  write : Option (BitVec regWidth × BitVec dataWidth) := none
  read : Option (BitVec regWidth) := none
deriving DecidableEq

inductive CSRTransfer (regWidth : Nat) where
  | idle
  | writing (reg : BitVec regWidth)
  | written
  | reading (reg : BitVec regWidth)
deriving DecidableEq

/-- The cycles of transfers one at a time: a write reaches its register with its data and is then answered, a read reaches
its register with its address and again with the data it is answered with. -/
inductive CSRCycle {regWidth dataWidth : Nat} : CSRTransfer regWidth → CSRPorts regWidth dataWidth → CSRTransfer regWidth → Prop
  | wait (t d) : CSRCycle t { dataIn := d } t
  | aw (addr d) : CSRCycle .idle { dataIn := d, aw := some addr } (.writing (AXI4LiteCSR.register addr))
  | w (reg data d) : CSRCycle (.writing reg) { dataIn := d, w := some data, write := some (reg, data) } .written
  | b (d) : CSRCycle .written { dataIn := d, b := true } .idle
  | ar (addr d) : CSRCycle .idle { dataIn := d, ar := some addr, read := some (AXI4LiteCSR.register addr) }
      (.reading (AXI4LiteCSR.register addr))
  | r (reg d) : CSRCycle (.reading reg) { dataIn := d, r := some d, read := some reg } .idle

end Spec

namespace AXI4LiteCSR

variable {regWidth dataWidth : Nat}

def ports (u : AXI4LiteCSR regWidth) (m : AXI4LiteMaster (regWidth + 2) dataWidth) (dataIn : BitVec dataWidth) :
    CSRPorts regWidth dataWidth where
  dataIn := dataIn
  aw := u.awFire m
  w := u.wFire m
  b := u.bFire m
  ar := u.arFire m
  r := if u.rFire m then some dataIn else none
  write := if (u.bus m).write then some ((u.bus m).addr, (u.bus m).dataOut) else none
  read := if (u.bus m).read then some (u.bus m).addr else none

end AXI4LiteCSR

/-- The bridge and the addresses that were shown and not yet taken. -/
structure WatchedCSR (regWidth : Nat) where
  csr : AXI4LiteCSR regWidth
  aw : Option (BitVec (regWidth + 2))
  ar : Option (BitVec (regWidth + 2))
deriving DecidableEq

namespace WatchedCSR

variable {regWidth dataWidth : Nat}

def reset (regWidth : Nat) : WatchedCSR regWidth := ⟨.reset regWidth, none, none⟩

variable (s : WatchedCSR regWidth) (m : AXI4LiteMaster (regWidth + 2) dataWidth) (dataIn : BitVec dataWidth)

def next : WatchedCSR regWidth where
  csr := s.csr.next m
  aw := if (s.csr.awFire m).isSome then none else m.aw
  ar := if (s.csr.arFire m).isSome then none else m.ar

def machine (regWidth dataWidth : Nat) : Machine (WatchedCSR regWidth)
    (AXI4LiteMaster (regWidth + 2) dataWidth × BitVec dataWidth) (CSRPorts regWidth dataWidth) where
  next s i := s.next i.1
  output s i := s.csr.ports i.1 i.2

/-- A master shows an address until it is taken. -/
structure Held : Prop where
  aw : ∀ addr ∈ s.aw, m.aw = some addr
  ar : ∀ addr ∈ s.ar, m.ar = some addr

instance : Decidable (s.Held m) :=
  decidable_of_iff (s.aw.all (m.aw == some ·) = true ∧ s.ar.all (m.ar == some ·) = true)
    ⟨fun ⟨hAw, hAr⟩ => ⟨by simpa [Option.all_eq_true] using hAw, by simpa [Option.all_eq_true] using hAr⟩,
      fun h => ⟨by simpa [Option.all_eq_true] using h.aw, by simpa [Option.all_eq_true] using h.ar⟩⟩

def flagged (state : CSRState) (addr : BitVec (regWidth + 2)) : AXI4LiteCSR regWidth where
  state := state
  awready := decide (state = .sWriteAddr)
  wready := decide (state = .sWriteData)
  bvalid := decide (state = .sWriteResp)
  arready := decide (state = .sReadAddr)
  rvalid := decide (state = .sReadData)
  addr := addr

theorem ports_flagged (state : CSRState) (addr : BitVec (regWidth + 2)) : (flagged state addr).ports m dataIn =
    match state with
    | .sIdle => { dataIn := dataIn }
    | .sReadAddr => { dataIn := dataIn, ar := m.ar, read := m.ar.map fun _ => addr.setWidth regWidth }
    | .sReadData => if m.rready then { dataIn := dataIn, r := some dataIn, read := some (addr.setWidth regWidth) }
        else { dataIn := dataIn }
    | .sWriteAddr => { dataIn := dataIn, aw := m.aw }
    | .sWriteData => { dataIn := dataIn, w := m.w, write := m.w.map fun data => (addr.setWidth regWidth, data) }
    | .sWriteResp => { dataIn := dataIn, b := m.bready } := by
  cases state with
  | sIdle => simp [AXI4LiteCSR.ports, flagged]
  | sReadAddr => cases hAr : m.ar <;> simp [AXI4LiteCSR.ports, flagged, hAr]
  | sReadData => cases hR : m.rready <;> simp [AXI4LiteCSR.ports, flagged, hR]
  | sWriteAddr => simp [AXI4LiteCSR.ports, flagged]
  | sWriteData => cases hW : m.w <;> simp [AXI4LiteCSR.ports, flagged, hW]
  | sWriteResp => simp [AXI4LiteCSR.ports, flagged]

theorem next_flagged (state : CSRState) (addr : BitVec (regWidth + 2)) : (flagged state addr).next m =
    match state with
    | .sIdle =>
      match m.aw, m.ar with
      | some shown, _ => flagged .sWriteAddr (shown >>> 2)
      | none, some shown => flagged .sReadAddr (shown >>> 2)
      | none, none => flagged .sIdle addr
    | .sReadAddr => flagged (if m.ar.isSome then .sReadData else .sReadAddr) addr
    | .sReadData => flagged (if m.rready then .sIdle else .sReadData) addr
    | .sWriteAddr => flagged (if m.aw.isSome then .sWriteData else .sWriteAddr) addr
    | .sWriteData => flagged (if m.w.isSome then .sWriteResp else .sWriteData) addr
    | .sWriteResp => flagged (if m.bready then .sIdle else .sWriteResp) addr := by
  cases state with
  | sIdle => cases hAw : m.aw <;> cases hAr : m.ar <;> simp [AXI4LiteCSR.next, flagged, hAw, hAr]
  | sReadAddr => cases hAr : m.ar <;> simp [AXI4LiteCSR.next, flagged, hAr]
  | sReadData => cases hR : m.rready <;> simp [AXI4LiteCSR.next, flagged, hR]
  | sWriteAddr => cases hAw : m.aw <;> simp [AXI4LiteCSR.next, flagged, hAw]
  | sWriteData => cases hW : m.w <;> simp [AXI4LiteCSR.next, flagged, hW]
  | sWriteResp => cases hB : m.bready <;> simp [AXI4LiteCSR.next, flagged, hB]

theorem reads_of_next {state : CSRState} {addr : BitVec (regWidth + 2)} (hNext : ((flagged state addr).next m).state = .sReadData) :
    (state = .sReadAddr ∧ m.ar.isSome = true) ∨ (state = .sReadData ∧ m.rready = false) := by
  rw [next_flagged] at hNext
  cases state with
  | sIdle => cases hAw : m.aw <;> cases hAr : m.ar <;> simp [hAw, hAr, flagged] at hNext
  | sReadAddr =>
    cases hAr : m.ar.isSome with
    | true => exact .inl ⟨rfl, rfl⟩
    | false => simp [hAr, flagged] at hNext
  | sReadData =>
    cases hReady : m.rready with
    | true => simp [hReady, flagged] at hNext
    | false => exact .inr ⟨rfl, rfl⟩
  | sWriteAddr => cases hAw : m.aw <;> simp [hAw, flagged] at hNext
  | sWriteData => cases hW : m.w <;> simp [hW, flagged] at hNext
  | sWriteResp => cases hB : m.bready <;> simp [hB, flagged] at hNext

/-- The bridge in its transfer: an address it has answered is one that is still shown. -/
inductive Serves (s : WatchedCSR regWidth) : CSRTransfer regWidth → Prop
  | idle (addr) : s.csr = flagged .sIdle addr → Serves s .idle
  | answeredAw (addr) : s.aw = some addr → s.csr = flagged .sWriteAddr (addr >>> 2) → Serves s .idle
  | answeredAr (addr) : s.ar = some addr → s.csr = flagged .sReadAddr (addr >>> 2) → Serves s .idle
  | writing (addr) : s.csr = flagged .sWriteData addr → Serves s (.writing (addr.setWidth regWidth))
  | written (addr) : s.csr = flagged .sWriteResp addr → Serves s .written
  | reading (addr) : s.csr = flagged .sReadData addr → Serves s (.reading (addr.setWidth regWidth))

variable {s} {m}

theorem serves_step (t : CSRTransfer regWidth) (h : s.Serves t) (hHeld : s.Held m) :
    ∃ t', CSRCycle t (s.csr.ports m dataIn) t' ∧ (s.next m).Serves t' := by
  cases h with
  | idle addr hCsr =>
    have hNext : (s.next m).csr = (flagged .sIdle addr).next m := congrArg (AXI4LiteCSR.next · m) hCsr
    rw [next_flagged] at hNext
    rw [hCsr, ports_flagged]
    refine ⟨.idle, .wait .idle dataIn, ?_⟩
    have hNone : s.csr.awready = false ∧ s.csr.arready = false := by rw [hCsr]; exact ⟨rfl, rfl⟩
    cases hAw : m.aw with
    | some shown => exact .answeredAw shown (by simp [next, hNone, hAw]) (by simpa [hAw] using hNext)
    | none =>
      cases hAr : m.ar with
      | some shown =>
        exact .answeredAr shown (by simp [next, hNone, hAr]) (by simpa [hAw, hAr] using hNext)
      | none => exact .idle addr (by simpa [hAw, hAr] using hNext)
  | answeredAw addr hShown hCsr =>
    have hAw : m.aw = some addr := hHeld.aw addr hShown
    have hNext : (s.next m).csr = (flagged .sWriteAddr (addr >>> 2)).next m := congrArg (AXI4LiteCSR.next · m) hCsr
    rw [next_flagged, hAw] at hNext
    rw [hCsr, ports_flagged, hAw]
    exact ⟨_, .aw addr dataIn, .writing (addr >>> 2) hNext⟩
  | answeredAr addr hShown hCsr =>
    have hAr : m.ar = some addr := hHeld.ar addr hShown
    have hNext : (s.next m).csr = (flagged .sReadAddr (addr >>> 2)).next m := congrArg (AXI4LiteCSR.next · m) hCsr
    rw [next_flagged, hAr] at hNext
    rw [hCsr, ports_flagged, hAr]
    exact ⟨_, .ar addr dataIn, .reading (addr >>> 2) hNext⟩
  | writing addr hCsr =>
    have hNext : (s.next m).csr = (flagged .sWriteData addr).next m := congrArg (AXI4LiteCSR.next · m) hCsr
    rw [next_flagged] at hNext
    rw [hCsr, ports_flagged]
    cases hW : m.w with
    | none => exact ⟨_, .wait _ dataIn, .writing addr (by rwa [hW] at hNext)⟩
    | some data => exact ⟨_, .w _ data dataIn, .written addr (by rwa [hW] at hNext)⟩
  | written addr hCsr =>
    have hNext : (s.next m).csr = (flagged .sWriteResp addr).next m := congrArg (AXI4LiteCSR.next · m) hCsr
    rw [next_flagged] at hNext
    rw [hCsr, ports_flagged]
    cases hB : m.bready with
    | false => exact ⟨_, .wait _ dataIn, .written addr (by rwa [hB] at hNext)⟩
    | true => exact ⟨_, .b dataIn, .idle addr (by rwa [hB] at hNext)⟩
  | reading addr hCsr =>
    have hNext : (s.next m).csr = (flagged .sReadData addr).next m := congrArg (AXI4LiteCSR.next · m) hCsr
    rw [next_flagged] at hNext
    rw [hCsr, ports_flagged]
    cases hR : m.rready with
    | false => exact ⟨_, .wait _ dataIn, .reading addr (by rwa [hR] at hNext)⟩
    | true => exact ⟨_, .r _ dataIn, .idle addr (by rwa [hR] at hNext)⟩

/-- In every run of a master that shows its addresses until they are taken, the channels and the registers see one transfer
after the other: each write reaches the register of its own address once, with its own data, and each read is answered with
what the register of its own address shows. -/
theorem transfers_bridged (regWidth dataWidth : Nat) {is : List (AXI4LiteMaster (regWidth + 2) dataWidth × BitVec dataWidth)}
    (hHeld : (machine regWidth dataWidth).Along (fun s i => s.Held i.1) (reset regWidth) is) :
    Machine.Accepts CSRCycle .idle ((machine regWidth dataWidth).trace (reset regWidth) is) :=
  hHeld.accepts (.idle 0 rfl : (reset regWidth).Serves .idle) fun _ t i hServes h => serves_step i.2 t hServes h

end WatchedCSR

end KnockoutKraken.Antmicro

import KnockoutKraken.Antmicro.Bus
import KnockoutKraken.Library.Machine
import KnockoutKraken.Library.OneHot
import KnockoutKraken.Util.RingQueue

/-!
# One master and several slaves

An address goes to the slave whose segment it is in, and a short queue
remembers the slave: read beats are taken from, and write beats sent to,
the slave at its head. A second queue, filled when the last beat of a
write is sent, remembers where its response comes from. An address is
accepted whether or not the queue has room.
-/

namespace KnockoutKraken.Util

open Library Antmicro

structure AddressMap (n : Nat) where
  addrSegment : Fin (n + 1) → Nat
  addrMask : Fin (n + 1) → Nat

namespace AddressMap

variable {n addrW : Nat} (map : AddressMap n)

def hits (addr : BitVec addrW) (i : Fin (n + 1)) : Bool := decide (addr.toNat &&& map.addrMask i = map.addrSegment i)

def which (addr : BitVec addrW) : Fin (n + 1) := ohToIndex (map.hits addr)

/-- The address is in exactly one segment. -/
def Single (addr : BitVec addrW) : Prop := ∃ i, ∀ j, map.hits addr j = decide (j = i)

theorem hits_eq {addr : BitVec addrW} (h : map.Single addr) (j : Fin (n + 1)) : map.hits addr j = decide (j = map.which addr) := by
  obtain ⟨i, hi⟩ := h
  rw [which, ohToIndex_of_single hi, hi j]

end AddressMap

/-- The handshakes of a cycle, at the port of the master and at the port of each slave. -/
structure InterconnectPorts (P : Protocol) (n : Nat) where
  sAr : Option P.Address
  mAr : Fin (n + 1) → Option P.Address
  sR : Option P.R
  mR : Fin (n + 1) → Option P.R
  sAw : Option P.Address
  mAw : Fin (n + 1) → Option P.Address
  sW : Option P.W
  mW : Fin (n + 1) → Option P.W
  sB : Option (P.Id × P.Resp)
  mB : Fin (n + 1) → Option (P.Id × P.Resp)

section Spec

variable {P : Protocol} {n : Nat} (map : AddressMap n)

/-- The slaves of the reads, of the writes and of the responses that are outstanding, oldest first. -/
structure Outstanding (n : Nat) where
  reads : List (Fin (n + 1))
  writes : List (Fin (n + 1))
  responses : List (Fin (n + 1))
deriving DecidableEq

/-- The slaves that an accepted address belongs to. -/
def AddressMap.slaves (ax : Option P.Address) : List (Fin (n + 1)) :=
  ax.elim [] fun ax => (List.finRange (n + 1)).filter (map.hits (P.addr ax))

/-- The handshake is between the master and one slave, and no other slave has any. -/
def Between {β : Type} (slave : Option (Fin (n + 1))) (s : Option β) (m : Fin (n + 1) → Option β) : Prop :=
  (slave = none → s = none) ∧ ∀ i, m i = if slave = some i then s else none

/-- What a cycle may show: addresses go to their slaves, and every beat and response is between the
master and the slave of the oldest outstanding one. -/
structure Outstanding.Allows (t : Outstanding n) (o : InterconnectPorts P n) : Prop where
  ar : ∀ i, o.mAr i = o.sAr.filter fun ax => map.hits (P.addr ax) i
  aw : ∀ i, o.mAw i = o.sAw.filter fun ax => map.hits (P.addr ax) i
  r : Between t.reads.head? o.sR o.mR
  w : Between t.writes.head? o.sW o.mW
  b : Between t.responses.head? o.sB o.mB

def Outstanding.next (t : Outstanding n) (o : InterconnectPorts P n) : Outstanding n where
  reads := (if o.sR.any P.rlast then t.reads.tail else t.reads) ++ map.slaves o.sAr
  writes := (if o.sW.any P.wlast then t.writes.tail else t.writes) ++ map.slaves o.sAw
  responses := (if o.sB.isSome then t.responses.tail else t.responses) ++
    (if o.sW.any P.wlast then t.writes.head? else none).toList

/-- The switch that remembers every outstanding transaction. -/
def switch (P : Protocol) (map : AddressMap n) : Machine (Outstanding n) (InterconnectPorts P n) Unit where
  next := Outstanding.next map
  output _ _ := ()

/-- Every address and beat reaches its slave and every answer comes from its slave, in the order of the requests. -/
def Routed (P : Protocol) (map : AddressMap n) (os : List (InterconnectPorts P n)) : Prop :=
  (switch P map).Along (Outstanding.Allows map) ⟨[], [], []⟩ os

end Spec

structure Interconnector (n : Nat) where
  readWhichQueue : RingQueue (Fin (n + 1))
  writeWhichQueue : RingQueue (Fin (n + 1))
  responseWhichQueue : RingQueue (Fin (n + 1))

namespace Interconnector

variable {P : Protocol} {n : Nat}

structure Input (P : Protocol) (n : Nat) where
  ar : Option P.Address
  arready : Fin (n + 1) → Bool
  r : Fin (n + 1) → Option P.R
  rready : Bool
  aw : Option P.Address
  awready : Fin (n + 1) → Bool
  w : Option P.W
  wready : Fin (n + 1) → Bool
  bvalid : Fin (n + 1) → Bool
  bid : Fin (n + 1) → P.Id
  bresp : Fin (n + 1) → P.Resp
  bready : Bool

variable (map : AddressMap n) (s : Interconnector n) (i : Input P n)

section Read

/-- The address at slave `k`, and whether it is taken there. -/
def mAr (k : Fin (n + 1)) : Option P.Address :=
  if i.arready k then i.ar.filter fun ax => decide (map.which (P.addr ax) = k) else none

def sAr : Option P.Address := i.ar.filter fun ax => i.arready (map.which (P.addr ax))

def readWhichEnq : Option (Fin (n + 1)) := (sAr map i).map fun ax => map.which (P.addr ax)

def rOffer : Option P.R := if s.readWhichQueue.deqValid then i.r s.readWhichQueue.deqBits else none

def sR : Option P.R := if i.rready then s.rOffer i else none

def mR (k : Fin (n + 1)) : Option P.R :=
  if (i.rready && decide (s.readWhichQueue.deqBits = k) && s.readWhichQueue.deqValid) = true then i.r k else none

def readWhichReady : Bool := (s.sR i).any P.rlast

end Read

section Write

def mAw (k : Fin (n + 1)) : Option P.Address :=
  if i.awready k then i.aw.filter fun ax => decide (k = map.which (P.addr ax)) else none

def sAw : Option P.Address := i.aw.filter fun ax => i.awready (map.which (P.addr ax))

def writeWhichEnq : Option (Fin (n + 1)) := (sAw map i).map fun ax => map.which (P.addr ax)

def sWReady : Bool := i.wready s.writeWhichQueue.deqBits && s.writeWhichQueue.deqValid

def sW : Option P.W := if s.sWReady i then i.w else none

def mW (k : Fin (n + 1)) : Option P.W :=
  if (i.wready k && decide (s.writeWhichQueue.deqBits = k) && s.writeWhichQueue.deqValid) = true then i.w else none

def writeWhichReady : Bool := (s.sW i).any P.wlast

def responseWhichEnq : Option (Fin (n + 1)) :=
  if (s.writeWhichQueue.deqValid && s.writeWhichReady i) = true then some s.writeWhichQueue.deqBits else none

def bValid : Bool := i.bvalid s.responseWhichQueue.deqBits && s.responseWhichQueue.deqValid

/-- The identifier is that of the slave at the head of the first queue, the rest that of the slave at the head of the second. -/
def sB : Option (P.Id × P.Resp) :=
  if (s.bValid i && i.bready) = true then some (i.bid s.writeWhichQueue.deqBits, i.bresp s.responseWhichQueue.deqBits) else none

def mB (k : Fin (n + 1)) : Option (P.Id × P.Resp) :=
  if (i.bready && decide (k = s.responseWhichQueue.deqBits) && s.responseWhichQueue.deqValid && i.bvalid k) = true then
    some (i.bid k, i.bresp k)
  else none

end Write

def output : InterconnectPorts P n where
  sAr := sAr map i
  mAr := mAr map i
  sR := s.sR i
  mR := s.mR i
  sAw := sAw map i
  mAw := mAw map i
  sW := s.sW i
  mW := s.mW i
  sB := s.sB i
  mB := s.mB i

def next : Interconnector n where
  readWhichQueue := s.readWhichQueue.next (readWhichEnq map i) (s.readWhichReady i)
  writeWhichQueue := s.writeWhichQueue.next (writeWhichEnq map i) (s.writeWhichReady i)
  responseWhichQueue := s.responseWhichQueue.next (s.responseWhichEnq i) (s.sB i).isSome

def machine (P : Protocol) (map : AddressMap n) : Machine (Interconnector n) (Input P n) (InterconnectPorts P n) where
  next := next map
  output := output map

/-- Every address offered is in exactly one segment. -/
def Addressed (_ : Interconnector n) (i : Input P n) : Prop :=
  (∀ ax, i.ar = some ax → map.Single (P.addr ax)) ∧ ∀ ax, i.aw = some ax → map.Single (P.addr ax)

/-- An address that a slave is ready for, and a last beat, find room in the queue behind them; and a
response has the identifier that the slave at the head of the write queue shows. -/
structure Roomy (s : Interconnector n) (i : Input P n) : Prop where
  read : ∀ ax, i.ar = some ax → i.arready (map.which (P.addr ax)) = true → s.readWhichQueue.enqReady = true
  write : ∀ ax, i.aw = some ax → i.awready (map.which (P.addr ax)) = true → s.writeWhichQueue.enqReady = true
  response : ∀ w, i.w = some w → P.wlast w = true → s.sWReady i = true → s.responseWhichQueue.enqReady = true
  bid : s.bValid i = true → i.bready = true → i.bid s.writeWhichQueue.deqBits = i.bid s.responseWhichQueue.deqBits

instance : Decidable (Addressed map s i) :=
  inferInstanceAs (Decidable ((∀ ax ∈ i.ar, ∃ k, ∀ j, map.hits (P.addr ax) j = decide (j = k)) ∧
    ∀ ax ∈ i.aw, ∃ k, ∀ j, map.hits (P.addr ax) j = decide (j = k)))

instance [DecidableEq P.Id] : Decidable (Roomy map s i) :=
  decidable_of_iff ((∀ ax ∈ i.ar, i.arready (map.which (P.addr ax)) = true → s.readWhichQueue.enqReady = true) ∧
    (∀ ax ∈ i.aw, i.awready (map.which (P.addr ax)) = true → s.writeWhichQueue.enqReady = true) ∧
    (∀ w ∈ i.w, P.wlast w = true → s.sWReady i = true → s.responseWhichQueue.enqReady = true) ∧
    (s.bValid i = true → i.bready = true → i.bid s.writeWhichQueue.deqBits = i.bid s.responseWhichQueue.deqBits))
    ⟨fun ⟨hRead, hWrite, hResponse, hBid⟩ => ⟨hRead, hWrite, hResponse, hBid⟩,
      fun h => ⟨h.read, h.write, h.response, h.bid⟩⟩

def outstanding : Outstanding n := ⟨s.readWhichQueue.items, s.writeWhichQueue.items, s.responseWhichQueue.items⟩

section Step

theorem between_of_queue {β : Type} (q : RingQueue (Fin (n + 1))) {at_ : Option β} {m : Fin (n + 1) → Option β}
    (hEmpty : q.deqValid = false → at_ = none) (hM : ∀ k, m k = if q.deqValid = true ∧ q.deqBits = k then at_ else none) :
    Between q.items.head? at_ m := by
  rw [RingQueue.head?_items]
  cases hValid : q.deqValid with
  | false => exact ⟨fun _ => hEmpty hValid, fun k => by simp [hM k, hValid]⟩
  | true => exact ⟨fun hNone => absurd hNone (Option.some_ne_none _), fun k => by simp [hM k, hValid]⟩

variable {map} {s} {i}

theorem address_filter (ready : Fin (n + 1) → Bool) {ax : Option P.Address}
    (hSingle : ∀ a, ax = some a → map.Single (P.addr a)) (k : Fin (n + 1)) :
    (if ready k then ax.filter fun a => decide (map.which (P.addr a) = k) else none) =
      (ax.filter fun a => ready (map.which (P.addr a))).filter fun a => map.hits (P.addr a) k := by
  cases ax with
  | none => cases ready k <;> rfl
  | some a =>
    have hHits := map.hits_eq (hSingle a rfl) k
    rcases eq_or_ne k (map.which (P.addr a)) with hk | hk
    · rw [decide_eq_true hk] at hHits
      cases hReady : ready k <;> simp [Option.filter, hHits, ← hk, hReady]
    · rw [decide_eq_false hk] at hHits
      cases hReady : ready (map.which (P.addr a)) <;> simp [Option.filter, hHits, hk.symm, hReady]

theorem slaves_filter (ready : Fin (n + 1) → Bool) {ax : Option P.Address}
    (hSingle : ∀ a, ax = some a → map.Single (P.addr a)) :
    map.slaves (ax.filter fun a => ready (map.which (P.addr a))) =
      ((ax.filter fun a => ready (map.which (P.addr a))).map fun a => map.which (P.addr a)).toList := by
  cases ax with
  | none => rfl
  | some a =>
    have hSlaves : map.slaves (some a) = [map.which (P.addr a)] := by
      have hHits : map.hits (P.addr a) = fun j => j == map.which (P.addr a) :=
        funext fun j => (map.hits_eq (hSingle a rfl) j).trans (beq_eq_decide j _).symm
      rw [AddressMap.slaves, Option.elim_some, hHits, List.filter_beq,
        List.count_eq_one_of_mem (List.nodup_finRange _) (List.mem_finRange _)]
      rfl
    cases hReady : ready (map.which (P.addr a)) with
    | false => simp [Option.filter, hReady, AddressMap.slaves]
    | true => simpa [Option.filter, hReady] using hSlaves

theorem allows (hAddressed : Addressed map s i) (hRoomy : Roomy map s i) : s.outstanding.Allows map (output map s i) where
  ar k := address_filter i.arready hAddressed.1 k
  aw k := by
    have hFilter := address_filter i.awready hAddressed.2 k
    simp only [eq_comm (b := k)] at hFilter
    exact hFilter
  r := by
    refine between_of_queue _ (fun hEmpty => by simp [output, sR, rOffer, hEmpty]) fun k => ?_
    rcases eq_or_ne s.readWhichQueue.deqBits k with rfl | hk
    · cases hReady : i.rready <;> cases hValid : s.readWhichQueue.deqValid <;>
        simp [output, mR, sR, rOffer, hReady, hValid]
    · simp [output, mR, hk]
  w := by
    refine between_of_queue _ (fun hEmpty => by simp [output, sW, sWReady, hEmpty]) fun k => ?_
    rcases eq_or_ne s.writeWhichQueue.deqBits k with rfl | hk
    · cases hValid : s.writeWhichQueue.deqValid <;> simp [output, mW, sW, sWReady, hValid]
    · simp [output, mW, hk]
  b := by
    refine between_of_queue _ (fun hEmpty => by simp [output, sB, bValid, hEmpty]) fun k => ?_
    rcases eq_or_ne s.responseWhichQueue.deqBits k with rfl | hk
    · have hId := hRoomy.bid
      cases hReady : i.bready <;> cases hValid : s.responseWhichQueue.deqValid <;>
        cases hResp : i.bvalid s.responseWhichQueue.deqBits <;>
        simp [output, mB, sB, bValid, hReady, hValid, hResp] at hId ⊢
      exact hId.symm
    · simp [output, mB, hk, hk.symm]

/-- The queues remember what they are given, as long as they have room. -/
theorem outstanding_next (hAddressed : Addressed map s i) (hRoomy : Roomy map s i) :
    (s.next map i).outstanding = s.outstanding.next map (output map s i) := by
  have hRoom : ∀ {q : RingQueue (Fin (n + 1))} {ready : Fin (n + 1) → Bool} {ax : Option P.Address},
      (∀ a, ax = some a → ready (map.which (P.addr a)) = true → q.enqReady = true) →
      ((ax.filter fun a => ready (map.which (P.addr a))).map fun a => map.which (P.addr a)).isSome = true → q.enqReady = true := by
    intro q ready ax h hSome
    obtain ⟨a, ha⟩ := Option.isSome_iff_exists.mp ((Option.isSome_map ..).symm.trans hSome)
    obtain ⟨hAx, hReady⟩ := Option.filter_eq_some_iff.mp ha
    exact h a hAx hReady
  have hReads : (s.next map i).readWhichQueue.items = (s.outstanding.next map (output map s i)).reads := by
    refine (RingQueue.items_next_of_ready _ _ (hRoom hRoomy.read)).trans ?_
    exact congrArg (_ ++ ·) (slaves_filter i.arready hAddressed.1).symm
  have hWrites : (s.next map i).writeWhichQueue.items = (s.outstanding.next map (output map s i)).writes := by
    refine (RingQueue.items_next_of_ready _ _ (hRoom hRoomy.write)).trans ?_
    exact congrArg (_ ++ ·) (slaves_filter i.awready hAddressed.2).symm
  have hResponses : (s.next map i).responseWhichQueue.items = (s.outstanding.next map (output map s i)).responses := by
    have hEnq : s.responseWhichEnq i =
        if (s.sW i).any P.wlast then s.writeWhichQueue.items.head? else none := by
      rw [RingQueue.head?_items, responseWhichEnq, writeWhichReady]
      cases s.writeWhichQueue.deqValid <;> cases (s.sW i).any P.wlast <;> rfl
    rw [next, RingQueue.items_next_of_ready, hEnq]
    · rfl
    · intro hSome
      cases hw : s.sW i with
      | none => simp [responseWhichEnq, writeWhichReady, hw] at hSome
      | some w =>
        cases hLast : P.wlast w with
        | false => simp [responseWhichEnq, writeWhichReady, hw, hLast] at hSome
        | true =>
          rw [sW] at hw
          split at hw
          · next hReady => exact hRoomy.response w hw hLast hReady
          · cases hw
  rw [outstanding, hReads, hWrites, hResponses]

end Step

def Remembers (s : Interconnector n) (t : Outstanding n) : Prop := s.outstanding = t

variable {map} {s} in
theorem routed_of_roomy {is : List (Input P n)} (hEmpty : s.Remembers ⟨[], [], []⟩)
    (h : (machine P map).Along (fun s i => Addressed map s i ∧ Roomy map s i) s is) :
    Routed P map ((machine P map).trace s is) := by
  refine h.simulates hEmpty fun s t i hRemembers hCycle => ?_
  obtain rfl : s.outstanding = t := hRemembers
  exact ⟨allows hCycle.1 hCycle.2, outstanding_next hCycle.1 hCycle.2⟩

/-- Queues of `m + 1` cells, over whatever their memories hold. -/
def reset (m : Nat) (read write response : Nat → Fin (n + 1)) : Interconnector n :=
  ⟨.sized m read, .sized m write, .sized m response⟩

end Interconnector

open Interconnector

section Interconnectors

variable {n : Nat} (addrW dataW : Nat) (map : AddressMap n)

abbrev AXILInterconnector : Machine (Interconnector n) (Input (axi4Lite addrW dataW) n) (InterconnectPorts (axi4Lite addrW dataW) n) :=
  Interconnector.machine (axi4Lite addrW dataW) map

abbrev AXIInterconnector : Machine (Interconnector n) (Input (axi4 addrW dataW) n) (InterconnectPorts (axi4 addrW dataW) n) :=
  Interconnector.machine (axi4 addrW dataW) map

def AXILInterconnector.reset (read write response : Nat → Fin (n + 1)) : Interconnector n :=
  Interconnector.reset 1 read write response

def AXIInterconnector.reset (read write response : Nat → Fin (n + 1)) : Interconnector n :=
  Interconnector.reset n read write response

/-- Runs in which the queues have room and the identifiers agree are routed. -/
theorem interconnectors_route (read write response : Nat → Fin (n + 1)) :
    (∀ is, (AXILInterconnector addrW dataW map).Along (fun s i => Addressed map s i ∧ Roomy map s i)
        (AXILInterconnector.reset read write response) is →
      Routed (axi4Lite addrW dataW) map
        ((AXILInterconnector addrW dataW map).trace (AXILInterconnector.reset read write response) is)) ∧
    ∀ is, (AXIInterconnector addrW dataW map).Along (fun s i => Addressed map s i ∧ Roomy map s i)
        (AXIInterconnector.reset read write response) is →
      Routed (axi4 addrW dataW) map
        ((AXIInterconnector addrW dataW map).trace (AXIInterconnector.reset read write response) is) :=
  ⟨fun _ h => routed_of_roomy rfl h, fun _ h => routed_of_roomy rfl h⟩

end Interconnectors

section Runs

abbrev threeSegments : AddressMap 2 where
  addrSegment i := 0x1000 * (i.val + 1)
  addrMask _ := 0xF000

def quiet (P : Protocol) (bid : Fin 3 → P.Id) (bresp : Fin 3 → P.Resp) : Input P 2 :=
  ⟨none, fun _ => true, fun _ => none, true, none, fun _ => true, none, fun _ => true, fun _ => false, bid, bresp, true⟩

abbrev lite : Protocol := axi4Lite 16 32

/-- A read of a segment may be asked for, and some slaves may offer a beat. -/
def liteRead (ar : Option (BitVec 16)) (beat : Fin 3 → Bool) : Input lite 2 :=
  { quiet lite (fun _ => ()) fun _ => 0 with
    ar := ar.map fun addr => ⟨addr, 0⟩
    r := fun k => if beat k then some ⟨BitVec.ofNat 32 (k.val + 7), 0⟩ else none }

abbrev full : Protocol := axi4 16 32

/-- Every slave shows an identifier of its own. -/
def fullQuiet : Input full 2 := quiet full (fun k => BitVec.ofNat 6 (k.val + 4)) fun _ => 0

/-- Reads of slaves 0 and 1 are outstanding together, and slave 1 has its beat first. -/
def overlapping : List (Input lite 2) :=
  [liteRead (some 0x1000) fun _ => false, liteRead (some 0x2004) fun _ => false, liteRead none fun k => k = 1,
    liteRead none fun k => k ≠ 2, liteRead none fun k => k = 1]

/-- Two writes to slave 1 are outstanding. The first one, of two beats, has its response while the second one waits. -/
def overlappingWrites : List (Input full 2) :=
  [{ fullQuiet with aw := some ⟨1, 0x2000, 1, 2, 1, false, 0, 0, 0⟩ },
    { fullQuiet with aw := some ⟨2, 0x2008, 0, 2, 1, false, 0, 0, 0⟩, w := some ⟨9, 15, false⟩ },
    { fullQuiet with w := some ⟨10, 15, true⟩ }, { fullQuiet with bvalid := fun k => decide (k = 1) },
    { fullQuiet with w := some ⟨11, 15, true⟩ }]

theorem interconnectors_route_overlapping :
    (Routed lite threeSegments ((AXILInterconnector 16 32 threeSegments).trace
        (AXILInterconnector.reset (fun _ => 0) (fun _ => 0) fun _ => 0) overlapping) ∧
      (AXILInterconnector 16 32 threeSegments).emitted InterconnectPorts.sR
        (AXILInterconnector.reset (fun _ => 0) (fun _ => 0) fun _ => 0) overlapping = [⟨7, 0⟩, ⟨8, 0⟩]) ∧
    Routed full threeSegments ((AXIInterconnector 16 32 threeSegments).trace
        (AXIInterconnector.reset (fun _ => 0) (fun _ => 0) fun _ => 0) overlappingWrites) ∧
      (AXIInterconnector 16 32 threeSegments).emitted (fun o => o.mW 1)
        (AXIInterconnector.reset (fun _ => 0) (fun _ => 0) fun _ => 0) overlappingWrites =
          [⟨9, 15, false⟩, ⟨10, 15, true⟩, ⟨11, 15, true⟩] ∧
      (AXIInterconnector 16 32 threeSegments).emitted InterconnectPorts.sB
        (AXIInterconnector.reset (fun _ => 0) (fun _ => 0) fun _ => 0) overlappingWrites = [(5, 0)] := by
  obtain ⟨hLite, hFull⟩ := interconnectors_route 16 32 threeSegments (fun _ => 0) (fun _ => 0) fun _ => 0
  refine ⟨⟨hLite overlapping ?_, ?_⟩, hFull overlappingWrites ?_, ?_, ?_⟩
  · decide
  · decide
  · decide
  · decide
  · decide

/-- The third read finds the queue full: it is not remembered. -/
def overflow : List (Input lite 2) :=
  [liteRead (some 0x1000) fun _ => false, liteRead (some 0x1000) fun _ => false, liteRead (some 0x2000) fun k => k = 0,
    liteRead (some 0x1000) fun k => k = 0, liteRead none fun k => k = 0]

/-- A write to the second segment: its address, its only beat, and its response. -/
def response : List (Input full 2) :=
  [{ fullQuiet with aw := some ⟨1, 0x2000, 0, 2, 1, false, 0, 0, 0⟩ }, { fullQuiet with w := some ⟨9, 15, true⟩ },
    { fullQuiet with bvalid := fun k => decide (k = 1) }]

/-- Slave 0 answers before slave 1 although it was asked after it; and a response shows the identifier of another slave. -/
theorem misrouted :
    (¬ ∀ (map : AddressMap 2) (is : List (Input lite 2)),
      (AXILInterconnector 16 32 map).Along (Addressed map) (AXILInterconnector.reset (fun _ => 0) (fun _ => 0) fun _ => 0) is →
        Routed lite map ((AXILInterconnector 16 32 map).trace (AXILInterconnector.reset (fun _ => 0) (fun _ => 0) fun _ => 0) is)) ∧
    ¬ ∀ (map : AddressMap 2) (is : List (Input full 2)),
      (AXIInterconnector 16 32 map).Along (Addressed map) (AXIInterconnector.reset (fun _ => 0) (fun _ => 0) fun _ => 0) is →
        Routed full map ((AXIInterconnector 16 32 map).trace (AXIInterconnector.reset (fun _ => 0) (fun _ => 0) fun _ => 0) is) := by
  constructor
  · intro h
    have hBeat := (h threeSegments overflow (by decide)).2.2.2.2.1.r.2 0
    exact Option.some_ne_none _ hBeat
  · intro h
    have hResponse := (h threeSegments response (by decide)).2.2.1.b.2 1
    have hSame : some ((5 : BitVec 6), (0 : BitVec 2)) = some (4, 0) := hResponse
    revert hSame
    decide

end Runs

end KnockoutKraken.Util

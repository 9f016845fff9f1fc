import Mathlib.Data.BitVec

/-!
# Channels of the bus

The payloads of the channels of the two protocols. The address channels
of reads and writes carry the same fields. A transfer of the lighter
protocol has a single beat and no identifier.
-/

namespace KnockoutKraken.Antmicro

variable (addrWidth dataWidth : Nat)

namespace AXI4

abbrev idWidth : Nat := 6
abbrev sizeWidth : Nat := 3
abbrev burstWidth : Nat := 2
abbrev cacheWidth : Nat := 4
abbrev protWidth : Nat := 3
abbrev qosWidth : Nat := 4
abbrev respWidth : Nat := 2

structure Address where
  id : BitVec idWidth
  addr : BitVec addrWidth
  len : BitVec 8
  size : BitVec sizeWidth
  burst : BitVec burstWidth
  lock : Bool
  cache : BitVec cacheWidth
  prot : BitVec protWidth
  qos : BitVec qosWidth
deriving DecidableEq

structure W where
  wdata : BitVec dataWidth
  wstrb : BitVec (dataWidth / 8)
  wlast : Bool
deriving DecidableEq

structure R where
  rid : BitVec idWidth
  rdata : BitVec dataWidth
  rresp : BitVec respWidth
  rlast : Bool
deriving DecidableEq

end AXI4

namespace AXI4Lite

structure Address where
  addr : BitVec addrWidth
  prot : BitVec 3
deriving DecidableEq

structure W where
  wdata : BitVec dataWidth
  wstrb : BitVec (dataWidth / 8)
deriving DecidableEq

structure R where
  rdata : BitVec dataWidth
  rresp : BitVec 2
deriving DecidableEq

end AXI4Lite

/-- The parts of a protocol that a switch looks at: the address, the last beat of a transfer, and
the identifier of a response next to the rest of it. -/
structure Protocol where
  addrWidth : Nat
  Address : Type
  addr : Address → BitVec addrWidth
  R : Type
  rlast : R → Bool
  W : Type
  wlast : W → Bool
  Id : Type
  Resp : Type

abbrev axi4 : Protocol where
  addrWidth := addrWidth
  Address := AXI4.Address addrWidth
  addr := AXI4.Address.addr
  R := AXI4.R dataWidth
  rlast := AXI4.R.rlast
  W := AXI4.W dataWidth
  wlast := AXI4.W.wlast
  Id := BitVec AXI4.idWidth
  Resp := BitVec AXI4.respWidth

abbrev axi4Lite : Protocol where
  addrWidth := addrWidth
  Address := AXI4Lite.Address addrWidth
  addr := AXI4Lite.Address.addr
  R := AXI4Lite.R dataWidth
  rlast _ := true
  W := AXI4Lite.W dataWidth
  wlast _ := true
  Id := Unit
  Resp := BitVec 2

end KnockoutKraken.Antmicro

import Mathlib.Data.BitVec

/-!
# Transfers on the bus

The reader and the writer take one transfer at a time. The reader sends
its address and then passes the beats on until the last one; the writer
sends its address and its beats independently and waits for the response.
Both tell the end of the transfer in one cycle of its own.
-/

namespace KnockoutKraken.Antmicro

universe u

abbrev lenWidth : Nat := 8

structure Xfer (addrWidth : Nat) where
  address : BitVec addrWidth
  length : BitVec addrWidth
deriving DecidableEq

inductive ReaderState where
  | sIdle | sAddr | sTransfer | sDone
deriving DecidableEq

structure AXI4Reader (addrWidth : Nat) where
  state : ReaderState
  enable : Bool
  araddr : BitVec addrWidth
  arlen : BitVec lenWidth
  arvalid : Bool
deriving DecidableEq

namespace AXI4Reader

variable {addrWidth : Nat} {δ : Type u}

structure Input (addrWidth : Nat) (δ : Type u) where
  xfer : Option (Xfer addrWidth)
  dataOutReady : Bool
  arready : Bool
  /-- The data, and whether it is the last beat. -/
  r : Option (δ × Bool)

def reset : AXI4Reader addrWidth := ⟨.sIdle, false, 0, 0, false⟩

variable (u : AXI4Reader addrWidth) (i : Input addrWidth δ)

def xferReady : Bool := decide (u.state = .sIdle)

def xferDone : Bool := decide (u.state = .sDone)

def ready : Bool := i.dataOutReady && u.enable

def dataOut (r : Option (δ × Bool)) : Option δ := if u.enable then r.map (·.1) else none

def takesLast : Bool := u.ready i && i.r.any (·.2)

def next : AXI4Reader addrWidth :=
  match u.state with
  | .sIdle =>
    match i.xfer with
    | some xfer => { u with state := .sAddr, arvalid := true, araddr := xfer.address, arlen := (xfer.length - 1).setWidth lenWidth }
    | none => u
  | .sAddr => if (u.arvalid && i.arready) = true then { u with state := .sTransfer, arvalid := false, enable := true } else u
  | .sTransfer => if u.takesLast i = true then { u with state := .sDone, enable := false } else u
  | .sDone => { u with state := .sIdle }

end AXI4Reader

inductive DataState where
  | sDataIdle | sDataTransfer | sDataResp | sDataDone
deriving DecidableEq

inductive AddrState where
  | sAddrIdle | sAddrTransfer | sAddrDone
deriving DecidableEq

structure AXI4Writer (addrWidth : Nat) where
  dataState : DataState
  addrState : AddrState
  enable : Bool
  length : BitVec addrWidth
  awlen : BitVec addrWidth
  awaddr : BitVec addrWidth
  awvalid : Bool
  bready : Bool
deriving DecidableEq

namespace AXI4Writer

variable {addrWidth : Nat} {δ : Type u}

structure Input (addrWidth : Nat) (δ : Type u) where
  xfer : Option (Xfer addrWidth)
  dataIn : Option δ
  awready : Bool
  wready : Bool
  bvalid : Bool

def reset : AXI4Writer addrWidth := ⟨.sDataIdle, .sAddrIdle, false, 0, 0, 0, false, false⟩

variable (u : AXI4Writer addrWidth) (i : Input addrWidth δ)

def xferReady : Bool := decide (u.dataState = .sDataIdle)

def xferDone : Bool := decide (u.dataState = .sDataDone)

def dataInReady (wready : Bool) : Bool := wready && u.enable

/-- The beat on the bus, and whether it is the last one. -/
def w (dataIn : Option δ) : Option (δ × Bool) :=
  if u.enable then dataIn.map fun data => (data, decide (u.length = 1)) else none

def beat : Bool := u.dataInReady i.wready && i.dataIn.isSome

def takesResp (bvalid : Bool) : Bool := decide (u.dataState = .sDataResp) && u.bready && bvalid

def nextData : AXI4Writer addrWidth :=
  match u.dataState with
  | .sDataIdle =>
    match i.xfer with
    | some xfer => { u with length := xfer.length, dataState := .sDataTransfer, enable := true }
    | none => u
  | .sDataTransfer =>
    if u.beat i = true then
      if 1 < u.length then { u with length := u.length - 1 }
      else { u with dataState := .sDataResp, enable := false, bready := true }
    else u
  | .sDataResp => if (u.bready && i.bvalid) = true then { u with bready := false, dataState := .sDataDone } else u
  | .sDataDone => { u with dataState := .sDataIdle }

def nextAddr : AXI4Writer addrWidth :=
  match u.addrState with
  | .sAddrIdle =>
    match i.xfer with
    | some xfer => { u with awaddr := xfer.address, awlen := xfer.length - 1, awvalid := true, addrState := .sAddrTransfer }
    | none => u
  | .sAddrTransfer => if (u.awvalid && i.awready) = true then { u with addrState := .sAddrDone, awvalid := false } else u
  | .sAddrDone => if u.xferDone then { u with addrState := .sAddrIdle } else u

def next : AXI4Writer addrWidth :=
  { u.nextAddr i with
    dataState := (u.nextData i).dataState
    enable := (u.nextData i).enable
    length := (u.nextData i).length
    bready := (u.nextData i).bready }

end AXI4Writer

end KnockoutKraken.Antmicro

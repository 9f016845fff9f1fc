import KnockoutKraken.Cache.TLB

/-!
# The page deletor

One page at a time: the unit that accesses it is stopped, its entry is
flushed from the translation buffer, the host is told, the 64 blocks are
flushed from the cache, and once the queue of the memory port is seen
empty the host is told again. The permission of the page selects the
buffer and the cache; index 0 is the instruction side.
-/

namespace KnockoutKraken.Mmu

open Cache Armflex

variable {params : PageTableParams}

namespace QEMUMessagesType

def sEvictNotify : BitVec 3 := 5
def sEvictDone : BitVec 3 := 6

end QEMUMessagesType

inductive PageDeletorState where
  | sIdle | sReqLSU | sFlushTLBReq | sFlushTLBReply | sNotify | sFlushPage | sPipe | sWait | sSend | sNotifyLSU
deriving DecidableEq

namespace PageDeletorState

/-- The unit that accesses the page has granted the deletion and not been told of its end. -/
def granted : PageDeletorState → Bool
  | sFlushTLBReq | sFlushTLBReply | sNotify | sFlushPage | sPipe | sWait | sSend => true
  | sIdle | sReqLSU | sNotifyLSU => false

/-- A deletion is under way that the host was not told the end of. -/
def pending : PageDeletorState → Bool
  | sIdle | sNotifyLSU => false
  | _ => true

end PageDeletorState

structure PageEvictNotification (params : PageTableParams) where
  messageType : BitVec 3
  item : PageTableItem params
deriving DecidableEq

structure PageDeletor (params : PageTableParams) where
  stateR : PageDeletorState
  itemR : PageTableItem params
  flushCntR : BitVec 6
  pipeCntR : BitVec 2
deriving DecidableEq

namespace PageDeletor

open PageDeletorState

structure Input (params : PageTableParams) where
  pageDeleteReqI : Option (PageTableItem params)
  flushPermReqReady : Fin 2 → Bool
  flushCompledReady : Fin 2 → Bool
  tlbFlushRequestReady : Fin 2 → Bool
  tlbFrontendReplyI : Fin 2 → Option (TLBPipelineResp params)
  startMessageReady : Bool
  cacheFlushRequestReady : Fin 2 → Bool
  wbQueueEmptyI : Fin 2 → Bool
  doneMessageReady : Bool

variable (u : PageDeletor params) (i : Input params)

def flushWhich : Fin 2 := if u.itemR.entry.perm = 2 then 0 else 1

section Outputs

def pageDeleteReqReady : Bool := decide (u.stateR = sIdle)

def flushPermReqValid (k : Fin 2) : Bool := decide (u.stateR = sReqLSU) && k == u.flushWhich

def tlbFlushRequestO : Option (PTTagPacket params) := if u.stateR = sFlushTLBReq then some u.itemR.tag else none

def startMessageO : Option (PageEvictNotification params) :=
  if u.stateR = sNotify then some ⟨QEMUMessagesType.sEvictNotify, u.itemR⟩ else none

def cacheFlushRequestValid (k : Fin 2) : Bool := decide (u.stateR = sFlushPage) && k == u.flushWhich

def cacheFlushAddr (blockBiasW : Nat) : BitVec (params.pPageW + 6 + blockBiasW) :=
  u.itemR.entry.ppn ++ u.flushCntR ++ (0 : BitVec blockBiasW)

def stallVO (k : Fin 2) : Bool := decide (u.stateR = sWait) && k == u.flushWhich || decide (u.stateR = sPipe)

def doneMessageO : Option (PageEvictNotification params) :=
  if u.stateR = sSend then some ⟨QEMUMessagesType.sEvictDone, u.itemR⟩ else none

def flushCompledValid (k : Fin 2) : Bool := decide (u.stateR = sNotifyLSU) && k == u.flushWhich

end Outputs

def pageDeleteReqFire : Option (PageTableItem params) := if u.stateR = sIdle then i.pageDeleteReqI else none

def flushPermissionRequestFire : Bool := decide (u.stateR = sReqLSU) && i.flushPermReqReady u.flushWhich

def flushFired : Bool := decide (u.stateR = sFlushPage) && i.cacheFlushRequestReady u.flushWhich

def startMessageFire : Option (PageEvictNotification params) := if i.startMessageReady then u.startMessageO else none

def queueEmpty : Bool := i.wbQueueEmptyI u.flushWhich

def doneMessageFire : Option (PageEvictNotification params) := if i.doneMessageReady then u.doneMessageO else none

def flushCompleteRequestFire : Bool := decide (u.stateR = sNotifyLSU) && i.flushCompledReady u.flushWhich

def doneO : Bool :=
  decide (u.stateR = sWait) && u.queueEmpty i && !u.itemR.entry.modified ||
    decide (u.stateR = sSend) && (u.doneMessageFire i).isSome

def nextState : PageDeletorState :=
  match u.stateR with
  | sIdle => if (u.pageDeleteReqFire i).isSome then sReqLSU else sIdle
  | sReqLSU => if u.flushPermissionRequestFire i then sFlushTLBReq else sReqLSU
  | sFlushTLBReq => if i.tlbFlushRequestReady u.flushWhich then sFlushTLBReply else sFlushTLBReq
  | sFlushTLBReply => if (i.tlbFrontendReplyI u.flushWhich).isSome then sNotify else sFlushTLBReply
  | sNotify => if (u.startMessageFire i).isSome then sFlushPage else sNotify
  | sFlushPage => if u.flushCntR = 63 ∧ u.flushFired i = true then sPipe else sFlushPage
  | sPipe => if u.pipeCntR = 3 then sWait else sPipe
  | sWait => if u.queueEmpty i then sSend else sWait
  | sSend => if (u.doneMessageFire i).isSome then sNotifyLSU else sSend
  | sNotifyLSU => if u.flushCompleteRequestFire i then sIdle else sNotifyLSU

/-- The entry after the reply of the translation buffer, whose modified bit replaces the one in the table. -/
def flushedItem (reply : TLBPipelineResp params) : PageTableItem params :=
  if reply.hit then { u.itemR with entry := { u.itemR.entry with modified := reply.entry.modified } } else u.itemR

def nextItem : PageTableItem params :=
  match u.pageDeleteReqFire i with
  | some item => item
  | none =>
    if u.stateR = sFlushTLBReply then ((i.tlbFrontendReplyI u.flushWhich).map u.flushedItem).getD u.itemR else u.itemR

def nextFlushCnt : BitVec 6 :=
  if (u.pageDeleteReqFire i).isSome then 0 else if u.flushFired i then u.flushCntR + 1 else u.flushCntR

def nextPipeCnt : BitVec 2 :=
  if u.flushCntR = 63 ∧ u.flushFired i = true then 0 else if u.stateR = sPipe then u.pipeCntR + 1 else u.pipeCntR

def next : PageDeletor params where
  stateR := u.nextState i
  itemR := u.nextItem i
  flushCntR := u.nextFlushCnt i
  pipeCntR := u.nextPipeCnt i

def flushOther : Fin 2 := if u.itemR.entry.perm = 2 then 1 else 0

/-- Reset; the item has no reset value. -/
def init (item : PageTableItem params) : PageDeletor params := ⟨sIdle, item, 0, 0⟩

section Steps

variable {u} {i}

theorem flushOther_ne : u.flushOther ≠ u.flushWhich := by
  rw [flushOther, flushWhich]
  split <;> decide

theorem eq_which_or_other (k : Fin 2) : k = u.flushWhich ∨ k = u.flushOther := by
  rw [flushOther, flushWhich]
  split <;> revert k <;> decide

theorem pageDeleteReqFire_of_busy (hBusy : u.stateR ≠ sIdle) : u.pageDeleteReqFire i = none := if_neg hBusy

theorem item_next (hBusy : u.stateR ≠ sIdle) :
    (u.next i).itemR.tag = u.itemR.tag ∧ (u.next i).itemR.entry.ppn = u.itemR.entry.ppn ∧
      (u.next i).itemR.entry.perm = u.itemR.entry.perm := by
  change (u.nextItem i).tag = _ ∧ (u.nextItem i).entry.ppn = _ ∧ (u.nextItem i).entry.perm = _
  rw [nextItem, pageDeleteReqFire_of_busy hBusy]
  simp only
  split
  · cases i.tlbFrontendReplyI u.flushWhich with
    | none => exact ⟨rfl, rfl, rfl⟩
    | some reply =>
      rw [Option.map_some, Option.getD_some, flushedItem]
      split <;> exact ⟨rfl, rfl, rfl⟩
  · exact ⟨rfl, rfl, rfl⟩

theorem item_next_of_ne (hBusy : u.stateR ≠ sIdle) (hReply : u.stateR ≠ sFlushTLBReply) :
    (u.next i).itemR = u.itemR := by
  change u.nextItem i = _
  rw [nextItem, pageDeleteReqFire_of_busy hBusy]
  exact if_neg hReply

theorem flushWhich_next (hBusy : u.stateR ≠ sIdle) : (u.next i).flushWhich = u.flushWhich := by
  rw [flushWhich, flushWhich, (item_next hBusy).2.2]

theorem flushOther_next (hBusy : u.stateR ≠ sIdle) : (u.next i).flushOther = u.flushOther := by
  rw [flushOther, flushOther, (item_next hBusy).2.2]

/-- A deletion ends for its handler with the message that it is done, or before it when the page was not modified. -/
theorem pending_next (hPending : u.stateR.pending = true) (hDone : u.doneO i = false) :
    (u.next i).stateR.pending = true := by
  change (u.nextState i).pending = true
  rw [nextState]
  cases hState : u.stateR <;> simp only
  case sIdle | sNotifyLSU =>
    rw [hState] at hPending
    cases hPending
  case sSend =>
    have hFire : (u.doneMessageFire i).isSome = false := by simpa [doneO, hState] using hDone
    rw [hFire]
    rfl
  all_goals split <;> rfl

theorem doneO_eq (hModified : u.stateR = sWait → u.queueEmpty i = true → u.itemR.entry.modified = true) :
    u.doneO i = (u.doneMessageFire i).isSome := by
  rw [doneO]
  have hFirst : (decide (u.stateR = sWait) && u.queueEmpty i && !u.itemR.entry.modified) = false := by
    by_cases hState : u.stateR = sWait
    · cases hEmpty : u.queueEmpty i with
      | false => simp
      | true => simp [hModified hState hEmpty]
    · simp [hState]
  rw [hFirst, Bool.false_or]
  by_cases hState : u.stateR = sSend
  · simp [hState]
  · simp [hState, doneMessageFire, doneMessageO]

end Steps

section Progress

def refused : Bool :=
  match u.stateR with
  | sIdle | sPipe => false
  | sReqLSU => !i.flushPermReqReady u.flushWhich
  | sFlushTLBReq => !i.tlbFlushRequestReady u.flushWhich
  | sFlushTLBReply => (i.tlbFrontendReplyI u.flushWhich).isNone
  | sNotify => !i.startMessageReady
  | sFlushPage => !i.cacheFlushRequestReady u.flushWhich
  | sWait => !u.queueEmpty i
  | sSend => !i.doneMessageReady
  | sNotifyLSU => !i.flushCompledReady u.flushWhich

/-- The cycles until the deletor is idle again when no unit keeps it waiting. -/
def remaining : Nat :=
  match u.stateR with
  | sIdle => 0
  | sReqLSU => 76
  | sFlushTLBReq => 75
  | sFlushTLBReply => 74
  | sNotify => 73
  | sFlushPage => 8 + (64 - u.flushCntR.toNat)
  | sPipe => 4 + (4 - u.pipeCntR.toNat)
  | sWait => 3
  | sSend => 2
  | sNotifyLSU => 1

variable {u} {i}

theorem flushCnt_succ {cnt : BitVec 6} (h : cnt ≠ 63) : (cnt + 1).toNat = cnt.toNat + 1 := by bv_omega

theorem pipeCnt_succ {cnt : BitVec 2} (h : cnt ≠ 3) : (cnt + 1).toNat = cnt.toNat + 1 := by bv_omega

/-- Every cycle brings a deletion one step closer to its end, unless another unit refuses the step. -/
theorem remaining_next (hBusy : u.stateR ≠ sIdle) (hOpen : u.flushCompleteRequestFire i = false) :
    (u.next i).stateR ≠ sIdle ∧ (u.next i).remaining + 1 ≤ u.remaining + (u.refused i).toNat := by
  have hNext : (u.next i).stateR = u.nextState i := rfl
  cases hState : u.stateR with
  | sIdle => exact absurd hState hBusy
  | sReqLSU =>
    cases hReady : i.flushPermReqReady u.flushWhich <;>
      simp [remaining, refused, hNext, nextState, flushPermissionRequestFire, hState, hReady]
  | sFlushTLBReq =>
    cases hReady : i.tlbFlushRequestReady u.flushWhich <;> simp [remaining, refused, hNext, nextState, hState, hReady]
  | sFlushTLBReply =>
    cases hReply : i.tlbFrontendReplyI u.flushWhich <;> simp [remaining, refused, hNext, nextState, hState, hReply]
  | sNotify =>
    cases hReady : i.startMessageReady <;>
      simp [remaining, refused, hNext, nextState, startMessageFire, startMessageO, hState, hReady]
    omega
  | sFlushPage =>
    have hLt := u.flushCntR.isLt
    cases hReady : i.cacheFlushRequestReady u.flushWhich with
    | false => simp [remaining, refused, nextState, flushFired, hState, hReady, next, nextFlushCnt, pageDeleteReqFire]
    | true =>
      by_cases hLast : u.flushCntR = 63
      · simp [remaining, refused, nextState, flushFired, hState, hReady, next, nextPipeCnt, hLast]
      · have hState' : (u.next i).stateR = sFlushPage := by
          simp only [hNext, nextState, hState, hLast, false_and, if_false]
        have hCnt : (u.next i).flushCntR = u.flushCntR + 1 := by
          simp [next, nextFlushCnt, pageDeleteReqFire, flushFired, hState, hReady]
        refine ⟨by simp [hState'], ?_⟩
        simp only [remaining, hState', hState, hCnt, flushCnt_succ hLast]
        omega
  | sPipe =>
    have hLt := u.pipeCntR.isLt
    by_cases hLast : u.pipeCntR = 3
    · simp [remaining, refused, nextState, hState, next, hLast]
    · have hState' : (u.next i).stateR = sPipe := by
        simp only [hNext, nextState, hState, hLast, if_false]
      have hCnt : (u.next i).pipeCntR = u.pipeCntR + 1 := by simp [next, nextPipeCnt, flushFired, hState]
      refine ⟨by simp [hState'], ?_⟩
      simp only [remaining, hState', hState, hCnt, pipeCnt_succ hLast]
      omega
  | sWait =>
    cases hEmpty : u.queueEmpty i <;> simp [remaining, refused, hNext, nextState, hState, hEmpty]
  | sSend =>
    cases hReady : i.doneMessageReady <;>
      simp [remaining, refused, hNext, nextState, doneMessageFire, doneMessageO, hState, hReady]
  | sNotifyLSU =>
    have hReady : i.flushCompledReady u.flushWhich = false := by simpa [flushCompleteRequestFire, hState] using hOpen
    simp [remaining, refused, hNext, nextState, flushCompleteRequestFire, hState, hReady]

end Progress

end PageDeletor

end KnockoutKraken.Mmu

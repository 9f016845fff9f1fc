import KnockoutKraken.Library.Turns
import KnockoutKraken.Mmu.PageTableSet

/-!
# Operations on the page table

The four kinds of requests that the handlers serve, what each of them
makes of the set of its page, and the messages that are sent for it.
-/

namespace KnockoutKraken.Mmu

open Library Cache Armflex

inductive Operation (params : PageTableParams) (tlbs : Nat) where
  | walk (request : TLBMissRequestMessage params) (source : Fin (tlbs + 1))
  | writeback (request : TLBEvictionMessage params) (source : Fin (tlbs + 1))
  | missReply (request : QEMUMissReply params)
  | pageEvict (request : QEMUPageEvictRequest params)
deriving DecidableEq

inductive Event (params : PageTableParams) (tlbs : Nat) where
  | tlbReply (source : Fin (tlbs + 1)) (reply : TLBMMURespPacket params)
  | pageFault (fault : PageFaultNotification params)
  | missResolved (reply : TLBMMURespPacket params)
  | pageDelete (item : PageTableItem params)
deriving DecidableEq

def Event.IsDeletion {params : PageTableParams} {tlbs : Nat} : Event params tlbs → Prop
  | .pageDelete _ => True
  | _ => False

variable {params : PageTableParams} {tlbs : Nat}

/-- The buffer after a write request, which goes through the bundle. -/
def writeWords (words : SetWords) (request : PageSetBufferWriteRequestPacket params) : SetWords :=
  ((PageTableSetPacket.ofWords words).write request).asWords

namespace QEMUMissReply

variable (request : QEMUMissReply params) (set : PageTableSetPacket params)

def item : PageTableItem params := ⟨request.tag, ⟨request.ppn, request.perm, false⟩⟩

def writeRequest (index : Slot) : PageSetBufferWriteRequestPacket params := ⟨item request, false, index⟩

def reply : TLBMMURespPacket params := ⟨request.tag, ⟨request.ppn, request.perm, false⟩, request.thid⟩

/-- The deletion that must be through before the entry is replaced. -/
def deletions : List (Event params tlbs) :=
  if !(set.lookup request.tag).hitV && set.lruElement.lruV then [.pageDelete set.lruElement.item] else []

def replies : List (Event params tlbs) := if request.thidV then [.missResolved (reply request)] else []

end QEMUMissReply

namespace Operation

def tag : Operation params tlbs → PTTagPacket params
  | walk request _ => request.tag
  | writeback request _ => request.tag
  | missReply request => request.tag
  | pageEvict request => request.tag

def stores : Operation params tlbs → PageTableSetPacket params → Bool
  | walk _ _, _ => false
  | writeback _ _, _ => true
  | missReply request, set => !(set.lookup request.tag).hitV
  | pageEvict _, _ => true

def writeRequest (op : Operation params tlbs) (set : PageTableSetPacket params) :
    Option (PageSetBufferWriteRequestPacket params) :=
  match op with
  | walk _ _ => none
  | writeback request _ => some ⟨⟨request.tag, request.entry⟩, false, (set.lookup request.tag).index⟩
  | missReply request =>
    if (set.lookup request.tag).hitV then none else some (QEMUMissReply.writeRequest request set.lruElement.index)
  | pageEvict request => some ⟨⟨⟨0, 0⟩, ⟨0, 0, false⟩⟩, true, (set.lookup request.tag).index⟩

def emits : Operation params tlbs → PageTableSetPacket params → List (Event params tlbs)
  | walk request source, set =>
    let found := set.lookup request.tag
    if found.hitV then [.tlbReply source ⟨request.tag, found.item.entry, request.thid⟩]
    else [.pageFault ⟨request.tag, request.perm, request.thid⟩]
  | writeback _ _, _ => []
  | missReply request, set => QEMUMissReply.deletions request set ++ QEMUMissReply.replies request
  | pageEvict request, set => [.pageDelete (set.lookup request.tag).item]

def effect (params : PageTableParams) (tlbs : Nat) :
    Effect (BitVec params.pPageW) SetWords (Operation params tlbs) (Event params tlbs) where
  addr op := pagesetNumber op.tag
  apply op words := ((op.writeRequest (.ofWords words)).map (writeWords words)).getD words
  stores op words := op.stores (.ofWords words)
  emits op words := op.emits (.ofWords words)
  apply_eq {op words} hStores := by
    cases op with
    | walk => rfl
    | writeback => cases hStores
    | missReply request =>
      rw [stores, Bool.not_eq_false'] at hStores
      rw [writeRequest, if_pos hStores]
      rfl
    | pageEvict => cases hStores

end Operation

end KnockoutKraken.Mmu

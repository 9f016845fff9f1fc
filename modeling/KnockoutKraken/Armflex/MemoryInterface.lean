import KnockoutKraken.Armflex.PState
import KnockoutKraken.Armflex.SoftwareBundle
import KnockoutKraken.Util.Queues

/-!
# The memory interface of the pipeline

The ports to the translation buffers and the caches, the queue that keeps
what belongs to a cache request until its answer comes, and the
controller that stops a unit while the page manager flushes.

A translation is `Labelled`: the label goes wherever the translation goes
and no circuit reads it. It says where a translation comes from.
-/

namespace KnockoutKraken.Armflex

open Library Util

universe u v

structure PipelineParams where
  thidW : Nat
  pAddrW : Nat
  /-- A block has `2 ^ blockW` bytes. -/
  blockW : Nat

namespace PipelineParams

variable (params : PipelineParams)

abbrev Thid := BitVec params.thidW
abbrev PAddr := BitVec params.pAddrW
abbrev Block := BitVec (8 * 2 ^ params.blockW)
abbrev ByteEn := BitVec (2 ^ params.blockW)

instance : LawfulBEq params.Thid := instLawfulBEq

/-- `getBlockAddrBits`: the place of a byte in its block. -/
def blockAddrBits {n : Nat} (addr : BitVec n) : BitVec params.blockW := addr.extractLsb' 0 params.blockW

/-- The bits of an address below a page of 4096 bytes, on the lines of a physical address. -/
def pageOffset (addr : Word) : params.PAddr := (addr.extractLsb' 0 12).setWidth _

def IsPage (page : params.PAddr) : Prop := page >>> 12 <<< 12 = page

instance (page : params.PAddr) : Decidable (params.IsPage page) := inferInstanceAs (Decidable (_ = _))

def inPage (page : params.PAddr) (addr : Word) : params.PAddr := page >>> 12 <<< 12 ||| params.pageOffset addr

end PipelineParams

structure Labelled (Λ : Type u) (α : Type v) where
  bits : α
  label : Λ
deriving DecidableEq

structure PipeTLBReq (params : PipelineParams) where
  addr : Word
  thid : params.Thid
  perm : BitVec permW
deriving DecidableEq

structure PipeTLBResp (params : PipelineParams) (Λ : Type u) where
  addr : params.PAddr
  hit : Bool
  violation : Bool
  label : Λ
deriving DecidableEq

structure CacheRequest (params : PipelineParams) where
  addr : params.PAddr
  data : params.Block
  wEn : params.ByteEn
deriving DecidableEq

structure CacheResponse (params : PipelineParams) where
  data : params.Block
  hit : Bool
  miss : Bool
  miss2hit : Bool
deriving DecidableEq

/-- What a cache answers: a hit, a miss, or the refill of an earlier miss. -/
def CacheResponse.Legal {params : PipelineParams} (r : CacheResponse params) : Prop :=
  r.miss = !r.hit ∧ (r.miss2hit = true → r.hit = true)

instance {params : PipelineParams} (r : CacheResponse params) : Decidable r.Legal := inferInstanceAs (Decidable (_ ∧ (_ → _)))

namespace CacheInterface

variable {params : PipelineParams} {α : Type u} (maxInstsInFlight : Nat) (metaQ : DoubleLatencyQueue α)
  (resp : Option (CacheResponse params)) (pipeReady : Bool)

def reqReady (cacheReady : Bool) : Bool := cacheReady && metaQ.reqReady maxInstsInFlight

def cacheValid (pipeValid : Bool) : Bool := pipeValid && metaQ.reqReady maxInstsInFlight

/-- A refill after a miss is always a hit. -/
def ctrl : DoubleLatencyQueueCtrl :=
  match resp with
  | some r => if pipeReady then ⟨false, r.hit && !r.miss2hit, r.miss, r.miss2hit⟩ else ⟨false, false, false, false⟩
  | none => ⟨false, false, false, false⟩

/-- The answer passed on, with what belongs to its request. A cache answers only
requests it has taken, and an answer to none is taken as no answer. -/
def pipeResp : Option (α × params.Block) :=
  resp.bind fun r =>
    if pipeReady && r.miss then none else (metaQ.resp (ctrl resp pipeReady)).map fun m => (m, r.data)

def next (req : Option α) : DoubleLatencyQueue α := metaQ.next maxInstsInFlight (ctrl resp pipeReady) req

variable {maxInstsInFlight} {metaQ} {resp} {pipeReady}

theorem mem_of_pipeResp {r : α × params.Block} (h : pipeResp metaQ resp pipeReady = some r) :
    r.1 ∈ metaQ.baseQ ∨ r.1 ∈ metaQ.longQ := by
  obtain ⟨answer, -, hPass⟩ := Option.bind_eq_some_iff.mp h
  split at hPass
  · cases hPass
  · obtain ⟨m, hMeta, rfl⟩ := Option.map_eq_some_iff.mp hPass
    exact DoubleLatencyQueue.mem_of_resp hMeta

variable (maxInstsInFlight) (metaQ) (resp) (pipeReady) in
/-- Each answer but a miss takes what belongs to its request along. -/
theorem tokens_next {τ : Type v} [DecidableEq τ] (req : Option α) (token : α → τ) (t : τ)
    (hReq : req.isSome = true → metaQ.reqReady maxInstsInFlight = true)
    (hLegal : ∀ r ∈ resp, r.Legal) (hReady : resp.isSome = true → pipeReady = true)
    (hRoom : ∀ r ∈ resp, r.miss = true → metaQ.longQ.length < maxInstsInFlight) :
    tokens token t (next maxInstsInFlight metaQ resp pipeReady req).baseQ +
        tokens token t (next maxInstsInFlight metaQ resp pipeReady req).longQ +
        held (fun r => token r.1) t (pipeResp metaQ resp pipeReady) =
      tokens token t metaQ.baseQ + tokens token t metaQ.longQ + held token t req := by
  cases resp with
  | none => exact DoubleLatencyQueue.tokens_next _ _ _ token t hReq rfl (fun h => by cases h) fun h => by cases h
  | some r =>
    obtain ⟨hMiss, hRefill⟩ := hLegal r rfl
    obtain rfl := hReady rfl
    have hSum := DoubleLatencyQueue.tokens_next maxInstsInFlight metaQ (ctrl (some r) true) token t hReq rfl
      (fun hDone => by
        simp only [ctrl, if_true, Bool.and_eq_true] at hDone ⊢
        rw [hMiss, hDone.1]
        rfl)
      (fun hLong => hRoom r rfl hLong)
    have hOut : held (fun r => token r.1) t (pipeResp metaQ (some r) true) =
        held token t (if (ctrl (some r) true).done then metaQ.baseQ.head? else none) +
          held token t (if (ctrl (some r) true).longDone then metaQ.longQ.head? else none) := by
      cases hh : r.hit <;> cases hm : r.miss2hit <;>
        simp [pipeResp, ctrl, DoubleLatencyQueue.resp, hMiss, hh, hm, held_map] at hRefill ⊢
    rw [next, hOut]
    exact hSum

end CacheInterface

/-- What the page manager asks of a unit: to flush, and to go on after it. -/
structure PipeMMUPort where
  flushPermReq : Bool
  flushCompled : Bool
deriving DecidableEq

inductive FlushState where
  | idle | completePending | waitComplete
deriving DecidableEq

namespace CacheFlushingController

open FlushState

variable (flushState : FlushState) (mmu : PipeMMUPort) (hasPendingWork : Bool)

def granted : Bool := decide (flushState = completePending) && !hasPendingWork && mmu.flushPermReq

def completed : Bool := decide (flushState = waitComplete) && mmu.flushCompled

def next : FlushState :=
  match flushState with
  | idle => if mmu.flushPermReq then completePending else idle
  | completePending => if granted flushState mmu hasPendingWork then waitComplete else completePending
  | waitComplete => if mmu.flushCompled then idle else waitComplete

def waitingForMMU : Bool := decide (flushState = waitComplete)

def stopTransactions : Bool := decide (flushState = completePending ∨ flushState = waitComplete)

variable {flushState} {mmu} {hasPendingWork}

theorem waitingForMMU_next (h : waitingForMMU (next flushState mmu hasPendingWork) = true) :
    granted flushState mmu hasPendingWork = true ∨ waitingForMMU flushState = true := by
  cases flushState with
  | idle => cases hReq : mmu.flushPermReq <;> simp [next, waitingForMMU, hReq] at h
  | completePending => cases hGrant : granted completePending mmu hasPendingWork <;> simp [next, waitingForMMU, hGrant] at h ⊢
  | waitComplete => exact .inr rfl

theorem hasPendingWork_of_granted (h : granted flushState mmu hasPendingWork = true) : hasPendingWork = false := by
  simp only [granted, Bool.and_eq_true, Bool.not_eq_true'] at h
  exact h.1.2

end CacheFlushingController

end KnockoutKraken.Armflex

import KnockoutKraken.Mmu.Operation

/-!
# Replies of the host to page faults

The handler inserts the entry that the host sent when the page is absent
from its set: into a free slot, or into the slot that the replacement
tree names once the entry there is deleted. The hit it decides on was
sampled in the cycle before. The translation buffer is answered when the
reply names a waiting thread.
-/

namespace KnockoutKraken.Mmu

open Library Cache Armflex

variable {params : PageTableParams} {tlbs : Nat}

inductive QEMUMissReplyState where
  | sIdle | sLoadSet | sCheckHit | sGetEvict | sDeletePageReq | sDeletePage | sReplace | sMoveback | sReplyToTLB
deriving DecidableEq

structure QEMUMissReplyHandler (params : PageTableParams) where
  stateR : QEMUMissReplyState
  requestR : QEMUMissReply params
  pteHitRv : Bool
  victimR : PageTableItem params
  targetIndexR : Slot
deriving DecidableEq

namespace QEMUMissReplyHandler

open QEMUMissReplyState

structure Input (params : PageTableParams) where
  qemuMissReplyI : Option (QEMUMissReply params)
  pageDeleteReqReady : Bool
  pageDeleteDoneI : Bool
  tlbBackendReplyReady : Bool

variable (u : QEMUMissReplyHandler params) (i : Input params) (moved : Moved SetWords)

def qemuMissReplyFire : Option (QEMUMissReply params) := if u.stateR = sIdle then i.qemuMissReplyI else none

theorem qemuMissReplyFire_eq_some {u : QEMUMissReplyHandler params} {i : Input params} {request : QEMUMissReply params}
    (hFire : u.qemuMissReplyFire i = some request) : i.qemuMissReplyI = some request := by
  rw [qemuMissReplyFire] at hFire
  split at hFire
  · exact hFire
  · cases hFire

def pageDeleteReqFire : Option (PageTableItem params) :=
  if u.stateR = sDeletePageReq ∧ i.pageDeleteReqReady = true then some u.victimR else none

def tlbBackendReplyFire : Option (TLBMMURespPacket params) :=
  if u.stateR = sReplyToTLB ∧ i.tlbBackendReplyReady = true then some (QEMUMissReply.reply u.requestR) else none

def writeRequest : Option (PageSetBufferWriteRequestPacket params) :=
  if u.stateR = sReplace then some (QEMUMissReply.writeRequest u.requestR u.targetIndexR) else none

variable (params) in
def lruElementO : LruElement params := (PageTableSetPacket.ofWords moved.block).lruElement

def nextState : QEMUMissReplyState :=
  match u.stateR with
  | sIdle => if (u.qemuMissReplyFire i).isSome then sLoadSet else sIdle
  | sLoadSet => if moved.readDone then sCheckHit else sLoadSet
  | sCheckHit => if u.pteHitRv then (if u.requestR.thidV then sReplyToTLB else sIdle) else sGetEvict
  | sGetEvict => if (lruElementO params moved).lruV then sDeletePageReq else sReplace
  | sDeletePageReq => if i.pageDeleteReqReady then sDeletePage else sDeletePageReq
  | sDeletePage => if i.pageDeleteDoneI then sReplace else sDeletePage
  | sReplace => if moved.writeReady then sMoveback else sReplace
  | sMoveback => if moved.writeDone then (if u.requestR.thidV then sReplyToTLB else sIdle) else sMoveback
  | sReplyToTLB => if i.tlbBackendReplyReady then sIdle else sReplyToTLB

def next : QEMUMissReplyHandler params where
  stateR := u.nextState i moved
  requestR := (u.qemuMissReplyFire i).getD u.requestR
  pteHitRv := ((PageTableSetPacket.ofWords moved.block).lookup u.requestR.tag).hitV
  victimR := if u.stateR = sGetEvict then (lruElementO params moved).item else u.victimR
  targetIndexR := if u.stateR = sGetEvict then (lruElementO params moved).index else u.targetIndexR

def handler (params : PageTableParams) (tlbs : Nat) : Handler (BitVec params.pPageW) SetWords
    (PageSetBufferWriteRequestPacket params) (Operation params tlbs) (Event params tlbs) where
  State := QEMUMissReplyHandler params
  Input := Input params
  idle u := decide (u.stateR = sIdle)
  accept u i := (u.qemuMissReplyFire i).map .missReply
  loading u := if u.stateR = sLoadSet then some (pagesetNumber u.requestR.tag) else none
  storing u := if u.stateR = sMoveback then some (pagesetNumber u.requestR.tag) else none
  writeRequest := writeRequest
  emit u i := ((u.pageDeleteReqFire i).map .pageDelete).or ((u.tlbBackendReplyFire i).map .missResolved)
  next := next
  idle_of_accept {u i op} hAccept := by
    by_cases hIdle : u.stateR = sIdle
    · exact decide_eq_true hIdle
    · rw [qemuMissReplyFire, if_neg hIdle] at hAccept
      cases hAccept

/-- The registers hold what the loaded set offers for an absent page. -/
structure Chosen (u : QEMUMissReplyHandler params) (words : SetWords) : Prop where
  absent : ((PageTableSetPacket.ofWords words).lookup u.requestR.tag).hitV = false
  target : u.targetIndexR = (PageTableSetPacket.ofWords words : PageTableSetPacket params).lruElement.index
  victim : u.victimR = (PageTableSetPacket.ofWords words).lruElement.item

def Phase (x : Txn SetWords (Operation params tlbs) (Event params tlbs)) (c : (handler params tlbs).Client) : Prop :=
  match c.state.stateR with
  | sIdle => False
  | sLoadSet => Loading x c ∧ x.emitted = []
  | sCheckHit => Held x c c.block false ∧
      c.state.pteHitRv = ((PageTableSetPacket.ofWords c.block).lookup c.state.requestR.tag).hitV ∧ x.emitted = []
  | sGetEvict => Held x c c.block false ∧
      ((PageTableSetPacket.ofWords c.block).lookup c.state.requestR.tag).hitV = false ∧ x.emitted = []
  | sDeletePageReq => Held x c c.block false ∧ Chosen c.state c.block ∧ x.emitted = [] ∧
      QEMUMissReply.deletions c.state.requestR (.ofWords c.block) = [(.pageDelete c.state.victimR : Event params tlbs)]
  | sDeletePage | sReplace => Held x c c.block false ∧ Chosen c.state c.block ∧
      x.emitted = QEMUMissReply.deletions c.state.requestR (.ofWords c.block)
  | sMoveback => ∃ words, Storing x c words ∧
      ((PageTableSetPacket.ofWords words).lookup c.state.requestR.tag).hitV = false ∧
      c.block = (Operation.effect params tlbs).apply x.op words ∧
      x.emitted = QEMUMissReply.deletions c.state.requestR (.ofWords words)
  | sReplyToTLB => ∃ words, Held x c words ((Operation.effect params tlbs).stores x.op words) ∧
      c.state.requestR.thidV = true ∧ x.emitted = QEMUMissReply.deletions c.state.requestR (.ofWords words)

structure Serving (x : Txn SetWords (Operation params tlbs) (Event params tlbs)) (c : (handler params tlbs).Client) :
    Prop where
  op : x.op = .missReply c.state.requestR
  phase : Phase x c

theorem Serving.state_ne {x : Txn SetWords (Operation params tlbs) (Event params tlbs)}
    {c : (handler params tlbs).Client} (h : Serving x c) : c.state.stateR ≠ sIdle := by
  intro hState
  have hPhase := h.phase
  rw [Phase, hState] at hPhase
  exact hPhase

section Steps

variable {x : Txn SetWords (Operation params tlbs) (Event params tlbs)} {c : (handler params tlbs).Client}
  (table : BitVec params.pPageW → SetWords) (stamp : BitVec params.pPageW → Nat) (i : (handler params tlbs).ClientInput)

theorem state_next : (c.next writeWords table i).state = c.state.next i.handler (c.moved i) := rfl

theorem request_next (hBusy : c.state.stateR ≠ sIdle) :
    (c.next writeWords table i).state.requestR = c.state.requestR := by
  simp [state_next, next, qemuMissReplyFire, hBusy]

theorem emitted_next (hDelete : c.state.stateR ≠ sDeletePageReq) (hReply : c.state.stateR ≠ sReplyToTLB) :
    (x.advance table stamp c i).emitted = x.emitted := by
  simp [Txn.advance, handler, pageDeleteReqFire, tlbBackendReplyFire, hDelete, hReply]

theorem chosen_next {words : SetWords} (h : Chosen c.state words) (hBusy : c.state.stateR ≠ sIdle)
    (hState : c.state.stateR ≠ sGetEvict) : Chosen (c.next writeWords table i).state words := by
  obtain ⟨hAbsent, hTarget, hVictim⟩ := h
  refine ⟨?_, ?_, ?_⟩
  · rw [request_next table i hBusy, hAbsent]
  · rw [← hTarget]
    simp [state_next, next, hState]
  · rw [← hVictim]
    simp [state_next, next, hState]

theorem held_next {words : SetWords} {stored : Bool} (h : Held x c words stored)
    (hStill : c.state.stateR ≠ sLoadSet ∧ c.state.stateR ≠ sReplace ∧ c.state.stateR ≠ sMoveback) :
    Held (x.advance table stamp c i) (c.next writeWords table i) words stored ∧ (c.next writeWords table i).block = c.block :=
  h.next_same writeWords table stamp i (by simp [handler, hStill]) (by simp [handler, hStill]) (by simp [handler, writeRequest, hStill])

theorem phase_next_of_loadSet (hState : c.state.stateR = sLoadSet) (h : Phase x c) :
    Phase (x.advance table stamp c i) (c.next writeWords table i) := by
  rw [Phase, hState] at h
  obtain ⟨h, hEmitted⟩ := h
  have hStore : (handler params tlbs).storing c.state = none := by simp [handler, hState]
  have hWrite : (handler params tlbs).writeRequest c.state = none := by simp [handler, writeRequest, hState]
  have hNext : (c.next writeWords table i).state.stateR = if (c.moved i).readDone then sCheckHit else sLoadSet := by
    simp [state_next, next, nextState, hState]
  have hEmitted' : (x.advance table stamp c i).emitted = [] :=
    (emitted_next table stamp i (by simp [hState]) (by simp [hState])).trans hEmitted
  cases hDone : (c.moved i).readDone with
  | true =>
    obtain ⟨hHeld, hBlock⟩ := h.next_of_done writeWords table stamp hStore hWrite hDone
    rw [Phase, hNext, hDone, if_pos rfl, hBlock, request_next table i (by simp [hState])]
    -- the load happened before it was signalled, so the hit is that of the loaded set
    exact ⟨hHeld, rfl, hEmitted'⟩
  | false =>
    rw [Phase, hNext, hDone, if_neg Bool.false_ne_true]
    exact ⟨h.next writeWords table stamp (by simp [handler, hState]) hStore hWrite hDone, hEmitted'⟩

theorem phase_next_of_checkHit (hState : c.state.stateR = sCheckHit) (hOp : x.op = .missReply c.state.requestR) (h : Phase x c)
    (hBusy : (c.next writeWords table i).state.stateR ≠ sIdle) :
    Phase (x.advance table stamp c i) (c.next writeWords table i) := by
  rw [Phase, hState] at h
  obtain ⟨h, hHit, hEmitted⟩ := h
  have hNext : (c.next writeWords table i).state.stateR =
      if c.state.pteHitRv then (if c.state.requestR.thidV then sReplyToTLB else sIdle) else sGetEvict := by
    simp [state_next, next, nextState, hState]
  have hRequest := request_next table i (c := c) (by simp [hState])
  have hEmitted' : (x.advance table stamp c i).emitted = [] :=
    (emitted_next table stamp i (by simp [hState]) (by simp [hState])).trans hEmitted
  obtain ⟨hHeld, hBlock⟩ := held_next table stamp i h (by simp [hState])
  cases hCase : c.state.pteHitRv with
  | false =>
    rw [Phase, hNext, hCase, if_neg Bool.false_ne_true, hBlock, hRequest]
    exact ⟨hHeld, hHit.symm.trans hCase, hEmitted'⟩
  | true =>
    have hThid : c.state.requestR.thidV = true := by
      rw [hNext, hCase, if_pos rfl] at hBusy
      cases hThid : c.state.requestR.thidV with
      | true => rfl
      | false => simp [hThid] at hBusy
    rw [hCase] at hHit
    rw [Phase, hNext, hCase, if_pos rfl, if_pos hThid, hRequest]
    refine ⟨c.block, ?_, hThid, ?_⟩
    · simpa [Operation.effect, Operation.stores, Txn.advance, hOp, ← hHit] using hHeld
    · rw [hEmitted', QEMUMissReply.deletions, ← hHit]
      rfl

theorem phase_next_of_getEvict (hState : c.state.stateR = sGetEvict) (h : Phase x c) :
    Phase (x.advance table stamp c i) (c.next writeWords table i) := by
  rw [Phase, hState] at h
  obtain ⟨h, hAbsent, hEmitted⟩ := h
  have hNext : (c.next writeWords table i).state.stateR =
      if (PageTableSetPacket.ofWords c.block : PageTableSetPacket params).lruElement.lruV then sDeletePageReq
      else sReplace := by
    simp only [state_next, next, nextState, hState]
    rfl
  have hRequest := request_next table i (c := c) (by simp [hState])
  have hEmitted' : (x.advance table stamp c i).emitted = [] :=
    (emitted_next table stamp i (by simp [hState]) (by simp [hState])).trans hEmitted
  obtain ⟨hHeld, hBlock⟩ := held_next table stamp i h (by simp [hState])
  have hVictim : (c.next writeWords table i).state.victimR = (PageTableSetPacket.ofWords c.block).lruElement.item := by
    simp [state_next, next, hState, lruElementO, Handler.Client.moved]
  have hChosen : Chosen (c.next writeWords table i).state c.block := by
    refine ⟨?_, ?_, hVictim⟩
    · rw [hRequest, hAbsent]
    · simp [state_next, next, hState, lruElementO, Handler.Client.moved]
  have hDeletions : (QEMUMissReply.deletions c.state.requestR (.ofWords c.block) : List (Event params tlbs)) =
      if (PageTableSetPacket.ofWords c.block : PageTableSetPacket params).lruElement.lruV then
        [.pageDelete (c.next writeWords table i).state.victimR] else [] := by
    rw [QEMUMissReply.deletions, hAbsent, hVictim, Bool.not_false, Bool.true_and]
  cases hFull : (PageTableSetPacket.ofWords c.block : PageTableSetPacket params).lruElement.lruV with
  | true =>
    rw [hFull, if_pos rfl] at hDeletions
    rw [Phase, hNext, hFull, if_pos rfl, hBlock, hRequest]
    exact ⟨hHeld, hChosen, hEmitted', hDeletions⟩
  | false =>
    rw [hFull, if_neg Bool.false_ne_true] at hDeletions
    rw [Phase, hNext, hFull, if_neg Bool.false_ne_true, hBlock, hRequest]
    exact ⟨hHeld, hChosen, hEmitted'.trans hDeletions.symm⟩

theorem phase_next_of_deletePageReq (hState : c.state.stateR = sDeletePageReq) (h : Phase x c) :
    Phase (x.advance table stamp c i) (c.next writeWords table i) := by
  rw [Phase, hState] at h
  obtain ⟨h, hChosen, hEmitted, hDeletions⟩ := h
  have hNext : (c.next writeWords table i).state.stateR =
      if i.handler.pageDeleteReqReady then sDeletePage else sDeletePageReq := by
    simp [state_next, next, nextState, hState]
  have hRequest := request_next table i (c := c) (by simp [hState])
  have hVictim : (c.next writeWords table i).state.victimR = c.state.victimR := by simp [state_next, next, hState]
  have hChosen' := chosen_next table i hChosen (by simp [hState]) (by simp [hState])
  obtain ⟨hHeld, hBlock⟩ := held_next table stamp i h (by simp [hState])
  cases hReady : i.handler.pageDeleteReqReady with
  | true =>
    rw [Phase, hNext, hReady, if_pos rfl, hBlock, hRequest]
    refine ⟨hHeld, hChosen', ?_⟩
    rw [hDeletions]
    simp [Txn.advance, handler, pageDeleteReqFire, hState, hReady, hEmitted]
  | false =>
    rw [Phase, hNext, hReady, if_neg Bool.false_ne_true, hBlock, hRequest, hVictim]
    refine ⟨hHeld, hChosen', ?_, hDeletions⟩
    simp [Txn.advance, handler, pageDeleteReqFire, tlbBackendReplyFire, hState, hReady, hEmitted]

theorem phase_next_of_deletePage (hState : c.state.stateR = sDeletePage) (h : Phase x c) :
    Phase (x.advance table stamp c i) (c.next writeWords table i) := by
  rw [Phase, hState] at h
  obtain ⟨h, hChosen, hEmitted⟩ := h
  have hNext : (c.next writeWords table i).state.stateR = if i.handler.pageDeleteDoneI then sReplace else sDeletePage := by
    simp [state_next, next, nextState, hState]
  have hRequest := request_next table i (c := c) (by simp [hState])
  have hChosen' := chosen_next table i hChosen (by simp [hState]) (by simp [hState])
  have hEmitted' := (emitted_next (x := x) (c := c) table stamp i (by simp [hState]) (by simp [hState])).trans hEmitted
  obtain ⟨hHeld, hBlock⟩ := held_next table stamp i h (by simp [hState])
  cases hDone : i.handler.pageDeleteDoneI with
  | true =>
    rw [Phase, hNext, hDone, if_pos rfl, hBlock, hRequest]
    exact ⟨hHeld, hChosen', hEmitted'⟩
  | false =>
    rw [Phase, hNext, hDone, if_neg Bool.false_ne_true, hBlock, hRequest]
    exact ⟨hHeld, hChosen', hEmitted'⟩

theorem phase_next_of_replace (hState : c.state.stateR = sReplace) (hOp : x.op = .missReply c.state.requestR)
    (h : Phase x c) :
    Phase (x.advance table stamp c i) (c.next writeWords table i) := by
  rw [Phase, hState] at h
  obtain ⟨h, hChosen, hEmitted⟩ := h
  have hNext : (c.next writeWords table i).state.stateR = sMoveback := by
    simp [state_next, next, nextState, hState, Handler.Client.moved]
  have hRequest := request_next table i (c := c) (by simp [hState])
  obtain ⟨hHeld, hBlock⟩ := h.next writeWords table stamp i (by simp [handler, hState]) (by simp [handler, hState])
  rw [Phase, hNext]
  refine ⟨c.block, hHeld.storing, ?_, ?_, ?_⟩
  · rw [hRequest, hChosen.absent]
  · rw [hBlock]
    simp [handler, writeRequest, hState, hChosen.target, hChosen.absent, Operation.effect, Txn.advance, hOp,
      Operation.writeRequest]
  · rw [hRequest, emitted_next table stamp i (by simp [hState]) (by simp [hState]), hEmitted]

theorem phase_next_of_moveback (hState : c.state.stateR = sMoveback) (hOp : x.op = .missReply c.state.requestR) (h : Phase x c)
    (hBusy : (c.next writeWords table i).state.stateR ≠ sIdle) :
    Phase (x.advance table stamp c i) (c.next writeWords table i) := by
  rw [Phase, hState] at h
  obtain ⟨words, h, hAbsent, hBlock, hEmitted⟩ := h
  have hWrite : (handler params tlbs).writeRequest c.state = none := by simp [handler, writeRequest, hState]
  have hNext : (c.next writeWords table i).state.stateR =
      if (c.moved i).writeDone then (if c.state.requestR.thidV then sReplyToTLB else sIdle) else sMoveback := by
    simp [state_next, next, nextState, hState]
  have hRequest := request_next table i (c := c) (by simp [hState])
  have hEmitted' := (emitted_next (x := x) (c := c) table stamp i (by simp [hState]) (by simp [hState])).trans hEmitted
  cases hDone : (c.moved i).writeDone with
  | true =>
    have hThid : c.state.requestR.thidV = true := by
      rw [hNext, hDone, if_pos rfl] at hBusy
      cases hThid : c.state.requestR.thidV with
      | true => rfl
      | false => simp [hThid] at hBusy
    have hHeld := h.next_of_done writeWords table stamp (by simp [handler, hState]) hDone
    rw [Phase, hNext, hDone, if_pos rfl, if_pos hThid, hRequest]
    refine ⟨words, ?_, hThid, hEmitted'⟩
    simpa [Operation.effect, Operation.stores, Txn.advance, hOp, hAbsent] using hHeld
  | false =>
    obtain ⟨hStoring, hSame⟩ := h.next writeWords table stamp (by simp [handler, hState]) hWrite hDone
    rw [Phase, hNext, hDone, if_neg Bool.false_ne_true, hRequest]
    exact ⟨words, hStoring, hAbsent, hSame.trans hBlock, hEmitted'⟩

theorem phase_next_of_replyToTLB (hState : c.state.stateR = sReplyToTLB) (h : Phase x c)
    (hBusy : (c.next writeWords table i).state.stateR ≠ sIdle) :
    Phase (x.advance table stamp c i) (c.next writeWords table i) := by
  rw [Phase, hState] at h
  obtain ⟨words, h, hThid, hEmitted⟩ := h
  have hNext : (c.next writeWords table i).state.stateR =
      if i.handler.tlbBackendReplyReady then sIdle else sReplyToTLB := by
    simp [state_next, next, nextState, hState]
  have hRequest := request_next table i (c := c) (by simp [hState])
  obtain ⟨hHeld, _⟩ := held_next table stamp i h (by simp [hState])
  cases hReady : i.handler.tlbBackendReplyReady with
  | true => exact absurd (by rw [hNext, hReady, if_pos rfl]) hBusy
  | false =>
    rw [Phase, hNext, hReady, if_neg Bool.false_ne_true, hRequest]
    refine ⟨words, hHeld, hThid, ?_⟩
    rw [← hEmitted]
    simp [Txn.advance, handler, pageDeleteReqFire, tlbBackendReplyFire, hState, hReady]

theorem phase_next (hOp : x.op = .missReply c.state.requestR) (h : Phase x c)
    (hBusy : (c.next writeWords table i).state.stateR ≠ sIdle) :
    Phase (x.advance table stamp c i) (c.next writeWords table i) := by
  cases hState : c.state.stateR with
  | sIdle =>
    rw [Phase, hState] at h
    exact h.elim
  | sLoadSet => exact phase_next_of_loadSet table stamp i hState h
  | sCheckHit => exact phase_next_of_checkHit table stamp i hState hOp h hBusy
  | sGetEvict => exact phase_next_of_getEvict table stamp i hState h
  | sDeletePageReq => exact phase_next_of_deletePageReq table stamp i hState h
  | sDeletePage => exact phase_next_of_deletePage table stamp i hState h
  | sReplace => exact phase_next_of_replace table stamp i hState hOp h
  | sMoveback => exact phase_next_of_moveback table stamp i hState hOp h hBusy
  | sReplyToTLB => exact phase_next_of_replyToTLB table stamp i hState h hBusy

/-- The operation ends where the reply is taken, or where no thread waits for it. -/
theorem close_next (h : Serving x c) (hIdle : (c.next writeWords table i).state.stateR = sIdle) :
    ∃ words, Held (x.advance table stamp c i) (c.next writeWords table i) words
        ((Operation.effect params tlbs).stores x.op words) ∧
      (x.advance table stamp c i).emitted = (Operation.effect params tlbs).emits x.op words := by
  have hPhase := h.phase
  have hEmits : ∀ words, (Operation.effect params tlbs).emits x.op words =
      QEMUMissReply.deletions c.state.requestR (.ofWords words) ++ QEMUMissReply.replies c.state.requestR := by
    intro words
    rw [h.op]
    rfl
  have hNext : c.state.nextState i.handler (c.moved i) = sIdle := hIdle
  rw [Phase] at hPhase
  cases hState : c.state.stateR with
  | sIdle => exact absurd hState h.state_ne
  | sCheckHit =>
    rw [hState] at hPhase
    obtain ⟨hHeld, hHit, hEmitted⟩ := hPhase
    have hCase : c.state.pteHitRv = true ∧ c.state.requestR.thidV = false := by
      simp only [nextState, hState] at hNext
      cases hPte : c.state.pteHitRv <;> cases hThid : c.state.requestR.thidV <;> simp [hPte, hThid] at hNext ⊢
    obtain ⟨hHeld, _⟩ := held_next table stamp i hHeld (by simp [hState])
    rw [hCase.1] at hHit
    refine ⟨c.block, ?_, ?_⟩
    · simpa [Operation.effect, Operation.stores, h.op, ← hHit] using hHeld
    · rw [emitted_next table stamp i (by simp [hState]) (by simp [hState]), hEmitted, hEmits,
        QEMUMissReply.deletions, QEMUMissReply.replies, ← hHit, hCase.2]
      rfl
  | sMoveback =>
    rw [hState] at hPhase
    obtain ⟨words, hStoring, hAbsent, _, hEmitted⟩ := hPhase
    have hCase : (c.moved i).writeDone = true ∧ c.state.requestR.thidV = false := by
      simp only [nextState, hState] at hNext
      cases hDone : (c.moved i).writeDone <;> cases hThid : c.state.requestR.thidV <;> simp [hDone, hThid] at hNext ⊢
    have hHeld := hStoring.next_of_done writeWords table stamp (by simp [handler, hState]) hCase.1
    refine ⟨words, ?_, ?_⟩
    · simpa [Operation.effect, Operation.stores, h.op, hAbsent] using hHeld
    · rw [emitted_next table stamp i (by simp [hState]) (by simp [hState]), hEmitted, hEmits,
        QEMUMissReply.replies, hCase.2]
      exact (List.append_nil _).symm
  | sReplyToTLB =>
    rw [hState] at hPhase
    obtain ⟨words, hHeld, hThid, hEmitted⟩ := hPhase
    have hReady : i.handler.tlbBackendReplyReady = true := by
      simp only [nextState, hState] at hNext
      split at hNext
      · assumption
      · cases hNext
    obtain ⟨hHeld, _⟩ := held_next table stamp i hHeld (by simp [hState])
    refine ⟨words, hHeld, ?_⟩
    rw [hEmits, ← hEmitted, QEMUMissReply.replies, hThid, if_pos rfl]
    simp [Txn.advance, handler, pageDeleteReqFire, tlbBackendReplyFire, hState, hReady]
  | sLoadSet | sDeletePageReq | sDeletePage | sReplace | sGetEvict =>
    simp only [nextState, hState] at hNext
    split at hNext <;> cases hNext

end Steps

theorem serves : (handler params tlbs).Serves writeWords (Operation.effect params tlbs) Serving where
  quiet {u} hIdle := by
    have hState : u.stateR = sIdle := of_decide_eq_true hIdle
    simp [handler, hState]
  rest {u i} m hIdle hAccept := by
    have hState : u.stateR = sIdle := of_decide_eq_true hIdle
    have hFire : u.qemuMissReplyFire i = none := Option.map_eq_none_iff.mp hAccept
    simp [handler, next, nextState, hState, hFire]
  accept {c i op} table hFree hAccept := by
    have hState : c.state.stateR = sIdle := of_decide_eq_true hFree.idle
    obtain ⟨request, hFire, rfl⟩ := Option.map_eq_some_iff.mp hAccept
    have hFire' : c.state.qemuMissReplyFire i.handler = some request := hFire
    refine ⟨by simp [state_next, next, hFire', Txn.start], ?_⟩
    have hNext : (c.next writeWords table i).state.stateR = sLoadSet := by
      simp [state_next, next, nextState, hState, hFire']
    rw [Phase, hNext]
    refine ⟨.start _ ?_ ?_, rfl⟩
    · simp [Handler.Client.next, Handler.Client.reads, handler, hState, hFree.readMoved]
    · simp [Handler.Client.next, Handler.Client.stores, handler, hState, hFree.writeMoved]
  busy {x c} h := decide_eq_false h.state_ne
  loading {x c t} h hLoad := by
    have hPhase := h.phase
    by_cases hState : c.state.stateR = sLoadSet
    · have hSet : some (pagesetNumber c.state.requestR.tag) = some t := by simpa [handler, hState] using hLoad
      rw [Phase, hState] at hPhase
      rw [Option.some.injEq] at hSet
      rw [h.op, ← hSet]
      exact ⟨hPhase.1, rfl⟩
    · simp [handler, hState] at hLoad
  storing {x c t} h hStore := by
    have hPhase := h.phase
    by_cases hState : c.state.stateR = sMoveback
    · have hSet : some (pagesetNumber c.state.requestR.tag) = some t := by simpa [handler, hState] using hStore
      rw [Phase, hState] at hPhase
      obtain ⟨words, hStoring, hAbsent, hBlock, _⟩ := hPhase
      rw [Option.some.injEq] at hSet
      refine ⟨words, hStoring, ?_, ?_, hBlock⟩
      · simp [h.op, Operation.effect, Operation.stores, hAbsent]
      · rw [h.op, ← hSet]
        rfl
    · simp [handler, hState] at hStore
  advance {x c} table stamp i h hBusy := by
    refine ⟨?_, phase_next table stamp i h.op h.phase (of_decide_eq_false hBusy)⟩
    rw [request_next table i h.state_ne]
    exact h.op
  close {x c} table stamp i h hIdle := close_next table stamp i h (of_decide_eq_true hIdle)

theorem patient : (handler params tlbs).Patient where
  loading {u t} i m hLoading hDone := by
    by_cases hState : u.stateR = sLoadSet
    · simpa [handler, next, nextState, qemuMissReplyFire, hState, hDone] using hLoading
    · simp [handler, hState] at hLoading
  storing {u t} i m hStoring hDone := by
    by_cases hState : u.stateR = sMoveback
    · simpa [handler, next, nextState, qemuMissReplyFire, hState, hDone] using hStoring
    · simp [handler, hState] at hStoring
  of_loading {u t} hLoading := by
    by_cases hState : u.stateR = sLoadSet
    · simp [handler, writeRequest, hState]
    · simp [handler, hState] at hLoading
  of_storing {u t} hStoring := by
    by_cases hState : u.stateR = sMoveback
    · simp [handler, writeRequest, hState]
    · simp [handler, hState] at hStoring
  silent {u} i hIdle := by
    have hState : u.stateR = sIdle := of_decide_eq_true hIdle
    simp [handler, pageDeleteReqFire, tlbBackendReplyFire, hState]
  ready {u} i m hNone := by
    have hState : u.stateR ≠ sReplace := fun hState => by simp [handler, writeRequest, hState] at hNone
    have hNext : u.nextState i m = u.nextState i { m with writeReady := true } := by
      unfold nextState
      cases hCase : u.stateR <;> first | rfl | exact absurd hCase hState
    exact congrArg (fun state => { u.next i m with stateR := state }) hNext

/-- The deletion is asked for before the set is stored, and the reply is sent last. -/
theorem Serving.announced {x : Txn SetWords (Operation params tlbs) (Event params tlbs)} {c : (handler params tlbs).Client}
    (h : Serving x c) : Announced (Operation.effect params tlbs) Event.IsDeletion x c := by
  have hPhase := h.phase
  have hEmits (words : SetWords) : (Operation.effect params tlbs).emits x.op words =
      QEMUMissReply.deletions c.state.requestR (.ofWords words) ++ QEMUMissReply.replies c.state.requestR := by rw [h.op]; rfl
  have hReplies : ∀ e ∈ (QEMUMissReply.replies c.state.requestR : List (Event params tlbs)), ¬ e.IsDeletion := by
    intro e he
    rw [QEMUMissReply.replies] at he
    split at he
    · rw [List.mem_singleton.mp he]
      exact id
    · exact absurd he List.not_mem_nil
  rw [Phase] at hPhase
  cases hState : c.state.stateR with
  | sIdle => exact absurd hState h.state_ne
  | sLoadSet =>
    rw [hState] at hPhase
    exact .of_nothing hPhase.2 hPhase.1.stored (by simp [handler, hState])
  | sCheckHit =>
    rw [hState] at hPhase
    exact .of_nothing hPhase.2.2 hPhase.1.stored (by simp [handler, hState])
  | sGetEvict =>
    rw [hState] at hPhase
    exact .of_nothing hPhase.2.2 hPhase.1.stored (by simp [handler, hState])
  | sDeletePageReq =>
    rw [hState] at hPhase
    exact .of_nothing hPhase.2.2.1 hPhase.1.stored (by simp [handler, hState])
  | sDeletePage | sReplace =>
    rw [hState] at hPhase
    obtain ⟨hHeld, _, hEmitted⟩ := hPhase
    exact .of_block hHeld.loaded _ (by rw [hEmits, hEmitted]) hReplies
  | sMoveback =>
    rw [hState] at hPhase
    obtain ⟨words, hStoring, _, _, hEmitted⟩ := hPhase
    exact .of_block hStoring.loaded _ (by rw [hEmits, hEmitted]) hReplies
  | sReplyToTLB =>
    rw [hState] at hPhase
    obtain ⟨words, hHeld, _, hEmitted⟩ := hPhase
    exact .of_block hHeld.loaded _ (by rw [hEmits, hEmitted]) hReplies

end QEMUMissReplyHandler

end KnockoutKraken.Mmu

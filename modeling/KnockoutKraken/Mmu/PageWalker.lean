import KnockoutKraken.Mmu.TLBWritebackHandler

/-!
# Page walks

The walker takes the misses of the translation buffers, one at a time,
looks the page up in its set and answers: the translation buffer that
missed when the page is present, the host when it is not.
-/

namespace KnockoutKraken.Mmu

open Library Cache Armflex

variable {params : PageTableParams} {tlbs : Nat}

inductive PageWalkerState where
  | sIdle | sMove | sLookup | sReply
deriving DecidableEq

structure PageWalker (params : PageTableParams) (tlbs : Nat) where
  stateR : PageWalkerState
  requestR : TLBMissRequestMessage params
  source : Fin (tlbs + 1)
  pteR : Option (PTEntryPacket params)
  lastGrant : Fin (tlbs + 1)
deriving DecidableEq

namespace PageWalker

open PageWalkerState

structure Input (params : PageTableParams) (tlbs : Nat) where
  tlbMissReqI : Fin (tlbs + 1) → Option (TLBMissRequestMessage params)
  tlbBackendReplyReady : Fin (tlbs + 1) → Bool
  pageFaultReqReady : Bool

variable (u : PageWalker params tlbs) (i : Input params tlbs) (moved : Moved SetWords)

def outFire : Option (TLBMissRequestMessage params × Fin (tlbs + 1)) :=
  if u.stateR = sIdle then arbitrate i.tlbMissReqI u.lastGrant else none

def reply : Event params tlbs :=
  match u.pteR with
  | some pte => .tlbReply u.source ⟨u.requestR.tag, pte, u.requestR.thid⟩
  | none => .pageFault ⟨u.requestR.tag, u.requestR.perm, u.requestR.thid⟩

def replyReady : Bool := if u.pteR.isSome then i.tlbBackendReplyReady u.source else i.pageFaultReqReady

def replyFire : Option (Event params tlbs) :=
  if u.stateR = sReply ∧ u.replyReady i = true then some u.reply else none

theorem replyFire_eq_some {u : PageWalker params tlbs} {i : Input params tlbs} {event : Event params tlbs}
    (hFire : u.replyFire i = some event) : event = u.reply := by
  rw [replyFire] at hFire
  split at hFire
  · exact (Option.some.inj hFire).symm
  · cases hFire

def nextState : PageWalkerState :=
  match u.stateR with
  | sIdle => if (u.outFire i).isSome then sMove else sIdle
  | sMove => if moved.readDone then sLookup else sMove
  | sLookup => sReply
  | sReply => if (u.replyFire i).isSome then sIdle else sReply

def lookupReply : PageSetBufferLookupReplyPacket params :=
  (PageTableSetPacket.ofWords moved.block).lookup u.requestR.tag

def next : PageWalker params tlbs where
  stateR := u.nextState i moved
  requestR := ((u.outFire i).map Prod.fst).getD u.requestR
  source := ((u.outFire i).map Prod.snd).getD u.source
  pteR :=
    if u.stateR = sLookup then
      if (u.lookupReply moved).hitV then some (u.lookupReply moved).item.entry else none
    else u.pteR
  lastGrant := RRArbiter.next (fun j => (i.tlbMissReqI j).isSome) u.lastGrant (decide (u.stateR = sIdle))

def handler (params : PageTableParams) (tlbs : Nat) : Handler (BitVec params.pPageW) SetWords
    (PageSetBufferWriteRequestPacket params) (Operation params tlbs) (Event params tlbs) where
  State := PageWalker params tlbs
  Input := Input params tlbs
  idle u := decide (u.stateR = sIdle)
  accept u i := (u.outFire i).map fun fired => .walk fired.1 fired.2
  loading u := if u.stateR = sMove then some (pagesetNumber u.requestR.tag) else none
  storing _ := none
  writeRequest _ := none
  emit := replyFire
  next := next
  idle_of_accept {u i op} hAccept := by
    by_cases hIdle : u.stateR = sIdle
    · exact decide_eq_true hIdle
    · rw [outFire, if_neg hIdle] at hAccept
      cases hAccept

def Phase (x : Txn SetWords (Operation params tlbs) (Event params tlbs)) (c : (handler params tlbs).Client) : Prop :=
  match c.state.stateR with
  | sIdle => False
  | sMove => Loading x c
  | sLookup => Held x c c.block false
  | sReply => Held x c c.block false ∧
      (Operation.effect params tlbs).emits (.walk c.state.requestR c.state.source) c.block = [c.state.reply]

structure Serving (x : Txn SetWords (Operation params tlbs) (Event params tlbs)) (c : (handler params tlbs).Client) :
    Prop where
  op : x.op = .walk c.state.requestR c.state.source
  emitted : x.emitted = []
  phase : Phase x c

theorem Serving.state_ne {x : Txn SetWords (Operation params tlbs) (Event params tlbs)}
    {c : (handler params tlbs).Client} (h : Serving x c) : c.state.stateR ≠ sIdle := by
  intro hState
  have hPhase := h.phase
  rw [Phase, hState] at hPhase
  exact hPhase

section Steps

variable {x : Txn SetWords (Operation params tlbs) (Event params tlbs)} {c : (handler params tlbs).Client}
  (table : BitVec params.pPageW → SetWords) (stamp : BitVec params.pPageW → Nat) (i : (handler params tlbs).ClientInput)

theorem state_next : (c.next writeWords table i).state = c.state.next i.handler (c.moved i) := rfl

theorem request_next (hBusy : c.state.stateR ≠ sIdle) :
    (c.next writeWords table i).state.requestR = c.state.requestR ∧
      (c.next writeWords table i).state.source = c.state.source := by
  simp [state_next, next, outFire, hBusy]

theorem phase_next (h : Phase x c) (hBusy : (c.next writeWords table i).state.stateR ≠ sIdle) :
    Phase (x.advance table stamp c i) (c.next writeWords table i) := by
  rw [Phase] at h
  cases hState : c.state.stateR with
  | sIdle =>
    rw [hState] at h
    exact h.elim
  | sMove =>
    rw [hState] at h
    have hNext : (c.next writeWords table i).state.stateR = if (c.moved i).readDone then sLookup else sMove := by
      simp [state_next, next, nextState, hState]
    cases hDone : (c.moved i).readDone with
    | true =>
      obtain ⟨hHeld, hBlock⟩ := h.next_of_done writeWords table stamp rfl rfl hDone
      rw [Phase, hNext, hDone, if_pos rfl, hBlock]
      exact hHeld
    | false =>
      rw [Phase, hNext, hDone, if_neg Bool.false_ne_true]
      exact h.next writeWords table stamp (by simp [handler, hState]) rfl rfl hDone
  | sLookup =>
    rw [hState] at h
    have hNext : (c.next writeWords table i).state.stateR = sReply := by simp [state_next, next, nextState, hState]
    obtain ⟨hRequest, hSource⟩ := request_next table i (c := c) (by simp [hState])
    obtain ⟨hHeld, hBlock⟩ := h.next_same writeWords table stamp i (by simp [handler, hState]) rfl rfl
    have hPte : (c.next writeWords table i).state.pteR =
        if (c.state.lookupReply (c.moved i)).hitV then some (c.state.lookupReply (c.moved i)).item.entry else none := by
      simp [state_next, next, hState]
    rw [Phase, hNext, hBlock, hRequest, hSource]
    refine ⟨hHeld, ?_⟩
    have hFound : (PageTableSetPacket.ofWords c.block).lookup c.state.requestR.tag = c.state.lookupReply (c.moved i) := rfl
    simp only [reply, hPte, hRequest, hSource, Operation.effect, Operation.emits, hFound]
    split <;> rfl
  | sReply =>
    rw [hState] at h
    obtain ⟨h, hEmits⟩ := h
    have hNext : (c.next writeWords table i).state.stateR =
        if (c.state.replyFire i.handler).isSome then sIdle else sReply := by
      simp [state_next, next, nextState, hState]
    cases hFire : c.state.replyFire i.handler with
    | some event => exact absurd (by rw [hNext, hFire, Option.isSome_some, if_pos rfl]) hBusy
    | none =>
      obtain ⟨hRequest, hSource⟩ := request_next table i (c := c) (by simp [hState])
      have hPte : (c.next writeWords table i).state.pteR = c.state.pteR := by simp [state_next, next, hState]
      obtain ⟨hHeld, hBlock⟩ := h.next_same writeWords table stamp i (by simp [handler, hState]) rfl rfl
      rw [Phase, hNext, hFire, Option.isSome_none, if_neg Bool.false_ne_true, hBlock, hRequest, hSource]
      refine ⟨hHeld, ?_⟩
      simp only [hEmits, reply, hPte, hRequest, hSource]

end Steps

theorem serves : (handler params tlbs).Serves writeWords (Operation.effect params tlbs) Serving where
  quiet {u} hIdle := by
    have hState : u.stateR = sIdle := of_decide_eq_true hIdle
    simp [handler, hState]
  rest {u i} m hIdle hAccept := by
    have hState : u.stateR = sIdle := of_decide_eq_true hIdle
    have hFire : u.outFire i = none := Option.map_eq_none_iff.mp hAccept
    simp [handler, next, nextState, hState, hFire]
  accept {c i op} table hFree hAccept := by
    have hState : c.state.stateR = sIdle := of_decide_eq_true hFree.idle
    obtain ⟨fired, hFire, rfl⟩ := Option.map_eq_some_iff.mp hAccept
    have hFire' : c.state.outFire i.handler = some fired := hFire
    refine ⟨by simp [state_next, next, hFire', Txn.start], rfl, ?_⟩
    have hNext : (c.next writeWords table i).state.stateR = sMove := by
      simp [state_next, next, nextState, hState, hFire']
    rw [Phase, hNext]
    refine .start _ ?_ ?_
    · simp [Handler.Client.next, Handler.Client.reads, handler, hState, hFree.readMoved]
    · simp [Handler.Client.next, Handler.Client.stores, handler, hFree.writeMoved]
  busy {x c} h := decide_eq_false h.state_ne
  loading {x c t} h hLoad := by
    have hPhase := h.phase
    by_cases hState : c.state.stateR = sMove
    · have hSet : some (pagesetNumber c.state.requestR.tag) = some t := by simpa [handler, hState] using hLoad
      rw [Phase, hState] at hPhase
      rw [Option.some.injEq] at hSet
      rw [h.op, ← hSet]
      exact ⟨hPhase, rfl⟩
    · simp [handler, hState] at hLoad
  storing {x c t} h hStore := by cases hStore
  advance {x c} table stamp i h hBusy := by
    obtain ⟨hRequest, hSource⟩ := request_next table i h.state_ne
    refine ⟨?_, ?_, phase_next table stamp i h.phase (of_decide_eq_false hBusy)⟩
    · rw [hRequest, hSource]
      exact h.op
    · -- an answer is taken in the step that ends the walk
      have hFire : c.state.replyFire i.handler = none := by
        have hNext : c.state.nextState i.handler (c.moved i) ≠ sIdle := of_decide_eq_false hBusy
        by_cases hState : c.state.stateR = sReply
        · cases hFire : c.state.replyFire i.handler with
          | none => rfl
          | some event => simp [nextState, hState, hFire] at hNext
        · simp [replyFire, hState]
      simp [Txn.advance, h.emitted, handler, hFire]
  close {x c} table stamp i h hIdle := by
    have hNext : c.state.nextState i.handler (c.moved i) = sIdle := of_decide_eq_true hIdle
    have hPhase := h.phase
    rw [Phase] at hPhase
    cases hState : c.state.stateR with
    | sIdle => exact absurd hState h.state_ne
    | sMove =>
      simp only [nextState, hState] at hNext
      split at hNext <;> cases hNext
    | sLookup =>
      simp only [nextState, hState] at hNext
      cases hNext
    | sReply =>
      rw [hState] at hPhase
      obtain ⟨hHeld, hEmits⟩ := hPhase
      obtain ⟨hHeld, _⟩ := hHeld.next_same writeWords table stamp i (by simp [handler, hState]) rfl rfl
      have hFire : c.state.replyFire i.handler = some c.state.reply := by
        simp only [nextState, hState] at hNext
        cases hFire : c.state.replyFire i.handler with
        | none => simp [hFire] at hNext
        | some event => rw [replyFire_eq_some hFire]
      refine ⟨c.block, ?_, ?_⟩
      · rw [h.op]
        exact hHeld
      · rw [h.op, hEmits]
        simp [Txn.advance, h.emitted, handler, hFire]

theorem patient : (handler params tlbs).Patient where
  loading {u t} i m hLoading hDone := by
    by_cases hState : u.stateR = sMove
    · simpa [handler, next, nextState, outFire, hState, hDone] using hLoading
    · simp [handler, hState] at hLoading
  storing i m hStoring := by cases hStoring
  of_loading _ := ⟨rfl, rfl⟩
  of_storing hStoring := by cases hStoring
  silent {u} i hIdle := by
    have hState : u.stateR = sIdle := of_decide_eq_true hIdle
    simp [handler, replyFire, hState]
  ready i m _ := rfl

/-- The walker sends its answer last and stores nothing. -/
theorem Serving.announced {x : Txn SetWords (Operation params tlbs) (Event params tlbs)} {c : (handler params tlbs).Client}
    (h : Serving x c) : Announced (Operation.effect params tlbs) Event.IsDeletion x c := by
  have hPhase := h.phase
  refine .of_nothing h.emitted ?_ rfl
  rw [Phase] at hPhase
  cases hState : c.state.stateR with
  | sIdle => exact absurd hState h.state_ne
  | sMove =>
    rw [hState] at hPhase
    exact hPhase.stored
  | sLookup =>
    rw [hState] at hPhase
    exact hPhase.stored
  | sReply =>
    rw [hState] at hPhase
    exact hPhase.1.stored

end PageWalker

end KnockoutKraken.Mmu

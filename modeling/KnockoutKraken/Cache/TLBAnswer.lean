import KnockoutKraken.Cache.BankHazard
import KnockoutKraken.Cache.TLB

/-!
# The answers of a translation buffer

An answer comes one cycle after its request was taken, so the delayed
permission it is judged by is the one of that request. A translation
writes the bank only when it is a store that hits an unmodified entry.
-/

namespace KnockoutKraken.Cache

open Armflex Library Util

namespace TLB

variable {params : PageTableParams} {core : LRUCore params.tlbWayWidth} {t : TLB params core} {i : Input params}

def FromPorts (q : BankRequest (databankParams params)) : Prop :=
  (∃ tag perm thid, q = translationToBank tag perm thid) ∨ (∃ tag, q = flushToBank tag) ∨ ∃ resp, q = refillToBank resp

theorem arbiterBits_fromPorts (i : Input params) : FromPorts (arbiterBits i) := by
  rw [arbiterBits]
  split
  · exact .inr (.inl ⟨_, rfl⟩)
  · exact .inr (.inr ⟨_, rfl⟩)
  · exact .inl ⟨_, _, _, rfl⟩

variable (t) in
def served : Option (BankRequest (databankParams params)) := if t.bank.readReplyValid then t.bank.s1 else none

variable (t) in
def hitTranslation : Option (PTEntryPacket params × BitVec permW) :=
  t.served.bind fun q =>
    match q with
    | .access _ _ _ perm _ _ =>
      if (t.bank.secondStage q).hitV then some (.ofUInt (t.bank.secondStage q).hitEntry.read, perm) else none
    | _ => none

def violated (hit : PTEntryPacket params × BitVec permW) : Bool := !hit.1.permValid hit.2

/-- A store hit the entry and the entry was not modified before. -/
def marks (hit : PTEntryPacket params × BitVec permW) : Bool := hit.2 == dataStore && !hit.1.modified

/-- What every run keeps: the requests are those of the ports, and the delayed permission
is the one of the translation whose word has just arrived. -/
structure Inv (t : TLB params core) : Prop where
  shape : t.bank.Shape
  fromPorts : ∀ q ∈ t.bank.s1FrontendRequestR, FromPorts q
  judged : ∀ tag perm thid, t.served = some (translationToBank tag perm thid) → t.permR = perm

theorem Inv.init (permR : BitVec permW) : (TLB.init permR : TLB params core).Inv where
  shape := DataBank.Shape.init
  fromPorts q hq := by cases hq
  judged _ _ _ h := by cases h

theorem served_next (hShape : t.bank.Shape) : (t.next i).served = t.bank.accepted (t.bankInput i) := by
  cases hAccepted : t.bank.accepted (t.bankInput i) with
  | none =>
    refine if_neg ?_
    simp [next, DataBank.next, hAccepted]
  | some q =>
    have hValid : (t.next i).bank.readReplyValid = true := by simp [next, DataBank.next, hAccepted]
    refine (if_pos hValid).trans ((DataBank.s1_eq_some_iff q).mpr ?_)
    exact congrArg List.head? (hShape.s1_of_accepted hAccepted)

theorem arbiterBits_of_translation {tag : PTTagPacket params} {perm : BitVec permW} {thid : BitVec params.thidW}
    (h : arbiterBits i = translationToBank tag perm thid) :
    i.flushReq = none ∧ i.refillResp = none ∧ i.translationReq.perm = perm := by
  rw [arbiterBits] at h
  split at h
  · cases h
  · cases h
  · next hFlush hRefill =>
    exact ⟨hFlush, hRefill, (BankRequest.access.inj h).2.2.2.1⟩

theorem accepted_translation {tag : PTTagPacket params} {perm : BitVec permW} {thid : BitVec params.thidW}
    (h : t.bank.accepted (t.bankInput i) = some (translationToBank tag perm thid)) :
    i.translationValid = true ∧ t.translationReady i = true ∧ i.translationReq.perm = perm := by
  obtain ⟨hBits, hValid, hReady⟩ := DataBank.accepted_eq_some h
  obtain ⟨hFlush, hRefill, hPerm⟩ := arbiterBits_of_translation hBits
  refine ⟨?_, ?_, hPerm⟩
  · simpa [bankInput, arbiterValid, hFlush, hRefill] using hValid
  · simpa [translationReady, hFlush, hRefill, bankReady] using hReady

theorem Inv.next (h : t.Inv) : (t.next i).Inv where
  shape := h.shape.next
  fromPorts q hq := by
    rcases FlushQueue.mem_of_mem_next hq with hStay | hAccepted
    · exact h.fromPorts q hStay
    · rw [← (DataBank.accepted_eq_some hAccepted).1]
      exact arbiterBits_fromPorts i
  judged tag perm thid hServed := (accepted_translation ((served_next h.shape).symm.trans hServed)).2.2

theorem Inv.served_of_reply (h : t.Inv) {reply : FrontendReply (databankParams params)} (hReply : t.reply i = some reply) :
    ∃ q, t.served = some q ∧ FromPorts q ∧
      reply = (t.bank.secondStage q).frontendReplyO (tlbUpdateFunction params) := by
  obtain ⟨q, hFire, rfl⟩ := Option.map_eq_some_iff.mp hReply
  rw [DataBank.s1Fire, Option.ite_none_right_eq_some] at hFire
  obtain ⟨hReady, hS1⟩ := hFire
  have hValid : t.bank.readReplyValid = true := by
    simp only [DataBank.pipelineStateReady1, Bool.and_eq_true, beq_iff_eq] at hReady
    rw [← h.shape.bankRamReply, hReady.1.1, hS1]
    rfl
  refine ⟨q, (if_pos hValid).trans hS1, h.fromPorts q ?_, rfl⟩
  exact List.mem_of_mem_head? ((DataBank.s1_eq_some_iff q).mp hS1)

/-- The mask of a store is the modified bit, and no translation writes a whole entry. -/
theorem fullWritingV_translation {x : SecondStage (databankParams params)} {tag : PTTagPacket params}
    {perm : BitVec permW} {thid : BitVec params.thidW} (h : x.request = (translationToBank tag perm thid).packet) :
    x.fullWritingV = false := by
  have hBit : (x.request.wMask == BitVec.allOnes _) = false := by
    rw [beq_eq_false_iff_ne, h]
    intro hEq
    have hOne := congrArg (fun bits : BitVec (PTEntryPacket.width params) => bits.getLsbD 1) hEq
    have hWidth : 1 < PTEntryPacket.width params := by simp only [PTEntryPacket.width, permW]; omega
    simp only [translationToBank, BankRequest.packet, BitVec.getLsbD_allOnes, decide_eq_true hWidth] at hOne
    split at hOne
    · rw [modifiedPte, PTEntryPacket.asUInt, BitVec.getLsbD_append] at hOne
      simp at hOne
    · simp at hOne
  rw [SecondStage.fullWritingV, hBit, h]
  rfl

/-- The answer to a translation: a hit of the bank, its entry, judged by the permission of the request. -/
theorem Inv.translationResp_eq (h : t.Inv) {resp : TLBPipelineResp params} (hResp : t.translationResp i = some resp) :
    ∃ tag perm thid, t.served = some (translationToBank tag perm thid) ∧ resp.thid = thid ∧
      resp.violation = !resp.entry.permValid perm ∧
      (resp.hit = true → t.hitTranslation = some (resp.entry, perm)) ∧ (resp.hit = false → t.hitTranslation = none) := by
  obtain ⟨reply, hReply, rfl⟩ := Option.map_eq_some_iff.mp hResp
  obtain ⟨hReply, hKind⟩ := Option.filter_eq_some_iff.mp hReply
  obtain ⟨q, hServed, hPorts, rfl⟩ := h.served_of_reply hReply
  rcases hPorts with ⟨tag, perm, thid, rfl⟩ | ⟨tag, rfl⟩ | ⟨refill, rfl⟩
  · refine ⟨tag, perm, thid, hServed, rfl, by rw [h.judged tag perm thid hServed], fun hHit => ?_, fun hMiss => ?_⟩
    · have hV : (t.bank.secondStage (translationToBank tag perm thid)).hitV = true := by
        simpa [SecondStage.frontendReplyO, fullWritingV_translation
          (x := t.bank.secondStage (translationToBank tag perm thid)) rfl] using hHit
      rw [hitTranslation, hServed, Option.bind_some]
      exact if_pos hV
    · have hV : (t.bank.secondStage (translationToBank tag perm thid)).hitV = false := by
        simpa [SecondStage.frontendReplyO, fullWritingV_translation
          (x := t.bank.secondStage (translationToBank tag perm thid)) rfl] using hMiss
      rw [hitTranslation, hServed, Option.bind_some]
      exact if_neg (by simp [translationToBank] at hV ⊢; exact hV)
  · simp [SecondStage.frontendReplyO, flushToBank, BankRequest.packet] at hKind
  · simp [SecondStage.frontendReplyO, refillToBank, BankRequest.packet] at hKind

section BankWrite

variable {entry : CacheEntry (databankParams params)} {q : FrontendRequest (databankParams params)}

/-- The permission is read one bit too high: over a modified entry it is never that of a store. -/
theorem apply_of_modified (hStore : q.perm = dataStore) (hModified : (PTEntryPacket.ofUInt entry.data).modified = true) :
    (tlbUpdateFunction params).apply q entry = entry := by
  refine if_neg ?_
  rw [hStore]
  intro hValid
  have hPerm := beq_iff_eq.mp (show (_ == BitVec.ofNat permW 1) = true from hValid)
  have hHigh := congrArg (fun perm => perm.getLsbD 1) hPerm
  have hWidth : 2 < PTEntryPacket.width params := by simp only [PTEntryPacket.width, permW]; omega
  have hBit : entry.data.getLsbD 0 = true := hModified
  simp only [PTEntryPacket.ofUInt, BitVec.getLsbD_extractLsb', BitVec.getLsbD_setWidth, BitVec.getLsbD_append] at hHigh
  simp [hWidth, permW] at hHigh
  rw [← BitVec.getLsbD_eq_getElem, hBit] at hHigh
  cases hHigh

theorem apply_of_not_marks (hV : entry.v = true) (hMask : q.perm ≠ dataStore → q.wMask = 0)
    (hNot : marks (PTEntryPacket.ofUInt entry.data, q.perm) = false) :
    (tlbUpdateFunction params).apply q entry = entry := by
  by_cases hStore : q.perm = dataStore
  · refine apply_of_modified hStore ?_
    simpa [marks, hStore] using hNot
  · exact (tlbUpdateFunction params).apply_zero_mask q entry hV (hMask hStore)

theorem bankRamWriteRequest_of_not_marks {hit : PTEntryPacket params × BitVec permW} (hInv : t.Inv)
    (hHit : t.hitTranslation = some hit) (hNot : marks hit = false) :
    t.bank.bankRamWriteRequest (tlbUpdateFunction params) = none := by
  obtain ⟨q, hServed, hEntry⟩ := Option.bind_eq_some_iff.mp hHit
  have hS1 := ((Option.ite_none_right_eq_some).mp hServed).2
  obtain ⟨tag, perm, thid, rfl⟩ | ⟨tag, rfl⟩ | ⟨resp, rfl⟩ :=
    hInv.fromPorts q (List.mem_of_mem_head? ((DataBank.s1_eq_some_iff q).mp hS1))
  · obtain ⟨hV, rfl⟩ : (t.bank.secondStage (translationToBank tag perm thid)).hitV = true ∧
        (PTEntryPacket.ofUInt (t.bank.secondStage (translationToBank tag perm thid)).hitEntry.read, perm) = hit := by
      simpa using (Option.ite_none_right_eq_some).mp hEntry
    generalize hx : t.bank.secondStage (translationToBank tag perm thid) = x at hV hNot
    have hRequest : x.request = (translationToBank tag perm thid).packet := by rw [← hx]; rfl
    have hFull : x.fullWritingV = false := fullWritingV_translation hRequest
    have hValid : x.hitEntry.v = true := ((CacheEntry.key_eq_some_iff _ _).mp (SecondStage.hitEntry_key hV)).1
    have hMask : x.request.perm ≠ dataStore → x.request.wMask = 0 := fun hNe => by
      rw [hRequest] at hNe ⊢
      exact if_neg hNe
    have hPerm : x.request.perm = perm := by rw [hRequest]; rfl
    have hUpdated : x.updatedEntry (tlbUpdateFunction params) = x.hitEntry := by
      have hFlush : x.request.flushV = false := by rw [hRequest]; rfl
      rw [SecondStage.updatedEntry, if_neg (by simp [hFlush])]
      exact apply_of_not_marks hValid hMask (hPerm ▸ hNot)
    rw [DataBank.bankRamWriteRequest, hS1, Option.bind_some, hx]
    simp [SecondStage.bankRamWriteRequestO, SecondStage.fullWritingRequest, SecondStage.frontendWriteToBank, hFull,
      hUpdated]
  · simp [flushToBank] at hEntry
  · simp [refillToBank] at hEntry

end BankWrite

end TLB

end KnockoutKraken.Cache

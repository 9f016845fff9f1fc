import KnockoutKraken.Cache.TLBAnswer
import KnockoutKraken.Cache.Writeback

/-!
# The table a translation buffer stands for

Next to a buffer runs the table of what it was refilled with and has not
flushed or evicted, and the list of the translations it has taken and not
answered. Every translation is answered from that table as long as nothing
stalls, hits are on the entry the bank holds, a refill of a page that is
still there repeats what is there, and no store hits an unmodified entry
that forbids it: the bank marks such an entry as modified all the same.
-/

namespace KnockoutKraken.Cache

open Armflex Library Util

section Held

variable {p : DatabankParams} {α : Type} (f : p.Block → α) (mem : p.SetIndex → p.Way → CacheEntry p)

/-- The block at the address is in the bank, and `f` reads this from it. -/
def HeldAs (addr : p.Addr) (x : α) : Prop := ∃ way, InBank mem addr way ∧ f (mem (setIndex addr) way).data = x

instance [DecidableEq α] (addr : p.Addr) (x : α) : Decidable (HeldAs f mem addr x) :=
  inferInstanceAs (Decidable (∃ way, InBank mem addr way ∧ f (mem (setIndex addr) way).data = x))

variable {f} {mem} {addr : p.Addr} {x : α}

variable (addr) in
theorem heldAs_applyTo {w : BankWriteRequest p} (hRows : UniqueKeys CacheEntry.key (mem w.addr))
    (hOnly : ∀ tag, w.data.key = some tag → ∀ way, Holds CacheEntry.key (mem w.addr) tag way → way = w.which) :
    HeldAs f (w.applyTo mem) addr x ↔
      if setIndex addr = w.addr ∧ w.data.key = some (getTagFromAddress addr) then f w.data.data = x
      else HeldAs f mem addr x ∧ ¬ (setIndex addr = w.addr ∧ InBank mem addr w.which) := by
  split
  · next hOwn =>
    obtain ⟨hSet, hKey⟩ := hOwn
    constructor
    · rintro ⟨way, hIn, hData⟩
      by_cases hWay : way = w.which
      · rwa [hWay, hSet, applyTo_self] at hData
      · rw [inBank_applyTo_of_ne fun _ => hWay, InBank, hSet] at hIn
        exact absurd (hOnly _ hKey way hIn) hWay
    · intro hData
      refine ⟨w.which, (inBank_applyTo_self hSet).mpr hKey, ?_⟩
      rwa [hSet, applyTo_self]
  · next hOther =>
    constructor
    · rintro ⟨way, hIn, hData⟩
      have hOff : setIndex addr = w.addr → way ≠ w.which := by
        rintro hSet rfl
        exact hOther ⟨hSet, (inBank_applyTo_self hSet).mp hIn⟩
      rw [inBank_applyTo_of_ne hOff] at hIn
      rw [applyTo_of_ne hOff] at hData
      refine ⟨⟨way, hIn, hData⟩, ?_⟩
      rintro ⟨hSet, hIn'⟩
      rw [InBank, hSet] at hIn hIn'
      exact hOff hSet (hRows _ _ _ hIn hIn')
    · rintro ⟨⟨way, hIn, hData⟩, hKept⟩
      have hOff : setIndex addr = w.addr → way ≠ w.which := by
        rintro hSet rfl
        exact hKept ⟨hSet, hIn⟩
      exact ⟨way, (inBank_applyTo_of_ne hOff).mpr hIn, by rwa [applyTo_of_ne hOff]⟩

theorem heldAs_of_inBank {way : p.Way} (hRows : UniqueKeys CacheEntry.key (mem (setIndex addr)))
    (hIn : InBank mem addr way) : HeldAs f mem addr x ↔ f (mem (setIndex addr) way).data = x := by
  constructor
  · rintro ⟨way', hIn', hData⟩
    rwa [← hRows _ _ _ hIn' hIn]
  · intro hData
    exact ⟨way, hIn, hData⟩

end Held

namespace Watched

variable {p : DatabankParams} {core : LRUCore p.wayWidth} {update : UpdateFunction p} {α : Type} {f : p.Block → α}
  {m : Watched p core} {i : DataBank.Input p} {q : BankRequest p} {w : BankWriteRequest p} {x : α}

theorem heldAs_next_of_not_write (h : m.bank.bankRamWriteRequest update = none) (addr : p.Addr) :
    HeldAs f (m.next update i).bank.bram.mem addr x ↔ HeldAs f m.bank.bram.mem addr x := by
  rw [Watched.next, DataBank.mem_next_of_none h]

/-- What the write of a request changes: its own block, and the one it overwrites. -/
theorem Unique.heldAs_next (hSets : p.setWidth ≠ 1) (h : m.Unique) (hSafe : WriteSafe update m i)
    (hS1 : m.bank.s1 = some q) (hWrite : m.bank.bankRamWriteRequest update = some w) (addr : p.Addr) :
    HeldAs f (m.next update i).bank.bram.mem addr x ↔
      if addr = q.packet.addr then q.packet.flushV = false ∧ f w.data.data = x
      else HeldAs f m.bank.bram.mem addr x ∧ ¬ (setIndex addr = w.addr ∧ InBank m.bank.bram.mem addr w.which) := by
  obtain ⟨q', hS1', hAddr, hKey, hOnly⟩ := h.write hSafe hWrite
  rw [hS1, Option.some.injEq] at hS1'
  subst hS1'
  have hTag : ∀ tag, w.data.key = some tag → q.packet.flushV = false ∧ tag = (m.bank.secondStage q).tag := by
    intro tag hTag
    rw [hKey] at hTag
    cases hFlush : q.packet.flushV <;> simp [hFlush] at hTag
    exact ⟨rfl, hTag.symm⟩
  have hApply := heldAs_applyTo (f := f) (x := x) addr (h.rows w.addr) fun tag hKey' way hHolds =>
    hOnly way ((hTag tag hKey').2 ▸ hHolds)
  rw [Watched.next, DataBank.mem_next_of_some hWrite, hApply]
  by_cases hOwn : addr = q.packet.addr
  · subst hOwn
    rw [if_pos rfl]
    cases hFlush : q.packet.flushV with
    | false =>
      rw [hFlush, if_neg Bool.false_ne_true] at hKey
      rw [if_pos ⟨hAddr.symm, hKey⟩]
      exact ⟨fun hData => ⟨rfl, hData⟩, And.right⟩
    | true =>
      have hNot : ¬ (setIndex q.packet.addr = w.addr ∧ w.data.key = some (getTagFromAddress q.packet.addr)) := by
        rintro ⟨_, hKey'⟩
        rw [(hTag _ hKey').1] at hFlush
        cases hFlush
      rw [if_neg hNot]
      refine iff_of_false ?_ fun hFalse => by cases hFalse.1
      rintro ⟨⟨way, hIn, _⟩, hKept⟩
      have hWay : way = w.which := by
        refine hOnly way ?_
        rw [hAddr]
        exact hIn
      exact hKept ⟨hAddr.symm, hWay ▸ hIn⟩
  · have hNot : ¬ (setIndex addr = w.addr ∧ w.data.key = some (getTagFromAddress addr)) := by
      rintro ⟨hSet, hKey'⟩
      exact hOwn ((addr_eq_iff hSets _ _).mpr ⟨(hTag _ hKey').2, hSet.trans hAddr⟩)
    rw [if_neg hNot, if_neg hOwn]

theorem Current.heldAs_next_of_hit (hSets : p.setWidth ≠ 1) (h : m.Current) (hS1 : m.bank.s1 = some q)
    (hCurrent : (m.bank.secondStage q).HitCurrent update m.lastWrite (m.row q))
    (hHit : (m.bank.secondStage q).hitV = true) (hWrite : m.bank.bankRamWriteRequest update = some w) (addr : p.Addr) :
    HeldAs f (m.next update i).bank.bram.mem addr x ↔
      if addr = q.packet.addr then q.packet.flushV = false ∧ f w.data.data = x else HeldAs f m.bank.bram.mem addr x := by
  have hStage : (m.bank.secondStage q).bankRamWriteRequestO update = some w := by
    obtain ⟨q', hS1', hStage⟩ := DataBank.bankRamWriteRequest_eq_some hWrite
    rwa [← Option.some.inj (hS1.symm.trans hS1')] at hStage
  have hSafe : WriteSafe update m i := h.writeSafe update hSets fun q' hS1' _ => by
    rw [← Option.some.inj (hS1.symm.trans hS1')]
    exact hCurrent
  obtain ⟨way, hHolds, _, hWay, _⟩ := h.hit update hSets hS1 hCurrent hHit
  have hWhich : w.which = way := by
    rw [SecondStage.bankWrite_which q.flushAlone hStage, SecondStage.target_of_hit hHit]
    exact (hWay (Option.isSome_of_eq_some hStage)).symm
  rw [h.toUnique.heldAs_next hSets hSafe hS1 hWrite]
  by_cases hOwn : addr = q.packet.addr
  · rw [if_pos hOwn, if_pos hOwn]
  · rw [if_neg hOwn, if_neg hOwn]
    refine and_iff_left_of_imp fun _ => ?_
    rintro ⟨hSet, hIn⟩
    have hAddr := SecondStage.bankWrite_addr q.flushAlone hStage
    rw [hAddr] at hSet
    rw [InBank, hSet, hWhich] at hIn
    refine hOwn ((addr_eq_iff hSets _ _).mpr ⟨?_, hSet⟩)
    exact Option.some.inj (hIn.symm.trans hHolds)

end Watched

namespace TLB

variable {params : PageTableParams} {core : LRUCore params.tlbWayWidth}

theorem tagOfAddr_bankAddr (tag : PTTagPacket params) : tagOfAddr (bankAddr tag) = tag := by
  have hWidth : params.asidW + params.vPageW - params.tlbSetWidth + params.tlbSetWidth = params.asidW + params.vPageW :=
    Nat.sub_add_cancel params.tlbSetWidth_le
  apply PTTagPacket.ext
  · apply BitVec.eq_of_getLsbD_eq
    intro bit hBit
    have hIn : bit < params.asidW + params.vPageW - params.tlbSetWidth + params.tlbSetWidth := by omega
    simp [tagOfAddr, bankAddr, BitVec.getLsbD_append, hBit, hIn]
  · apply BitVec.eq_of_getLsbD_eq
    intro bit hBit
    have hIn : params.vPageW + bit < params.asidW + params.vPageW - params.tlbSetWidth + params.tlbSetWidth := by omega
    simp [tagOfAddr, bankAddr, BitVec.getLsbD_append, hBit, hIn]

theorem bankAddr_inj {tag tag' : PTTagPacket params} : bankAddr tag = bankAddr tag' ↔ tag = tag' := by
  constructor
  · intro h
    rw [← tagOfAddr_bankAddr tag, h, tagOfAddr_bankAddr]
  · rintro rfl
    rfl

/-- What a refill fixes of an entry: the page and what it permits. -/
def pageAndPerm (bits : BitVec (PTEntryPacket.width params)) : BitVec params.pPageW × BitVec permW :=
  ((PTEntryPacket.ofUInt bits).ppn, (PTEntryPacket.ofUInt bits).perm)

def isModified (bits : BitVec (PTEntryPacket.width params)) : Bool := (PTEntryPacket.ofUInt bits).modified

theorem getLsbD_modifiedPte (bit : Nat) : (modifiedPte : PTEntryPacket params).asUInt.getLsbD bit = decide (bit = 0) := by
  rw [modifiedPte, PTEntryPacket.asUInt, BitVec.getLsbD_append]
  cases bit <;> simp

theorem ofUInt_merge_modifiedPte (bits : BitVec (PTEntryPacket.width params)) :
    PTEntryPacket.ofUInt (CacheEntry.merge bits modifiedPte.asUInt modifiedPte.asUInt) =
      { PTEntryPacket.ofUInt bits with modified := true } := by
  simp only [PTEntryPacket.ofUInt, PTEntryPacket.mk.injEq]
  refine ⟨?_, ?_, ?_⟩
  · apply BitVec.eq_of_getLsbD_eq
    intro bit hBit
    simp [BitVec.getLsbD_extractLsb', CacheEntry.getLsbD_merge, getLsbD_modifiedPte]
  · apply BitVec.eq_of_getLsbD_eq
    intro bit hBit
    simp [BitVec.getLsbD_extractLsb', CacheEntry.getLsbD_merge, getLsbD_modifiedPte]
  · simp [CacheEntry.getLsbD_merge, getLsbD_modifiedPte]

/-- Read one bit too high, the permission of an unmodified entry is that of a store. -/
theorem apply_of_unmodified {entry : CacheEntry (databankParams params)} {q : FrontendRequest (databankParams params)}
    (hStore : q.perm = dataStore) (hV : entry.v = true) (hClean : isModified entry.data = false) :
    (tlbUpdateFunction params).apply q entry = entry.write q.wData q.wMask false true := by
  refine if_pos ?_
  rw [hStore]
  change (_ == BitVec.ofNat permW 1) = true
  rw [beq_iff_eq]
  have hBit : entry.data.getLsbD 0 = false := hClean
  apply BitVec.eq_of_getLsbD_eq
  intro bit hBit'
  have hOne : 1 < PTEntryPacket.width params := by simp only [PTEntryPacket.width, permW]; omega
  have hTwo : 2 < PTEntryPacket.width params := by simp only [PTEntryPacket.width, permW]; omega
  simp only [PTEntryPacket.ofUInt, BitVec.getLsbD_extractLsb', BitVec.getLsbD_setWidth, BitVec.getLsbD_append, hV]
  -- the two bits in the place of the permission are `v` and the modified bit
  obtain rfl | rfl : bit = 0 ∨ bit = 1 := by simp only [permW] at hBit'; omega
  · simp [hOne, permW]
  · simp only [hTwo, permW]
    simpa using hBit

section BankWrite

variable {x : SecondStage (databankParams params)} {tag : PTTagPacket params} {perm : BitVec permW}
  {thid : BitVec params.thidW}

theorem bankWrite_of_translation_miss (h : x.request = (translationToBank tag perm thid).packet) (hMiss : x.hitV = false) :
    x.bankRamWriteRequestO (tlbUpdateFunction params) = none := by
  simp [SecondStage.bankRamWriteRequestO, SecondStage.fullWritingRequest, SecondStage.frontendWriteToBank,
    fullWritingV_translation h, hMiss]

/-- A store that hits an unmodified entry marks it, whatever the entry permits. -/
theorem bankWrite_of_marks (h : x.request = (translationToBank tag dataStore thid).packet) (hHit : x.hitV = true)
    (hClean : isModified x.hitEntry.data = false) :
    x.bankRamWriteRequestO (tlbUpdateFunction params) = some ⟨setIndex x.request.addr, x.matchWhich,
      x.hitEntry.write modifiedPte.asUInt modifiedPte.asUInt false true⟩ := by
  have hV : x.hitEntry.v = true := ((CacheEntry.key_eq_some_iff _ _).mp (SecondStage.hitEntry_key hHit)).1
  have hFlush : x.request.flushV = false := by rw [h]; rfl
  have hRefill : x.request.refillV = false := by rw [h]; rfl
  have hMask : x.request.wMask = modifiedPte.asUInt := by rw [h, translationToBank, if_pos rfl]; rfl
  have hData : x.request.wData = modifiedPte.asUInt := by rw [h]; rfl
  have hUpdated : x.updatedEntry (tlbUpdateFunction params) =
      x.hitEntry.write modifiedPte.asUInt modifiedPte.asUInt false true := by
    rw [SecondStage.updatedEntry, if_neg (ne_true_of_eq_false hFlush),
      apply_of_unmodified (by rw [h]; rfl) hV hClean, hMask, hData]
  have hDiffer : x.hitEntry.write modifiedPte.asUInt modifiedPte.asUInt false true ≠ x.hitEntry := by
    intro hEq
    have hBit := congrArg (fun entry => isModified (CacheEntry.data entry)) hEq
    simp only [CacheEntry.write, isModified, ofUInt_merge_modifiedPte] at hBit
    rw [isModified, ← hBit] at hClean
    cases hClean
  simp [SecondStage.bankRamWriteRequestO, SecondStage.fullWritingRequest, SecondStage.frontendWriteToBank,
    fullWritingV_translation h, hHit, hRefill, hUpdated, hDiffer]

theorem bankWrite_of_refill (resp : TLBMMURespPacket params) (h : x.request = (refillToBank resp).packet) :
    ∃ w, x.bankRamWriteRequestO (tlbUpdateFunction params) = some w ∧
      w.data.data = if x.hitV then x.hitEntry.data else resp.data.asUInt := by
  have hAlone : x.request.FlushAlone := by rw [h]; exact BankRequest.flushAlone _
  have hRefill : x.request.refillV = true := by rw [h]; rfl
  have hFull : x.fullWritingV = true := by rw [SecondStage.fullWritingV, hRefill, Bool.or_true]
  have hMask : x.request.wMask = 0#(databankParams params).blockSize := by rw [h]; rfl
  refine ⟨_, by rw [SecondStage.bankRamWriteRequestO, SecondStage.fullWritingRequest, if_pos hFull]; rfl, ?_⟩
  simp only [SecondStage.refillEntry]
  cases hHit : x.hitV with
  | true =>
    have hV : x.hitEntry.v = true := ((CacheEntry.key_eq_some_iff _ _).mp (SecondStage.hitEntry_key hHit)).1
    rw [if_pos rfl, if_pos rfl, (tlbUpdateFunction params).apply_zero_mask _ _ hV hMask]
  | false =>
    rw [if_neg Bool.false_ne_true, if_neg Bool.false_ne_true,
      (tlbUpdateFunction params).apply_zero_mask _ _ (by rfl) hMask, SecondStage.refillNewEntry, h]
    rfl

theorem pageAndPerm_apply (h : x.request = (translationToBank tag perm thid).packet) (entry : CacheEntry (databankParams params)) :
    pageAndPerm ((tlbUpdateFunction params).apply x.request entry).data = pageAndPerm entry.data := by
  have hData : x.request.wData = modifiedPte.asUInt := by rw [h]; rfl
  have hMask : x.request.wMask = if perm = dataStore then modifiedPte.asUInt else 0 := by rw [h]; rfl
  rw [tlbUpdateFunction]
  simp only [hData, hMask]
  split
  · rw [CacheEntry.write]
    split
    · simp only [pageAndPerm, ofUInt_merge_modifiedPte]
    · exact congrArg pageAndPerm (CacheEntry.merge_zero _ _)
  · rfl

theorem bankWrite_of_flush_miss (h : x.request = (flushToBank tag).packet) (hMiss : x.hitV = false) :
    x.bankRamWriteRequestO (tlbUpdateFunction params) = none := by
  have hAlone : x.request.FlushAlone := by rw [h]; exact BankRequest.flushAlone _
  have hFull : x.fullWritingV = false := SecondStage.fullWritingV_of_flush hAlone (by rw [h]; rfl)
  simp [SecondStage.bankRamWriteRequestO, SecondStage.fullWritingRequest, SecondStage.frontendWriteToBank, hFull, hMiss]

end BankWrite

/-- A buffer, the write its bank made in the previous cycle, what its tags were refilled with,
and the translations that wait for an answer. -/
structure WatchedTLB (params : PageTableParams) (core : LRUCore params.tlbWayWidth) where
  tlb : TLB params core
  lastWrite : Option (BankWriteRequest (databankParams params))
  table : PTTagPacket params → Option (BitVec params.pPageW × BitVec permW)
  asked : List (TLBPipelineReq params)

end TLB

namespace TLB.WatchedTLB

variable {params : PageTableParams} {core : LRUCore params.tlbWayWidth} (c : WatchedTLB params core) (i : Input params)

abbrev mem : (databankParams params).SetIndex → (databankParams params).Way → CacheEntry (databankParams params) :=
  c.tlb.bank.bram.mem

abbrev watched : Watched (databankParams params) core := ⟨c.tlb.bank, c.lastWrite⟩

def evicts (tag : PTTagPacket params) : Bool :=
  (c.tlb.bank.bankRamWriteRequest (tlbUpdateFunction params)).any fun w =>
    decide (setIndex (bankAddr tag) = w.addr ∧ InBank c.mem (bankAddr tag) w.which)

def nextTable : PTTagPacket params → Option (BitVec params.pPageW × BitVec permW) :=
  match c.tlb.bank.s1Fire (c.tlb.bankInput i) with
  | some (.refill addr _ _ _ _ refillData) => fun tag =>
    if tag = tagOfAddr addr then some (pageAndPerm refillData) else if c.evicts tag then none else c.table tag
  | some (.flush addr _) => Function.update c.table (tagOfAddr addr) none
  | _ => c.table

def taken : Option (TLBPipelineReq params) :=
  if i.translationValid && c.tlb.translationReady i then some i.translationReq else none

def next : WatchedTLB params core where
  tlb := c.tlb.next i
  lastWrite := c.tlb.bank.bankRamWriteRequest (tlbUpdateFunction params)
  table := c.nextTable i
  asked := (if (c.tlb.translationResp i).isSome then c.asked.tail else c.asked) ++ (c.taken i).toList

def machine : Machine (WatchedTLB params core) (Input params) (Option (TLBPipelineResp params)) where
  next := next
  output c i := c.tlb.translationResp i

def start (permR : BitVec permW) : WatchedTLB params core := ⟨.init permR, none, fun _ => none, []⟩

def Modified (tag : PTTagPacket params) : Prop := HeldAs isModified c.mem (bankAddr tag) true

structure Answers (req : TLBPipelineReq params) (resp : TLBPipelineResp params) : Prop where
  thid : resp.thid = req.thid
  hit : resp.hit = (c.table req.tag).isSome
  entry : ∀ page, c.table req.tag = some page → (resp.entry.ppn, resp.entry.perm) = page
  violation : resp.violation = !resp.entry.permValid req.perm
  modified : resp.hit = true →
    ((c.next i).Modified req.tag ↔ c.Modified req.tag ∨ req.perm = dataStore ∧ resp.entry.permValid dataStore = true)
  unchanged : resp.violation = true → (c.next i).mem = c.mem

/-- The oldest translation is answered, and nothing else is. -/
def AskedAnswered : Prop :=
  match c.asked, c.tlb.translationResp i with
  | req :: _, some resp => c.Answers i req resp
  | _ :: _, none => False
  | [], resp => resp = none

/-- A refill that hits brings in the page and the permission that are there. -/
def RefillSame (q : BankRequest (databankParams params)) : Prop :=
  q.packet.refillV = true → (c.tlb.bank.secondStage q).hitV = true →
    pageAndPerm (c.tlb.bank.secondStage q).hitEntry.data = pageAndPerm q.packet.refillData

instance (q : BankRequest (databankParams params)) : Decidable (c.RefillSame q) :=
  inferInstanceAs (Decidable (q.packet.refillV = true → (c.tlb.bank.secondStage q).hitV = true →
    pageAndPerm (c.tlb.bank.secondStage q).hitEntry.data = pageAndPerm q.packet.refillData))

/-- No store hits an unmodified entry that forbids it. -/
def StorePermitted : Bool := c.tlb.hitTranslation.all fun hit => !(marks hit && violated hit)

/-- No request waits in the second stage, its hit is on the entry the bank holds, a refill
repeats what it hits, and a store that marks its entry is permitted. -/
def TableSafe : Prop :=
  c.tlb.bank.NoStall (c.tlb.bankInput i) ∧ c.StorePermitted = true ∧ ∀ q ∈ c.tlb.bank.s1,
    (c.tlb.bank.secondStage q).HitCurrent (tlbUpdateFunction params) c.lastWrite (c.watched.row q) ∧ c.RefillSame q

instance : Decidable (c.TableSafe i) :=
  inferInstanceAs (Decidable (c.tlb.bank.NoStall (c.tlb.bankInput i) ∧ c.StorePermitted = true ∧ ∀ q ∈ c.tlb.bank.s1,
    (c.tlb.bank.secondStage q).HitCurrent (tlbUpdateFunction params) c.lastWrite (c.watched.row q) ∧ c.RefillSame q))

/-- What every safe run keeps: the table is what the bank holds, and the translation in the
second stage is the one that waits for an answer. -/
structure Tabled : Prop extends c.watched.Current where
  inv : c.tlb.Inv
  waits : (∃ req, c.asked = [req] ∧ c.tlb.bank.s1 = some (translationToBank req.tag req.perm req.thid)) ∨
    c.asked = [] ∧ ∀ tag perm thid, c.tlb.bank.s1 ≠ some (translationToBank tag perm thid)
  held : ∀ tag page, c.table tag = some page ↔ HeldAs pageAndPerm c.mem (bankAddr tag) page

variable {c} {i}

section Stage

variable (h : c.Tabled) {q : BankRequest (databankParams params)}
include h

theorem Tabled.s1Fire (hStall : c.tlb.bank.NoStall (c.tlb.bankInput i)) :
    c.tlb.bank.s1Fire (c.tlb.bankInput i) = c.tlb.bank.s1 := by
  cases hS1 : c.tlb.bank.s1 with
  | none => rw [DataBank.s1Fire, hS1, ite_self]
  | some q =>
    rcases DataBank.ready_of_noStall hStall with hReady | hEmpty
    · have hArrived : c.tlb.bank.bankRamReply.isSome = true := h.bankRamReply_isSome hS1
      rw [DataBank.s1Fire, hReady, hArrived, hS1]
      rfl
    · rw [DataBank.s1, hEmpty] at hS1
      cases hS1

theorem Tabled.served : c.tlb.served = c.tlb.bank.s1 := by
  cases hS1 : c.tlb.bank.s1 with
  | none => rw [TLB.served, hS1, ite_self]
  | some q => rw [TLB.served, if_pos (h.arrived q hS1), hS1]

theorem Tabled.fromPorts (hS1 : c.tlb.bank.s1 = some q) : FromPorts q :=
  h.inv.fromPorts q (List.mem_of_mem_head? ((DataBank.s1_eq_some_iff q).mp hS1))

theorem Tabled.table_of_hit (hSets : params.tlbSetWidth ≠ 1) (hS1 : c.tlb.bank.s1 = some q)
    (hCurrent : (c.tlb.bank.secondStage q).HitCurrent (tlbUpdateFunction params) c.lastWrite (c.watched.row q))
    (hHit : (c.tlb.bank.secondStage q).hitV = true) {tag : PTTagPacket params} (hAddr : q.packet.addr = bankAddr tag) :
    c.table tag = some (pageAndPerm (c.tlb.bank.secondStage q).hitEntry.data) ∧
      (c.Modified tag ↔ isModified (c.tlb.bank.secondStage q).hitEntry.data = true) := by
  obtain ⟨way, hHolds, hData, _⟩ := h.toCurrent.hit (tlbUpdateFunction params) hSets hS1 hCurrent hHit
  have hIn : InBank c.mem (bankAddr tag) way := by
    rw [← hAddr]
    exact hHolds
  have hData' : (c.mem (setIndex (bankAddr tag)) way).data = (c.tlb.bank.secondStage q).hitEntry.data := by
    rw [← hAddr]
    exact hData
  have hRows := h.rows (setIndex (bankAddr tag))
  constructor
  · rw [h.held, heldAs_of_inBank hRows hIn, hData']
  · rw [Modified, heldAs_of_inBank hRows hIn, hData']

theorem Tabled.table_of_miss (hSets : params.tlbSetWidth ≠ 1) (hS1 : c.tlb.bank.s1 = some q)
    (hMiss : (c.tlb.bank.secondStage q).hitV = false) {tag : PTTagPacket params} (hAddr : q.packet.addr = bankAddr tag) :
    c.table tag = none := by
  rw [Option.eq_none_iff_forall_ne_some]
  intro page hTable
  obtain ⟨way, hIn, _⟩ := (h.held tag page).mp hTable
  rw [← hAddr] at hIn
  exact h.toCurrent.miss hSets hS1 hMiss way hIn

theorem Tabled.held_translation (hSets : params.tlbSetWidth ≠ 1) {tag : PTTagPacket params} {perm : BitVec permW}
    {thid : BitVec params.thidW} (hS1 : c.tlb.bank.s1 = some (translationToBank tag perm thid))
    (hCurrent : (c.tlb.bank.secondStage (translationToBank tag perm thid)).HitCurrent (tlbUpdateFunction params)
      c.lastWrite (c.watched.row (translationToBank tag perm thid))) (tag' : PTTagPacket params)
    (page : BitVec params.pPageW × BitVec permW) :
    c.table tag' = some page ↔ HeldAs pageAndPerm (c.next i).mem (bankAddr tag') page := by
  cases hWrite : c.tlb.bank.bankRamWriteRequest (tlbUpdateFunction params) with
  | none => exact (h.held tag' page).trans (Watched.heldAs_next_of_not_write (m := c.watched) hWrite _).symm
  | some w =>
    obtain ⟨q, hS1', hStage⟩ := DataBank.bankRamWriteRequest_eq_some hWrite
    rw [hS1, Option.some.injEq] at hS1'
    subst hS1'
    cases hHit : (c.tlb.bank.secondStage (translationToBank tag perm thid)).hitV with
    | false =>
      rw [bankWrite_of_translation_miss rfl hHit] at hStage
      cases hStage
    | true =>
      refine Iff.trans ?_ (h.toCurrent.heldAs_next_of_hit hSets hS1 hCurrent hHit hWrite _).symm
      split
      · next hAddr =>
        have hTag : tag' = tag := bankAddr_inj.mp hAddr
        subst hTag
        rw [(h.table_of_hit hSets hS1 hCurrent hHit rfl).1, Option.some.injEq]
        rcases SecondStage.bankWrite_cases (BankRequest.flushAlone _) hStage with
          ⟨hFlush, _⟩ | ⟨_, _, rfl⟩ | ⟨_, hMiss, _⟩
        · cases hFlush
        · rw [pageAndPerm_apply rfl]
          exact ⟨fun hPage => ⟨rfl, hPage⟩, And.right⟩
        · rw [hHit] at hMiss
          cases hMiss
      · exact h.held tag' page

theorem Tabled.held_refill (hSets : params.tlbSetWidth ≠ 1) {resp : TLBMMURespPacket params}
    (hS1 : c.tlb.bank.s1 = some (refillToBank resp))
    (hCurrent : (c.tlb.bank.secondStage (refillToBank resp)).HitCurrent (tlbUpdateFunction params)
      c.lastWrite (c.watched.row (refillToBank resp))) (hSame : c.RefillSame (refillToBank resp))
    (tag' : PTTagPacket params) (page : BitVec params.pPageW × BitVec permW) :
    (if tag' = resp.tag then some (pageAndPerm resp.data.asUInt) else if c.evicts tag' then none else c.table tag') =
      some page ↔ HeldAs pageAndPerm (c.next i).mem (bankAddr tag') page := by
  obtain ⟨w, hStage, hData⟩ := bankWrite_of_refill
    (x := c.tlb.bank.secondStage (refillToBank resp)) resp rfl
  have hWrite : c.tlb.bank.bankRamWriteRequest (tlbUpdateFunction params) = some w :=
    (congrArg (Option.bind · _) hS1).trans hStage
  have hSafe : Watched.WriteSafe (tlbUpdateFunction params) c.watched (c.tlb.bankInput i) :=
    h.toCurrent.writeSafe _ hSets fun q hS1' _ => by
      rw [← Option.some.inj (hS1.symm.trans hS1')]
      exact hCurrent
  refine Iff.trans ?_ (h.toUnique.heldAs_next hSets hSafe hS1 hWrite _).symm
  have hAddr : bankAddr tag' = (refillToBank resp).packet.addr ↔ tag' = resp.tag := bankAddr_inj
  by_cases hTag : tag' = resp.tag
  · rw [if_pos hTag, if_pos (hAddr.mpr hTag), Option.some.injEq, hData]
    have hPage : pageAndPerm (if (c.tlb.bank.secondStage (refillToBank resp)).hitV = true
        then (c.tlb.bank.secondStage (refillToBank resp)).hitEntry.data else resp.data.asUInt) =
        pageAndPerm resp.data.asUInt := by
      split
      · next hHit => exact hSame rfl hHit
      · rfl
    rw [hPage]
    exact ⟨fun hPage => ⟨rfl, hPage⟩, And.right⟩
  · rw [if_neg hTag, if_neg fun h => hTag (hAddr.mp h)]
    have hEvicts : c.evicts tag' = true ↔ setIndex (bankAddr tag') = w.addr ∧ InBank c.mem (bankAddr tag') w.which := by
      rw [evicts, hWrite, Option.any_some, decide_eq_true_eq]
    by_cases hGone : c.evicts tag' = true
    · rw [if_pos hGone]
      exact iff_of_false (by simp) fun hHeld => hHeld.2 (hEvicts.mp hGone)
    · rw [if_neg hGone, h.held]
      exact ⟨fun hHeld => ⟨hHeld, fun hIn => hGone (hEvicts.mpr hIn)⟩, And.left⟩

theorem Tabled.held_flush (hSets : params.tlbSetWidth ≠ 1) {tag : PTTagPacket params}
    (hS1 : c.tlb.bank.s1 = some (flushToBank tag))
    (hCurrent : (c.tlb.bank.secondStage (flushToBank tag)).HitCurrent (tlbUpdateFunction params)
      c.lastWrite (c.watched.row (flushToBank tag))) (tag' : PTTagPacket params)
    (page : BitVec params.pPageW × BitVec permW) :
    Function.update c.table tag none tag' = some page ↔ HeldAs pageAndPerm (c.next i).mem (bankAddr tag') page := by
  have hAddr : bankAddr tag' = (flushToBank tag).packet.addr ↔ tag' = tag := bankAddr_inj
  cases hHit : (c.tlb.bank.secondStage (flushToBank tag)).hitV with
  | true =>
    have hWrite : c.tlb.bank.bankRamWriteRequest (tlbUpdateFunction params) = some _ :=
      (congrArg (Option.bind · _) hS1).trans (SecondStage.bankWrite_of_flush _ (BankRequest.flushAlone _) rfl hHit)
    refine Iff.trans ?_ (h.toCurrent.heldAs_next_of_hit hSets hS1 hCurrent hHit hWrite _).symm
    rw [Function.update_apply]
    by_cases hTag : tag' = tag
    · rw [if_pos hTag, if_pos (hAddr.mpr hTag)]
      exact iff_of_false (by simp) fun hFlush => by cases hFlush.1
    · rw [if_neg hTag, if_neg fun h => hTag (hAddr.mp h)]
      exact h.held tag' page
  | false =>
    have hNone : c.tlb.bank.bankRamWriteRequest (tlbUpdateFunction params) = none :=
      (congrArg (Option.bind · _) hS1).trans (bankWrite_of_flush_miss rfl hHit)
    have hTable : Function.update c.table tag none = c.table := by
      rw [← h.table_of_miss hSets hS1 hHit rfl, Function.update_eq_self]
    rw [hTable]
    exact (h.held tag' page).trans (Watched.heldAs_next_of_not_write (m := c.watched) hNone _).symm

theorem Tabled.held_next (hSets : params.tlbSetWidth ≠ 1) (hSafe : c.TableSafe i) (tag : PTTagPacket params)
    (page : BitVec params.pPageW × BitVec permW) :
    (c.next i).table tag = some page ↔ HeldAs pageAndPerm (c.next i).mem (bankAddr tag) page := by
  obtain ⟨hStall, _, hStage⟩ := hSafe
  change c.nextTable i tag = some page ↔ _
  rw [nextTable, h.s1Fire hStall]
  cases hS1 : c.tlb.bank.s1 with
  | none =>
    have hNone : c.tlb.bank.bankRamWriteRequest (tlbUpdateFunction params) = none := congrArg (Option.bind · _) hS1
    exact (h.held tag page).trans (Watched.heldAs_next_of_not_write (m := c.watched) hNone _).symm
  | some q =>
    obtain ⟨hCurrent, hSame⟩ := hStage q hS1
    obtain ⟨asked, perm, thid, rfl⟩ | ⟨asked, rfl⟩ | ⟨resp, rfl⟩ := h.fromPorts hS1
    · exact h.held_translation hSets hS1 hCurrent tag page
    · have hTag : tagOfAddr (bankAddr asked) = asked := tagOfAddr_bankAddr asked
      simp only [flushToBank, hTag]
      exact h.held_flush hSets hS1 hCurrent tag page
    · have hTag : tagOfAddr (bankAddr resp.tag) = resp.tag := tagOfAddr_bankAddr resp.tag
      simp only [refillToBank, hTag]
      exact h.held_refill hSets hS1 hCurrent hSame tag page

theorem Tabled.translationResp_isSome (hStall : c.tlb.bank.NoStall (c.tlb.bankInput i)) :
    (c.tlb.translationResp i).isSome = true ↔ ∃ req, c.asked = [req] := by
  have hReply : c.tlb.reply i = c.tlb.bank.s1.map fun q =>
      (c.tlb.bank.secondStage q).frontendReplyO (tlbUpdateFunction params) := by
    rw [reply, DataBank.frontendReply, h.s1Fire hStall]
  rw [translationResp, Option.isSome_map, hReply]
  rcases h.waits with ⟨req, hAsked, hS1⟩ | ⟨hAsked, hNot⟩
  · rw [hS1, hAsked]
    exact iff_of_true rfl ⟨req, rfl⟩
  · rw [hAsked]
    refine iff_of_false ?_ ?_
    · cases hS1 : c.tlb.bank.s1 with
      | none => simp
      | some q =>
        obtain ⟨tag, perm, thid, rfl⟩ | ⟨tag, rfl⟩ | ⟨resp, rfl⟩ := h.fromPorts hS1
        · exact absurd hS1 (hNot tag perm thid)
        · simp [SecondStage.frontendReplyO, flushToBank, BankRequest.packet]
        · simp [SecondStage.frontendReplyO, refillToBank, BankRequest.packet]
    · rintro ⟨req, hReq⟩
      cases hReq

end Stage

theorem accepted_of_taken {req : TLBPipelineReq params} (hTaken : c.taken i = some req) :
    c.tlb.bank.accepted (c.tlb.bankInput i) = some (translationToBank req.tag req.perm req.thid) := by
  rw [taken, Option.ite_none_right_eq_some, Bool.and_eq_true, translationReady] at hTaken
  simp only [Bool.and_eq_true, Option.isNone_iff_eq_none, Option.some.injEq] at hTaken
  obtain ⟨⟨hValid, ⟨hFlush, hRefill⟩, hReady⟩, rfl⟩ := hTaken
  have hBits : (c.tlb.bankInput i).request = pipelineBits i := by
    change arbiterBits i = _
    rw [arbiterBits, hFlush, hRefill]
  have hOffer : (c.tlb.bankInput i).valid = true := by
    change arbiterValid i = true
    rw [arbiterValid, hValid, Bool.or_true]
  rw [DataBank.accepted, hOffer, hBits, Bool.true_and]
  exact if_pos hReady

theorem taken_of_accepted {tag : PTTagPacket params} {perm : BitVec permW} {thid : BitVec params.thidW}
    (h : c.tlb.bank.accepted (c.tlb.bankInput i) = some (translationToBank tag perm thid)) :
    (c.taken i).isSome = true := by
  obtain ⟨hValid, hReady, _⟩ := accepted_translation h
  rw [taken, hValid, hReady]
  rfl

theorem Tabled.next (hSets : params.tlbSetWidth ≠ 1) (h : c.Tabled) (hSafe : c.TableSafe i) : (c.next i).Tabled where
  toCurrent := h.toCurrent.next hSets hSafe.1 fun q hS1 _ => (hSafe.2.2 q hS1).1
  inv := h.inv.next
  waits := by
    have hList := h.s1_next (tlbUpdateFunction params) hSafe.1 h.arrived
    have hS1 : (c.next i).tlb.bank.s1 = c.tlb.bank.accepted (c.tlb.bankInput i) := by
      change DataBank.s1 (c.tlb.bank.next _ _) = _
      rw [DataBank.s1, hList]
      cases c.tlb.bank.accepted (c.tlb.bankInput i) <;> rfl
    have hAsked : (c.next i).asked = (c.taken i).toList := by
      have hRest : (if (c.tlb.translationResp i).isSome then c.asked.tail else c.asked) = [] := by
        split
        · next hSome =>
          obtain ⟨req, hReq⟩ := (h.translationResp_isSome hSafe.1).mp hSome
          rw [hReq, List.tail_cons]
        · next hNone =>
          rcases h.waits with ⟨req, hReq, _⟩ | ⟨hEmpty, _⟩
          · exact absurd ((h.translationResp_isSome hSafe.1).mpr ⟨req, hReq⟩) hNone
          · exact hEmpty
      change _ ++ (c.taken i).toList = _
      rw [hRest, List.nil_append]
    rw [hS1, hAsked]
    cases hTaken : c.taken i with
    | some req => exact .inl ⟨req, rfl, accepted_of_taken hTaken⟩
    | none =>
      refine .inr ⟨rfl, fun tag perm thid hAccepted => ?_⟩
      have hSome := taken_of_accepted hAccepted
      rw [hTaken] at hSome
      cases hSome
  held := h.held_next hSets hSafe

section Translation

variable {req : TLBPipelineReq params}

theorem TableSafe.permitted (hSafe : c.TableSafe i) {hit : PTEntryPacket params × BitVec permW}
    (hHit : c.tlb.hitTranslation = some hit) (hMarks : marks hit = true) : hit.1.permValid hit.2 = true := by
  have hRule := hSafe.2.1
  rw [StorePermitted, hHit, Option.all_some, hMarks, Bool.true_and, violated, Bool.not_not] at hRule
  exact hRule

theorem Tabled.hitTranslation_eq (h : c.Tabled)
    (hS1 : c.tlb.bank.s1 = some (translationToBank req.tag req.perm req.thid)) :
    c.tlb.hitTranslation = if (c.tlb.bank.secondStage (translationToBank req.tag req.perm req.thid)).hitV
      then some (.ofUInt (c.tlb.bank.secondStage (translationToBank req.tag req.perm req.thid)).hitEntry.data, req.perm)
      else none := by
  rw [hitTranslation, h.served, hS1, Option.bind_some]
  rfl

theorem Tabled.mem_next (h : c.Tabled) (hS1 : c.tlb.bank.s1 = some (translationToBank req.tag req.perm req.thid))
    (hNot : ∀ hit ∈ c.tlb.hitTranslation, marks hit = false) : (c.next i).mem = c.mem := by
  refine DataBank.mem_next_of_none ?_
  cases hHit : (c.tlb.bank.secondStage (translationToBank req.tag req.perm req.thid)).hitV with
  | false => exact (congrArg (Option.bind · _) hS1).trans (bankWrite_of_translation_miss rfl hHit)
  | true =>
    have hTranslation := h.hitTranslation_eq hS1
    rw [hHit, if_pos rfl] at hTranslation
    exact bankRamWriteRequest_of_not_marks h.inv hTranslation (hNot _ hTranslation)

/-- The entry of a hit becomes modified exactly by a store it permits. -/
theorem Tabled.modified_next (hSets : params.tlbSetWidth ≠ 1) (h : c.Tabled) (hSafe : c.TableSafe i)
    (hS1 : c.tlb.bank.s1 = some (translationToBank req.tag req.perm req.thid))
    {entry : PTEntryPacket params} (hTranslation : c.tlb.hitTranslation = some (entry, req.perm)) :
    (c.next i).Modified req.tag ↔ c.Modified req.tag ∨ req.perm = dataStore ∧ entry.permValid dataStore = true := by
  obtain ⟨hCurrent, _⟩ := hSafe.2.2 _ hS1
  rw [h.hitTranslation_eq hS1, Option.ite_none_right_eq_some, Option.some.injEq, Prod.mk.injEq] at hTranslation
  obtain ⟨hHit, rfl, _⟩ := hTranslation
  have hTranslation := h.hitTranslation_eq hS1
  rw [hHit, if_pos rfl] at hTranslation
  have hModified := (h.table_of_hit hSets hS1 hCurrent hHit rfl).2
  by_cases hMarks : req.perm = dataStore ∧
      isModified (c.tlb.bank.secondStage (translationToBank req.tag req.perm req.thid)).hitEntry.data = false
  · obtain ⟨hStore, hClean⟩ := hMarks
    have hPermitted : (PTEntryPacket.ofUInt (c.tlb.bank.secondStage
        (translationToBank req.tag req.perm req.thid)).hitEntry.data).permValid dataStore = true := by
      rw [isModified] at hClean
      have hPermitted := hSafe.permitted hTranslation (by
        rw [marks, Bool.and_eq_true, beq_iff_eq, Bool.not_eq_true']
        exact ⟨hStore, hClean⟩)
      rwa [hStore] at hPermitted ⊢
    refine iff_of_true ?_ (.inr ⟨hStore, hPermitted⟩)
    have hStage := bankWrite_of_marks (x := c.tlb.bank.secondStage (translationToBank req.tag req.perm req.thid))
      (by rw [hStore]; rfl) hHit hClean
    have hWrite : c.tlb.bank.bankRamWriteRequest (tlbUpdateFunction params) = some _ :=
      (congrArg (Option.bind · _) hS1).trans hStage
    refine (h.toCurrent.heldAs_next_of_hit hSets hS1 hCurrent hHit hWrite _).mpr ?_
    rw [if_pos (by rfl)]
    refine ⟨rfl, ?_⟩
    simp only [CacheEntry.write, isModified, ofUInt_merge_modifiedPte]
  · have hMem : (c.next i).mem = c.mem := h.mem_next hS1 fun hit hHit' => by
      rw [Option.mem_def, hTranslation, Option.some.injEq] at hHit'
      subst hHit'
      simpa [marks, isModified] using hMarks
    rw [Modified, hMem]
    refine (or_iff_left_of_imp ?_).symm
    rintro ⟨hStore, _⟩
    refine hModified.mpr ?_
    by_contra hClean
    exact hMarks ⟨hStore, by simpa using hClean⟩

theorem Tabled.answers (hSets : params.tlbSetWidth ≠ 1) (h : c.Tabled) (hSafe : c.TableSafe i)
    (hS1 : c.tlb.bank.s1 = some (translationToBank req.tag req.perm req.thid)) {resp : TLBPipelineResp params}
    (hResp : c.tlb.translationResp i = some resp) : c.Answers i req resp := by
  obtain ⟨hCurrent, _⟩ := hSafe.2.2 _ hS1
  obtain ⟨tag, perm, thid, hServed, hThid, hViolation, hHit, hMiss⟩ := h.inv.translationResp_eq hResp
  rw [h.served, hS1, Option.some.injEq] at hServed
  obtain ⟨_, _, rfl, rfl, _, _⟩ := BankRequest.access.inj hServed
  have hTranslation := h.hitTranslation_eq hS1
  have hTable : resp.hit = (c.table req.tag).isSome ∧
      ∀ page, c.table req.tag = some page → (resp.entry.ppn, resp.entry.perm) = page := by
    cases hCase : resp.hit with
    | true =>
      rw [hHit hCase] at hTranslation
      obtain ⟨hHitV, hEntry⟩ := Option.ite_none_right_eq_some.mp hTranslation.symm
      have hPage := (h.table_of_hit hSets hS1 hCurrent hHitV rfl).1
      rw [Option.some.injEq, Prod.mk.injEq] at hEntry
      rw [hPage, ← hEntry.1]
      exact ⟨rfl, fun page hSome => Option.some.inj hSome⟩
    | false =>
      rw [hMiss hCase] at hTranslation
      have hHitV : (c.tlb.bank.secondStage (translationToBank req.tag req.perm req.thid)).hitV = false := by
        cases hV : (c.tlb.bank.secondStage (translationToBank req.tag req.perm req.thid)).hitV with
        | false => rfl
        | true => rw [hV, if_pos rfl] at hTranslation; cases hTranslation
      rw [h.table_of_miss hSets hS1 hHitV rfl]
      exact ⟨rfl, fun page hSome => by cases hSome⟩
  refine ⟨hThid, hTable.1, hTable.2, hViolation, fun hCase => h.modified_next hSets hSafe hS1 (hHit hCase), ?_⟩
  intro hForbidden
  refine h.mem_next hS1 fun hit hSome => ?_
  cases hCase : resp.hit with
  | false =>
    rw [Option.mem_def, hMiss hCase] at hSome
    cases hSome
  | true =>
    rw [Option.mem_def, hHit hCase, Option.some.injEq] at hSome
    subst hSome
    rw [hViolation, Bool.not_eq_true'] at hForbidden
    by_contra hMarks
    have hPermitted := hSafe.permitted (hHit hCase) ((Bool.not_eq_false _).mp hMarks)
    rw [hForbidden] at hPermitted
    cases hPermitted

end Translation

theorem Tabled.start (permR : BitVec permW) : (start permR : WatchedTLB params core).Tabled where
  toCurrent := .start
  inv := .init permR
  waits := .inr ⟨rfl, fun tag perm thid hS1 => by cases hS1⟩
  held tag page := by
    refine iff_of_false (fun hTable => by cases hTable) ?_
    rintro ⟨way, hIn, _⟩
    cases hIn

theorem Tabled.askedAnswered (hSets : params.tlbSetWidth ≠ 1) (h : c.Tabled) (hSafe : c.TableSafe i) :
    c.AskedAnswered i := by
  have hSome := h.translationResp_isSome hSafe.1
  rw [AskedAnswered]
  rcases h.waits with ⟨req, hAsked, hS1⟩ | ⟨hAsked, _⟩
  · obtain ⟨resp, hResp⟩ := Option.isSome_iff_exists.mp (hSome.mpr ⟨req, hAsked⟩)
    rw [hAsked, hResp]
    exact h.answers hSets hSafe hS1 hResp
  · rw [hAsked]
    cases hResp : c.tlb.translationResp i with
    | none => rfl
    | some resp =>
      obtain ⟨req, hReq⟩ := hSome.mp (by rw [hResp]; rfl)
      rw [hAsked] at hReq
      cases hReq

/-- From reset, every translation taken is answered, once and in order, from the table: it hits
what was refilled and not flushed or evicted since, with the page and the permission of that
refill, and marks exactly what it stores to with permission. -/
theorem translations_answered (hSets : params.tlbSetWidth ≠ 1) (permR : BitVec permW) (is : List (Input params))
    (hSafe : (machine : Machine (WatchedTLB params core) _ _).Along TableSafe (start permR) is) :
    (machine : Machine (WatchedTLB params core) _ _).Along AskedAnswered (start permR) is :=
  hSafe.of_invariant (Tabled.start permR) (fun _ _ hTabled hRule => hTabled.next hSets hRule)
    fun _ _ hTabled hRule => hTabled.askedAnswered hSets hRule

section OnePage

abbrev pairTLB : PageTableParams :=
  ⟨13, 8, 2, 1, 0, 1, 1, by decide, by decide, by decide, by decide, by decide⟩

def idleInput : Input pairTLB := ⟨⟨⟨0, 0⟩, 0, 0⟩, false, none, none, true, true⟩

def refillInput (perm : BitVec permW) : Input pairTLB :=
  { idleInput with refillResp := some ⟨⟨0, 0⟩, ⟨1, perm, false⟩, 0⟩ }

def storeInput : Input pairTLB := { idleInput with translationReq := ⟨⟨0, 0⟩, dataStore, 0⟩, translationValid := true }

/-- Page 0 is refilled, stored to and flushed. -/
theorem translations_answered_one :
    (machine : Machine (WatchedTLB pairTLB (PseudoTreeLRUCore 1)) _ _).Along AskedAnswered (start 0)
      [storeInput, refillInput dataStore, idleInput, storeInput, idleInput, { idleInput with flushReq := some ⟨0, 0⟩ },
        storeInput, idleInput] :=
  translations_answered (by decide) 0 _ (by decide +kernel)

/-- A page that may only be loaded from is stored to: the store is answered with a violation,
and its entry is modified. -/
theorem forbidden_store_marks :
    ¬ (machine : Machine (WatchedTLB pairTLB (PseudoTreeLRUCore 1)) _ _).Along AskedAnswered (start 0)
      [refillInput dataLoad, idleInput, storeInput, idleInput] := by
  intro hAlong
  have hLast := (Machine.along_iff_prefix _ _).mp hAlong [refillInput dataLoad, idleInput, storeInput] idleInput [] rfl
  have hAsked : (machine.run (start 0 : WatchedTLB pairTLB (PseudoTreeLRUCore 1))
      [refillInput dataLoad, idleInput, storeInput]).asked = [⟨⟨0, 0⟩, dataStore, 0⟩] := by decide +kernel
  have hResp : (machine.run (start 0 : WatchedTLB pairTLB (PseudoTreeLRUCore 1))
      [refillInput dataLoad, idleInput, storeInput]).tlb.translationResp idleInput =
      some ⟨⟨1, dataLoad, false⟩, true, true, 0⟩ := by decide +kernel
  rw [AskedAnswered, hAsked, hResp] at hLast
  have hEntry := congrFun (congrFun (hLast.unchanged rfl) 0) 0
  revert hEntry
  decide +kernel

end OnePage

end TLB.WatchedTLB

end KnockoutKraken.Cache

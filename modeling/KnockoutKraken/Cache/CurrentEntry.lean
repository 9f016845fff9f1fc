import KnockoutKraken.Cache.Stall

/-!
# Hits on the entry the bank holds

Without a stall no request waits: its word arrives in the cycle after it
was accepted, and it leaves in that cycle. Its hit is current when the
word shows the present entry of the way it matched, or when the hit is
forwarded and a write it makes goes to the way written last. Then a hit
is on the entry the bank holds, and a miss finds its block nowhere.
-/

namespace KnockoutKraken.Cache

open Library Util

variable {p : DatabankParams} {core : LRUCore p.wayWidth} {update : UpdateFunction p}

namespace SecondStage

def forwarded (x : SecondStage p) : Bool := x.s2WritingMatched.any fun context => !context.flushV

variable (update) in
def HitCurrent (x : SecondStage p) (last : Option (BankWriteRequest p)) (row : p.Way → CacheEntry p) : Prop :=
  x.hitV = true → if x.forwarded = true
    then (x.bankRamWriteRequestO update).isSome = true → ∀ w ∈ last, w.which = x.matchWhich
    else x.bankRamReply x.matchWhich = row x.matchWhich

instance (x : SecondStage p) (last : Option (BankWriteRequest p)) (row : p.Way → CacheEntry p) :
    Decidable (x.HitCurrent update last row) :=
  inferInstanceAs (Decidable (x.hitV = true → if x.forwarded = true
    then (x.bankRamWriteRequestO update).isSome = true → ∀ w ∈ last, w.which = x.matchWhich
    else x.bankRamReply x.matchWhich = row x.matchWhich))

variable {x : SecondStage p}

theorem forwarded_iff : x.forwarded = true ↔ ∃ c, x.s2WritingMatched = some c ∧ c.flushV = false := by
  rw [forwarded, Option.any_eq_true]
  simp

theorem hitV_of_forwarded (h : x.forwarded = true) : x.hitV = true := by
  obtain ⟨c, hFwd, hFlush⟩ := forwarded_iff.mp h
  simp [hitV, hFwd, hFlush]

theorem hitEntry_of_forwarded {c : WritingContext p} (hFwd : x.s2WritingMatched = some c) :
    x.hitEntry = c.toEntry := by
  simp [hitEntry, hFwd]

theorem hit_of_not_forwarded (hHit : x.hitV = true) (h : x.forwarded = false) :
    x.hitEntry = x.bankRamReply x.matchWhich ∧ Holds CacheEntry.key x.bankRamReply x.tag x.matchWhich := by
  rcases hit_cases hHit with ⟨c, hFwd, hFlush, _⟩ | ⟨_, hEntry, hHolds⟩
  · rw [forwarded_iff.mpr ⟨c, hFwd, hFlush⟩] at h
    cases h
  · exact ⟨hEntry, hHolds⟩

theorem target_of_hit (h : x.hitV = true) : x.target = x.matchWhich := if_pos h

theorem target_of_miss (h : x.hitV = false) : x.target = x.lruWhichI := if_neg (ne_true_of_eq_false h)

theorem bankWrite_data (hAlone : x.request.FlushAlone) {w : BankWriteRequest p}
    (h : x.bankRamWriteRequestO update = some w) (hFlush : x.request.flushV = false) :
    w.data.data = (x.frontendReplyO update).wData := by
  rcases bankWrite_cases hAlone h with ⟨hFlush', _⟩ | ⟨_, hHit, rfl⟩ | ⟨_, hHit, hFull, rfl⟩
  · rw [hFlush] at hFlush'
    cases hFlush'
  · cases hFull : x.fullWritingV <;>
      simp [frontendReplyO, hFull, refillEntry, hHit, updatedEntry, hFlush, CacheEntry.read]
  · simp [frontendReplyO, hFull, refillEntry, hHit, CacheEntry.read]

/-- A write or a flush that performs without writing the bank changes nothing of the entry it hit. -/
theorem unchanged_of_not_bankWrite (hAlone : x.request.FlushAlone) (hPerforms : x.performs = true)
    (h : x.bankRamWriteRequestO update = none) :
    x.hitV = true ∧ x.request.flushV = false ∧ x.request.refillV = false ∧ x.fullWritingV = false ∧
      update.apply x.request x.hitEntry = x.hitEntry := by
  cases hFull : x.fullWritingV with
  | true => simp [bankRamWriteRequestO, fullWritingRequest, hFull] at h
  | false =>
    have hHit : x.hitV = true := by
      simp only [performs, hFull, Bool.or_false, Bool.and_eq_true] at hPerforms
      exact hPerforms.2
    have hRefill : x.request.refillV = false := by
      simp only [fullWritingV, Bool.or_eq_false_iff] at hFull
      exact hFull.2
    cases hFlush : x.request.flushV with
    | true =>
      rw [bankWrite_of_flush update hAlone hFlush hHit] at h
      cases h
    | false =>
      refine ⟨hHit, rfl, hRefill, rfl, ?_⟩
      simpa [bankRamWriteRequestO, fullWritingRequest, frontendWriteToBank, hFull, hHit, hRefill,
        updatedEntry, hFlush] using h

theorem reply_of_not_bankWrite (hAlone : x.request.FlushAlone) (hPerforms : x.performs = true)
    (h : x.bankRamWriteRequestO update = none) : (x.frontendReplyO update).wData = x.hitEntry.data := by
  obtain ⟨_, hFlush, _, hFull, hSame⟩ := unchanged_of_not_bankWrite hAlone hPerforms h
  simp [frontendReplyO, hFull, updatedEntry, hFlush, hSame, CacheEntry.read]

end SecondStage

namespace DataBank

variable {s : DataBank p core} {i : Input p}

variable (update) in
theorem Shape.s1_next (h : s.Shape) (hStall : s.NoStall i) (hArrived : ∀ q, s.s1 = some q → s.readReplyValid = true) :
    (s.next update i).s1FrontendRequestR = (s.accepted i).toList := by
  change s1Queue.next _ _ _ = _
  rcases ready_of_noStall hStall with hReady | hEmpty
  · have hLeaves : s.pipelineStateReady1 i = true := by
      rw [hReady, h.bankRamReply, beq_iff_eq]
      cases hS1 : s.s1 with
      | some q => exact hArrived q hS1
      | none =>
        cases hValid : s.readReplyValid with
        | false => rfl
        | true => exact absurd (h.s1_isSome hValid) (by simp [hS1])
    rw [hLeaves]
    exact FlushQueue.next_of_deqReady rfl h.s1_length _ rfl
  · rw [hEmpty]
    cases s.accepted i <;> cases s.pipelineStateReady1 i <;> rfl

end DataBank

namespace Watched

variable {m : Watched p core} {i : DataBank.Input p} {q : BankRequest p}

def row (m : Watched p core) (q : BankRequest p) : p.Way → CacheEntry p :=
  m.bank.bram.mem (setIndex q.packet.addr)

structure Current (m : Watched p core) : Prop extends m.Unique where
  arrived : ∀ q, m.bank.s1 = some q → m.bank.readReplyValid = true
  inBank : ∀ c, m.bank.s2BankWritingR = some c → c.flushV = false → ∃ way,
    Holds CacheEntry.key (m.bank.bram.mem (setIndex c.addr)) (getTagFromAddress c.addr) way ∧
      (m.bank.bram.mem (setIndex c.addr) way).data = c.dataBlock

theorem Current.bankRamReply_isSome (h : m.Current) (hS1 : m.bank.s1 = some q) :
    m.bank.bankRamReply.isSome = true := by
  rw [h.bankRamReply]
  exact h.arrived q hS1

/-- The register of the previous write shows the block written last, unless that was a flush. -/
theorem Current.forwarded_of_lastWrite (hSets : p.setWidth ≠ 1) (h : m.Current) {w : BankWriteRequest p}
    (hLast : m.lastWrite = some w) (hAddr : w.addr = setIndex q.packet.addr)
    (hKey : w.data.key = some (m.bank.secondStage q).tag) : (m.bank.secondStage q).forwarded = true := by
  obtain ⟨c, hContext, hSet, hKey'⟩ := h.context w hLast
  rw [hKey] at hKey'
  cases hFlush : c.flushV with
  | true =>
    rw [hFlush, if_pos rfl] at hKey'
    cases hKey'
  | false =>
    rw [hFlush, if_neg Bool.false_ne_true, Option.some.injEq] at hKey'
    have hEq : c.addr = q.packet.addr := (addr_eq_iff hSets _ _).mpr ⟨hKey'.symm, hSet.symm.trans hAddr⟩
    exact SecondStage.forwarded_iff.mpr
      ⟨c, (SecondStage.s2WritingMatched_eq_some_iff c).mpr ⟨hContext, hEq⟩, hFlush⟩

theorem Current.waySafe (hSets : p.setWidth ≠ 1) (h : m.Current)
    (hCurrent : (m.bank.secondStage q).HitCurrent update m.lastWrite (m.row q))
    (hWrite : ((m.bank.secondStage q).bankRamWriteRequestO update).isSome = true) :
    (m.bank.secondStage q).WaySafe m.lastWrite := by
  intro w hLast hAddr hKey
  have hForwarded := h.forwarded_of_lastWrite hSets hLast hAddr hKey
  have hHit := SecondStage.hitV_of_forwarded hForwarded
  have hWay := hCurrent hHit
  rw [if_pos hForwarded] at hWay
  rw [SecondStage.target_of_hit hHit]
  exact hWay hWrite w hLast

variable (update) in
theorem Current.writeSafe (hSets : p.setWidth ≠ 1) (h : m.Current)
    (hCurrent : ∀ q, m.bank.s1 = some q → (m.bank.secondStage q).performs = true →
      (m.bank.secondStage q).HitCurrent update m.lastWrite (m.row q)) :
    WriteSafe update m i := by
  intro q hS1 hWrite
  obtain ⟨w, hStage⟩ := Option.isSome_iff_exists.mp hWrite
  exact ⟨h.bankRamReply_isSome hS1,
    h.waySafe hSets (hCurrent q hS1 (SecondStage.performs_of_bankWrite hStage)) hWrite⟩

variable (update) in
theorem Current.hit (hSets : p.setWidth ≠ 1) (h : m.Current) (hS1 : m.bank.s1 = some q)
    (hCurrent : (m.bank.secondStage q).HitCurrent update m.lastWrite (m.row q))
    (hHit : (m.bank.secondStage q).hitV = true) :
    ∃ way, Holds CacheEntry.key (m.row q) (m.bank.secondStage q).tag way ∧
      (m.row q way).data = (m.bank.secondStage q).hitEntry.data ∧
      (((m.bank.secondStage q).bankRamWriteRequestO update).isSome = true → way = (m.bank.secondStage q).matchWhich) ∧
      ((m.bank.secondStage q).forwarded = false → (m.bank.secondStage q).hitEntry = m.row q way) := by
  cases hForwarded : (m.bank.secondStage q).forwarded with
  | true =>
    obtain ⟨c, hFwd, hFlush⟩ := SecondStage.forwarded_iff.mp hForwarded
    obtain ⟨hContext, hAddr⟩ := (SecondStage.s2WritingMatched_eq_some_iff c).mp hFwd
    obtain ⟨way, hHolds, hData⟩ := h.inBank c hContext hFlush
    rw [hAddr] at hHolds hData
    refine ⟨way, hHolds, ?_, fun hWrite => ?_, fun hNot => by cases hNot⟩
    · rw [SecondStage.hitEntry_of_forwarded hFwd]
      exact hData
    · rw [← SecondStage.target_of_hit hHit]
      exact h.only_target hS1 (h.bankRamReply_isSome hS1) (h.waySafe hSets hCurrent hWrite) way hHolds
  | false =>
    obtain ⟨hEntry, hHolds⟩ := SecondStage.hit_of_not_forwarded hHit hForwarded
    have hWord := hCurrent hHit
    rw [if_neg (ne_true_of_eq_false hForwarded)] at hWord
    refine ⟨(m.bank.secondStage q).matchWhich, ?_, ?_, fun _ => rfl, fun _ => hEntry.trans hWord⟩
    · rw [Holds, ← hWord]
      exact hHolds
    · rw [← hWord, hEntry]

theorem Current.miss (hSets : p.setWidth ≠ 1) (h : m.Current) (hS1 : m.bank.s1 = some q)
    (hMiss : (m.bank.secondStage q).hitV = false) (way : p.Way) :
    ¬ Holds CacheEntry.key (m.row q) (m.bank.secondStage q).tag way := by
  by_cases hOn : ∃ w, m.lastWrite = some w ∧ w.addr = setIndex q.packet.addr ∧ w.which = way
  · obtain ⟨w, hLast, hAddr, rfl⟩ := hOn
    intro hHolds
    rw [Holds, row, ← hAddr, h.written w hLast] at hHolds
    have hHit := SecondStage.hitV_of_forwarded (h.forwarded_of_lastWrite hSets hLast hAddr hHolds)
    rw [hMiss] at hHit
    cases hHit
  · exact h.absent_of_miss hS1 (h.bankRamReply_isSome hS1) hMiss way
      fun w hLast hAddr hWay => hOn ⟨w, hLast, hAddr, hWay⟩

theorem Current.next (hSets : p.setWidth ≠ 1) (h : m.Current) (hStall : m.bank.NoStall i)
    (hCurrent : ∀ q, m.bank.s1 = some q → (m.bank.secondStage q).performs = true →
      (m.bank.secondStage q).HitCurrent update m.lastWrite (m.row q)) :
    (m.next update i).Current where
  toUnique := h.toUnique.next (h.writeSafe update hSets hCurrent)
  arrived q hS1 := by
    rw [DataBank.s1_eq_some_iff] at hS1
    change (m.bank.next update i).s1FrontendRequestR.head? = some q at hS1
    rw [h.s1_next update hStall h.arrived] at hS1
    exact Option.isSome_of_eq_some (by simpa using hS1)
  inBank c hContext hFlush := by
    simp only [Watched.next] at hContext ⊢
    obtain ⟨q, hS1, hStage⟩ := Option.bind_eq_some_iff.mp hContext
    obtain ⟨hPerforms, hAddr, hFlushV, hData⟩ := SecondStage.performs_of_s2BankWritingN hStage
    have hAlone : (m.bank.secondStage q).request.FlushAlone := q.flushAlone
    rw [hFlush] at hFlushV
    rw [hAddr, hData]
    cases hWrite : (m.bank.secondStage q).bankRamWriteRequestO update with
    | none =>
      obtain ⟨hHit, _⟩ := SecondStage.unchanged_of_not_bankWrite hAlone hPerforms hWrite
      obtain ⟨way, hHolds, hEntry, _⟩ := h.hit update hSets hS1 (hCurrent q hS1 hPerforms) hHit
      have hNone : m.bank.bankRamWriteRequest update = none := (congrArg (Option.bind · _) hS1).trans hWrite
      rw [DataBank.mem_next_of_none hNone]
      exact ⟨way, hHolds, hEntry.trans (SecondStage.reply_of_not_bankWrite hAlone hPerforms hWrite).symm⟩
    | some w =>
      have hSome : m.bank.bankRamWriteRequest update = some w := (congrArg (Option.bind · _) hS1).trans hWrite
      have hSet := SecondStage.bankWrite_addr hAlone hWrite
      have hKey := SecondStage.bankWrite_key hAlone hWrite
      rw [← hFlushV, if_neg Bool.false_ne_true] at hKey
      rw [DataBank.mem_next_of_some hSome, ← hSet, applyTo_row]
      refine ⟨w.which, holds_update_self.mpr hKey, ?_⟩
      rw [Function.update_self]
      exact SecondStage.bankWrite_data hAlone hWrite hFlushV.symm

theorem Current.start : (start (DataBank.init : DataBank p core)).Current where
  toUnique := .start DataBank.init_allInvalid
  arrived q hS1 := by cases hS1
  inBank c hContext := by cases hContext

end Watched

end KnockoutKraken.Cache

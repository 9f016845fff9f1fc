import KnockoutKraken.Cache.BankHazard
import KnockoutKraken.Cache.BaseCache

/-!
# No address hits twice

A set keeps at most one valid entry of a tag as long as a request that
writes the bank holds its own word and, when the request before it wrote
the same block, writes the same way. The forwarding register has no way
index, so a forwarded hit may break the second rule.
-/

namespace KnockoutKraken.Cache

open Library Util

variable {p : DatabankParams} {core : LRUCore p.wayWidth} {update : UpdateFunction p}

/-- The request would write the way that the cycle before it gave to its block. -/
def SecondStage.WaySafe (x : SecondStage p) (last : Option (BankWriteRequest p)) : Prop :=
  ∀ w ∈ last, w.addr = setIndex x.request.addr → w.data.key = some x.tag → w.which = x.target

instance (x : SecondStage p) (last : Option (BankWriteRequest p)) : Decidable (x.WaySafe last) :=
  inferInstanceAs (Decidable (∀ w ∈ last, w.addr = setIndex x.request.addr → w.data.key = some x.tag →
    w.which = x.target))

def matchesIn (row : p.Way → CacheEntry p) (addr : p.Addr) (way : p.Way) : Bool :=
  (row way).checkHit addr && (row way).v

theorem matchesIn_iff (row : p.Way → CacheEntry p) (addr : p.Addr) (way : p.Way) :
    matchesIn row addr way = true ↔ Holds CacheEntry.key row (getTagFromAddress addr) way := by
  rw [matchesIn, Holds, CacheEntry.key_eq_some_iff, CacheEntry.checkHit, Bool.and_eq_true, beq_iff_eq, and_comm]

theorem popCount_matchesIn_le_one {row : p.Way → CacheEntry p} (h : UniqueKeys CacheEntry.key row) (addr : p.Addr) :
    popCount (matchesIn row addr) ≤ 1 := by
  rw [popCount_le_one_iff]
  intro i j hi hj
  exact h _ i j ((matchesIn_iff row addr i).mp hi) ((matchesIn_iff row addr j).mp hj)

namespace Watched

variable {m : Watched p core} {i : DataBank.Input p} {q : BankRequest p}

variable (update) in
/-- Every write of the bank holds its own word, and goes to the way its block was given last. -/
def WriteSafe (m : Watched p core) (_ : DataBank.Input p) : Prop :=
  ∀ q ∈ m.bank.s1, ((m.bank.secondStage q).bankRamWriteRequestO update).isSome = true →
    m.bank.bankRamReply.isSome = true ∧ (m.bank.secondStage q).WaySafe m.lastWrite

instance : Decidable (WriteSafe update m i) :=
  inferInstanceAs (Decidable (∀ q ∈ m.bank.s1, ((m.bank.secondStage q).bankRamWriteRequestO update).isSome = true →
    m.bank.bankRamReply.isSome = true ∧ (m.bank.secondStage q).WaySafe m.lastWrite))

structure Unique (m : Watched p core) : Prop extends m.Inv where
  rows : ∀ set, UniqueKeys CacheEntry.key (m.bank.bram.mem set)
  wordKeys : UniqueKeys CacheEntry.key m.bank.bram.ramDataA
  flushed : ∀ c, m.bank.s2BankWritingR = some c → c.flushV = true →
    ∀ way, ¬ Holds CacheEntry.key (m.bank.bram.mem (setIndex c.addr)) (getTagFromAddress c.addr) way

theorem Unique.stage_word (h : m.Unique) :
    UniqueKeys CacheEntry.key (m.bank.secondStage q).bankRamReply := by
  rw [DataBank.secondStage, h.bankRamReplyBits]
  exact h.wordKeys

theorem Unique.absent_of_miss (h : m.Unique) (hS1 : m.bank.s1 = some q)
    (hReply : m.bank.bankRamReply.isSome = true) (hMiss : (m.bank.secondStage q).hitV = false) (way : p.Way)
    (hOff : ∀ w, m.lastWrite = some w → w.addr = setIndex q.packet.addr → w.which ≠ way) :
    ¬ Holds CacheEntry.key (m.bank.bram.mem (setIndex q.packet.addr)) (m.bank.secondStage q).tag way := by
  rcases SecondStage.miss_cases (h.stage_word) hMiss with ⟨c, hFwd, hFlush⟩ | ⟨_, hNone⟩
  · obtain ⟨hContext, hAddr⟩ := (SecondStage.s2WritingMatched_eq_some_iff c).mp hFwd
    have hAbsent := h.flushed c hContext hFlush way
    rw [hAddr] at hAbsent
    exact hAbsent
  · intro hHolds
    refine hNone way ?_
    rw [Holds, h.shows hS1 hReply way hOff]
    exact hHolds

theorem Unique.only_target (h : m.Unique) (hS1 : m.bank.s1 = some q)
    (hReply : m.bank.bankRamReply.isSome = true) (hSafe : (m.bank.secondStage q).WaySafe m.lastWrite) (way : p.Way)
    (hHolds : Holds CacheEntry.key (m.bank.bram.mem (setIndex q.packet.addr)) (m.bank.secondStage q).tag way) :
    way = (m.bank.secondStage q).target := by
  by_cases hOn : ∃ w, m.lastWrite = some w ∧ w.addr = setIndex q.packet.addr ∧ w.which = way
  · obtain ⟨w, hLast, hAddr, rfl⟩ := hOn
    refine hSafe w hLast hAddr ?_
    rw [← h.written w hLast, hAddr]
    exact hHolds
  · have hOff : ∀ w, m.lastWrite = some w → w.addr = setIndex q.packet.addr → w.which ≠ way :=
      fun w hLast hAddr hWay => hOn ⟨w, hLast, hAddr, hWay⟩
    cases hHit : (m.bank.secondStage q).hitV with
    | false => exact absurd hHolds (h.absent_of_miss hS1 hReply hHit way hOff)
    | true =>
      have hWord : Holds CacheEntry.key (m.bank.secondStage q).bankRamReply (m.bank.secondStage q).tag way := by
        rw [Holds, h.shows hS1 hReply way hOff]
        exact hHolds
      rw [SecondStage.target, if_pos hHit, SecondStage.matchWhich_eq (h.stage_word) hWord]

theorem Unique.write (h : m.Unique) (hSafe : WriteSafe update m i) {w : BankWriteRequest p}
    (hWrite : m.bank.bankRamWriteRequest update = some w) :
    ∃ q, m.bank.s1 = some q ∧ w.addr = setIndex q.packet.addr ∧
      w.data.key = (if q.packet.flushV then none else some (m.bank.secondStage q).tag) ∧
      ∀ way, Holds CacheEntry.key (m.bank.bram.mem w.addr) (m.bank.secondStage q).tag way → way = w.which := by
  obtain ⟨q, hS1, hStage⟩ := DataBank.bankRamWriteRequest_eq_some hWrite
  have hAlone : (m.bank.secondStage q).request.FlushAlone := q.flushAlone
  obtain ⟨hReply, hWay⟩ := hSafe q hS1 (Option.isSome_of_eq_some hStage)
  have hAddr : w.addr = setIndex q.packet.addr := SecondStage.bankWrite_addr hAlone hStage
  refine ⟨q, hS1, hAddr, SecondStage.bankWrite_key hAlone hStage, fun way hHolds => ?_⟩
  rw [SecondStage.bankWrite_which hAlone hStage]
  rw [hAddr] at hHolds
  exact h.only_target hS1 hReply hWay way hHolds

theorem Unique.next (h : m.Unique) (hSafe : WriteSafe update m i) : (m.next update i).Unique where
  toInv := h.toInv.next
  rows set := by
    simp only [Watched.next]
    cases hWrite : m.bank.bankRamWriteRequest update with
    | none =>
      rw [DataBank.mem_next_of_none hWrite]
      exact h.rows set
    | some w =>
      obtain ⟨q, _, _, hKey, hOnly⟩ := h.write hSafe hWrite
      rw [DataBank.mem_next_of_some hWrite, BankWriteRequest.applyTo, Function.update_apply]
      by_cases hSet : set = w.addr
      · rw [if_pos hSet]
        refine (h.rows w.addr).update fun tag way hTag hHolds => hOnly way ?_
        cases hFlush : q.packet.flushV <;> rw [hKey, hFlush] at hTag
        · rw [if_neg (by decide), Option.some.injEq] at hTag
          rwa [hTag]
        · cases hTag
      · rw [if_neg hSet]
        exact h.rows set
  wordKeys := by
    simp only [Watched.next, DataBank.ramDataA_next]
    exact h.rows _
  flushed c hContext hFlush way := by
    simp only [Watched.next] at hContext ⊢
    obtain ⟨q, hS1, hStage⟩ := Option.bind_eq_some_iff.mp hContext
    obtain ⟨hPerforms, hAddr, hFlushV, _⟩ := SecondStage.performs_of_s2BankWritingN hStage
    have hAlone : (m.bank.secondStage q).request.FlushAlone := q.flushAlone
    rw [hFlush] at hFlushV
    have hHit : (m.bank.secondStage q).hitV = true := by
      rw [SecondStage.performs, SecondStage.fullWritingV_of_flush hAlone hFlushV.symm] at hPerforms
      simp only [Bool.and_eq_true, Bool.or_false] at hPerforms
      exact hPerforms.2
    have hWrite : m.bank.bankRamWriteRequest update = _ :=
      (congrArg (Option.bind · _) hS1).trans
        (SecondStage.bankWrite_of_flush update hAlone hFlushV.symm hHit)
    obtain ⟨q', hS1', _, _, hOnly⟩ := h.write hSafe hWrite
    rw [hS1, Option.some.injEq] at hS1'
    subst hS1'
    rw [DataBank.mem_next_of_some hWrite, hAddr, applyTo_row]
    exact not_holds_erase key_flushEntry hOnly way

/-- The second rule is needed: a write that breaks it leaves the block in two ways. -/
theorem Inv.twice_of_not_waySafe (h : m.Inv) (hS1 : m.bank.s1 = some q) {w : BankWriteRequest p}
    (hStage : (m.bank.secondStage q).bankRamWriteRequestO update = some w) (hFlush : q.packet.flushV = false)
    (hUnsafe : ¬ (m.bank.secondStage q).WaySafe m.lastWrite) :
    ¬ UniqueKeys CacheEntry.key ((m.next update i).bank.bram.mem (setIndex q.packet.addr)) := by
  intro hUnique
  apply hUnsafe
  intro w' hLast hAddr hKey
  by_contra hWays
  have hAlone : (m.bank.secondStage q).request.FlushAlone := q.flushAlone
  have hKeyNew := SecondStage.bankWrite_key hAlone hStage
  have hWhich := SecondStage.bankWrite_which hAlone hStage
  have hSet : setIndex q.packet.addr = w.addr := (SecondStage.bankWrite_addr hAlone hStage).symm
  have hWrite : m.bank.bankRamWriteRequest update = some w := (congrArg (Option.bind · _) hS1).trans hStage
  simp only [Watched.next, DataBank.mem_next_of_some hWrite, hSet, applyTo_row] at hUnique
  have hNew : Holds CacheEntry.key (Function.update (m.bank.bram.mem w.addr) w.which w.data)
      (m.bank.secondStage q).tag w.which := by
    rw [holds_update_self, hKeyNew]
    exact if_neg (ne_true_of_eq_false hFlush)
  have hOld : Holds CacheEntry.key (Function.update (m.bank.bram.mem w.addr) w.which w.data)
      (m.bank.secondStage q).tag w'.which := by
    have hAddr' : w'.addr = w.addr := hAddr.trans hSet
    rw [holds_update_of_ne (hWhich ▸ hWays), Holds, ← hAddr', h.written w' hLast]
    exact hKey
  exact hWays ((hUnique _ _ _ hOld hNew).trans hWhich)

end Watched

/-- An idle bank without a valid entry, whatever its tags, blocks and replacement bits are. -/
structure DataBank.AllInvalid (s : DataBank p core) : Prop where
  s1 : s.s1FrontendRequestR = []
  replyQ : s.bankRamReplyQ = []
  readReply : s.readReplyValid = false
  context : s.s2BankWritingR = none
  rows : ∀ set way, (s.bram.mem set way).v = false
  word : ∀ way, (s.bram.ramDataA way).v = false

theorem DataBank.init_allInvalid : (init : DataBank p core).AllInvalid :=
  ⟨rfl, rfl, rfl, rfl, fun _ _ => rfl, fun _ => rfl⟩

theorem uniqueKeys_of_invalid {row : p.Way → CacheEntry p} (h : ∀ way, (row way).v = false) :
    UniqueKeys CacheEntry.key row := by
  intro tag i j hi _
  obtain ⟨hV, _⟩ := (CacheEntry.key_eq_some_iff _ _).mp hi
  rw [h i] at hV
  cases hV

theorem Watched.Unique.start {s : DataBank p core} (h : s.AllInvalid) : (start s).Unique where
  toInv := .start ⟨by simp [h.s1], h.replyQ, fun hValid => by simp [h.readReply] at hValid⟩ h.readReply
  rows set := uniqueKeys_of_invalid (h.rows set)
  wordKeys := uniqueKeys_of_invalid h.word
  flushed c hContext := by
    rw [Watched.start, h.context] at hContext
    cases hContext

/-- No address matches twice in any set, and the bits the second stage counts are at most one. -/
theorem hit_at_most_one {s : DataBank p core} (h : s.AllInvalid) {is : List (DataBank.Input p)}
    (hSafe : (Watched.machine update).Along (Watched.WriteSafe update) (.start s) is) :
    (∀ set addr, popCount (matchesIn (((DataBank.machine update).run s is).bram.mem set) addr) ≤ 1) ∧
    ∀ q, popCount (((DataBank.machine update).run s is).secondStage q).matchBits ≤ 1 := by
  have hUnique : ((Watched.machine update).run (.start s) is).Unique :=
    hSafe.invariant (.start h) fun _ _ hUnique hRule => hUnique.next hRule
  have hBank := Watched.run_bank update (.start s) is
  rw [Watched.start] at hBank
  rw [← hBank]
  refine ⟨fun set addr => popCount_matchesIn_le_one (hUnique.rows set) addr, fun q => ?_⟩
  exact (popCount_le_one_iff _).mpr (SecondStage.atMostOne_matchBits (hUnique.stage_word))

section TwoWays

abbrev twoWays : DatabankParams := ⟨0, 1, 16, 2, 0, 0, by decide⟩

def offerWrite (addr : BitVec 2) (wData wMask : BitVec 16) : DataBank.Input twoWays :=
  ⟨.access addr 0 0 0 wData wMask, true, true, true⟩

def noOffer : DataBank.Input twoWays := ⟨.flush 0 0, false, true, true⟩

/-- A block is written whole and then in part, by consecutive requests, after another
block took the first way: it ends up in both ways. -/
theorem hit_twice :
    let t := (DataBank.machine (cacheUpdateFunction twoWays)).run
      (DataBank.init : DataBank twoWays (PseudoTreeLRUCore 1))
      [offerWrite 0 1 0xffff#16, noOffer, offerWrite 1 2 0xffff#16, offerWrite 1 3 0x00ff#16, noOffer]
    popCount (matchesIn (t.bram.mem 0) 1) = 2 := by
  decide +kernel

theorem hit_at_most_one_of_gaps :
    let is := [offerWrite 0 1 0xffff#16, noOffer, offerWrite 1 2 0xffff#16, noOffer, offerWrite 1 3 0x00ff#16, noOffer]
    let t := (DataBank.machine (cacheUpdateFunction twoWays)).run
      (DataBank.init : DataBank twoWays (PseudoTreeLRUCore 1)) is
    (∀ set addr, popCount (matchesIn (t.bram.mem set) addr) ≤ 1) ∧ ∀ q, popCount (t.secondStage q).matchBits ≤ 1 :=
  hit_at_most_one DataBank.init_allInvalid (by decide +kernel)

end TwoWays

end KnockoutKraken.Cache

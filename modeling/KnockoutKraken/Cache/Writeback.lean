import KnockoutKraken.Cache.FreshWay

/-!
# Writebacks

The dirty blocks that leave the bank are the ones written back, with the
data the bank last held for them, as long as a request sees the way it
uses. Three cases are lost: a full-mask write that misses replaces a dirty
victim without a writeback, a flush directly behind the refill of its own
block always counts as dirty, and with two sets an address loses a bit.
-/

namespace KnockoutKraken.Cache

open Library Util

variable {p : DatabankParams} {core : LRUCore p.wayWidth} {update : UpdateFunction p}

def InBank (mem : p.SetIndex → p.Way → CacheEntry p) (addr : p.Addr) (way : p.Way) : Prop :=
  Holds CacheEntry.key (mem (setIndex addr)) (getTagFromAddress addr) way

instance (addr : p.Addr) (way : p.Way) (mem : p.SetIndex → p.Way → CacheEntry p) : Decidable (InBank mem addr way) :=
  inferInstanceAs (Decidable (Holds CacheEntry.key (mem (setIndex addr)) (getTagFromAddress addr) way))

def DirtyRemoved (mem mem' : p.SetIndex → p.Way → CacheEntry p) (addr : p.Addr) (data : p.Block) : Prop :=
  (∃ way, InBank mem addr way ∧ (mem (setIndex addr) way).d = true ∧ (mem (setIndex addr) way).data = data) ∧
    ∀ way, ¬ InBank mem' addr way

variable {mem : p.SetIndex → p.Way → CacheEntry p} {addr : p.Addr} {data : p.Block}

theorem not_dirtyRemoved_self : ¬ DirtyRemoved mem mem addr data := by
  rintro ⟨⟨way, hIn, _⟩, hNone⟩
  exact hNone way hIn

theorem inBank_applyTo_of_ne {w : BankWriteRequest p} {way : p.Way} (h : setIndex addr = w.addr → way ≠ w.which) :
    InBank (w.applyTo mem) addr way ↔ InBank mem addr way := by
  rw [InBank, InBank, Holds, Holds, applyTo_of_ne h]

theorem inBank_applyTo_self {w : BankWriteRequest p} (hSet : setIndex addr = w.addr) :
    InBank (w.applyTo mem) addr w.which ↔ w.data.key = some (getTagFromAddress addr) := by
  rw [InBank, Holds, hSet, applyTo_self]

/-- A write removes at most the block it overwrites, and only when it brings in another one. -/
theorem dirtyRemoved_applyTo {w : BankWriteRequest p} (hRows : UniqueKeys CacheEntry.key (mem w.addr)) :
    DirtyRemoved mem (w.applyTo mem) addr data ↔
      setIndex addr = w.addr ∧ Holds CacheEntry.key (mem w.addr) (getTagFromAddress addr) w.which ∧
        (mem w.addr w.which).d = true ∧ (mem w.addr w.which).data = data ∧
        w.data.key ≠ some (getTagFromAddress addr) := by
  constructor
  · rintro ⟨⟨way, hIn, hDirty, hData⟩, hNone⟩
    have hPlace : setIndex addr = w.addr ∧ way = w.which := by
      by_contra hOff
      exact hNone way ((inBank_applyTo_of_ne fun hSet hWay => hOff ⟨hSet, hWay⟩).mpr hIn)
    obtain ⟨hSet, rfl⟩ := hPlace
    have hGone := hNone w.which
    rw [inBank_applyTo_self hSet] at hGone
    rw [InBank, hSet] at hIn
    rw [hSet] at hDirty hData
    exact ⟨hSet, hIn, hDirty, hData, hGone⟩
  · rintro ⟨hSet, hHolds, hDirty, hData, hKey⟩
    have hIn : InBank mem addr w.which := by rwa [InBank, hSet]
    rw [← hSet] at hDirty hData
    refine ⟨⟨w.which, hIn, hDirty, hData⟩, fun way hWay => ?_⟩
    by_cases hWhich : way = w.which
    · subst hWhich
      exact hKey ((inBank_applyTo_self hSet).mp hWay)
    · rw [inBank_applyTo_of_ne fun _ => hWhich, InBank, hSet] at hWay
      exact hWhich (hRows _ way w.which hWay hHolds)

namespace SecondStage

variable {x : SecondStage p}

theorem evictionWbReq_of_refill (hSets : p.setWidth ≠ 1) (hMiss : x.hitV = false) (hRefill : x.request.refillV = true) :
    x.evictionWbReq = if x.replacedEntry.d then
      some ⟨x.replacedEntry.tag ++ setIndex x.request.addr, x.replacedEntry.data, false⟩ else none := by
  have hAddr : (if 1 < p.setWidth then x.replacedEntry.address (setIndex x.request.addr)
      else x.replacedEntry.tag.setWidth _) = x.replacedEntry.tag ++ setIndex x.request.addr := by
    by_cases hSet : 1 < p.setWidth
    · rw [if_pos hSet, CacheEntry.address]
    · rw [if_neg hSet]
      have hZero : p.setWidth = 0 := by omega
      apply BitVec.eq_of_getLsbD_eq
      intro bit hBit
      rw [BitVec.getLsbD_setWidth, BitVec.getLsbD_append, if_neg (by omega), decide_eq_true hBit, hZero,
        Nat.sub_zero, Bool.true_and]
  rw [evictionWbReq, hAddr]
  simp [hMiss, hRefill, CacheEntry.read]

theorem evictionWbReq_of_hit (h : x.hitV = true) : x.evictionWbReq = none := by
  simp [evictionWbReq, h]

theorem evictionWbReq_of_not_refill (h : x.request.refillV = false) : x.evictionWbReq = none := by
  simp [evictionWbReq, h]

theorem flushWbReq_of_not_flush (h : x.request.flushV = false) : x.flushWbReq = none := by
  simp [flushWbReq, h]

theorem flushWbReq_of_hit (hHit : x.hitV = true) (hFlush : x.request.flushV = true) :
    x.flushWbReq = if x.hitEntry.d then some ⟨x.request.addr, x.hitEntry.data, true⟩ else none := by
  simp [flushWbReq, hHit, hFlush, CacheEntry.read]

theorem writebackRequest_of_not_bankWrite (hAlone : x.request.FlushAlone)
    (h : x.bankRamWriteRequestO update = none) : x.writebackRequest = none := by
  have hRefill : x.request.refillV = false := by
    cases hRefill : x.request.refillV with
    | false => rfl
    | true =>
      have hFull : x.fullWritingV = true := by simp [fullWritingV, hRefill]
      simp [bankRamWriteRequestO, fullWritingRequest, hFull] at h
  rw [writebackRequest, evictionWbReq_of_not_refill hRefill, Option.none_or]
  cases hFlush : x.request.flushV with
  | false => exact flushWbReq_of_not_flush hFlush
  | true =>
    cases hHit : x.hitV with
    | false => simp [flushWbReq, hHit]
    | true =>
      rw [bankWrite_of_flush update hAlone hFlush hHit] at h
      cases h

end SecondStage

namespace Watched

variable {m : Watched p core} {i : DataBank.Input p} {q : BankRequest p}

/-- A full-mask write that misses replaces a clean entry. -/
def CleanVictim (m : Watched p core) (q : BankRequest p) : Prop :=
  (m.bank.secondStage q).hitV = false → q.packet.refillV = false →
    (m.row q (m.bank.secondStage q).target).d = false

instance : Decidable (CleanVictim m q) :=
  inferInstanceAs (Decidable ((m.bank.secondStage q).hitV = false → q.packet.refillV = false →
    (m.row q (m.bank.secondStage q).target).d = false))

/-- Besides seeing the way it uses, a request that performs has a clean victim unless it is
a refill, and a flush whose hit is forwarded flushes a dirty entry. -/
def WritebackSafe (m : Watched p core) (i : DataBank.Input p) : Prop :=
  FreshWrites m i ∧ ∀ q ∈ m.bank.s1, (m.bank.secondStage q).performs = true → CleanVictim m q ∧
    ((m.bank.secondStage q).forwarded = true → q.packet.flushV = true →
      (m.row q (m.bank.secondStage q).target).d = true)

instance : Decidable (WritebackSafe m i) :=
  inferInstanceAs (Decidable (FreshWrites m i ∧ ∀ q ∈ m.bank.s1, (m.bank.secondStage q).performs = true →
    CleanVictim m q ∧ ((m.bank.secondStage q).forwarded = true → q.packet.flushV = true →
      (m.row q (m.bank.secondStage q).target).d = true)))

variable (update) in
/-- The writeback queue takes in one writeback for the dirty block that leaves the bank, and none otherwise. -/
def WritebackExact (m : Watched p core) (i : DataBank.Input p) : Prop :=
  (m.bank.next update i).s2WritebackRequestR = (m.bank.writebackN i).toList ∧
    ∀ addr data, DirtyRemoved m.bank.bram.mem (m.bank.next update i).bram.mem addr data ↔
      ∃ wb, m.bank.writebackN i = some wb ∧ wb.addr = addr ∧ wb.data = data

theorem Fresh.writebackN (h : m.Fresh) (hReady : i.missReady = true ∧ i.writebackReady = true) :
    m.bank.writebackN i = m.bank.s1.bind fun q => (m.bank.secondStage q).writebackRequest := by
  rw [DataBank.writebackN, DataBank.s1Fire, if_pos (h.pipelineStateReady1 hReady)]

theorem eq_of_parts (hSets : p.setWidth ≠ 1) {tag : p.Tag} {set : p.SetIndex} (hSet : setIndex addr = set)
    (hTag : getTagFromAddress addr = tag) : tag ++ set = addr := by
  rw [← hSet, ← hTag, tag_append_setIndex hSets]

theorem flushV_of_bankWrite_miss {w : BankWriteRequest p}
    (hStage : (m.bank.secondStage q).bankRamWriteRequestO update = some w)
    (hMiss : (m.bank.secondStage q).hitV = false) : q.packet.flushV = false := by
  have hAlone : (m.bank.secondStage q).request.FlushAlone := q.flushAlone
  rcases SecondStage.bankWrite_cases hAlone hStage with ⟨_, hHit, _⟩ | ⟨hFlush, _⟩ | ⟨hFlush, _⟩
  · rw [hMiss] at hHit
    cases hHit
  · exact hFlush
  · exact hFlush

theorem Fresh.written_back (hSets : p.setWidth ≠ 1) (h : m.Fresh) (hS1 : m.bank.s1 = some q)
    (hFresh : (m.bank.secondStage q).WayFresh m.lastWrite (m.row q)) (hVictim : CleanVictim m q)
    {w : BankWriteRequest p} (hStage : (m.bank.secondStage q).bankRamWriteRequestO update = some w)
    (hRemoved : DirtyRemoved m.bank.bram.mem (w.applyTo m.bank.bram.mem) addr data) :
    ∃ wb, (m.bank.secondStage q).writebackRequest = some wb ∧ wb.addr = addr ∧ wb.data = data := by
  have hAlone : (m.bank.secondStage q).request.FlushAlone := q.flushAlone
  have hAddr : w.addr = setIndex q.packet.addr := SecondStage.bankWrite_addr hAlone hStage
  have hKey := SecondStage.bankWrite_key hAlone hStage
  rw [dirtyRemoved_applyTo (h.rows w.addr), hAddr, SecondStage.bankWrite_which hAlone hStage, hKey] at hRemoved
  obtain ⟨hSet, hHolds, hDirty, hData, hNe⟩ := hRemoved
  change Holds CacheEntry.key (m.row q) _ _ at hHolds
  change (m.row q _).d = true at hDirty
  change (m.row q _).data = data at hData
  obtain ⟨_, hTag⟩ := (CacheEntry.key_eq_some_iff _ _).mp hHolds
  cases hHit : (m.bank.secondStage q).hitV with
  | true =>
    obtain ⟨hHolds', hData', hEntry⟩ := h.hit hSets hS1 hFresh hHit
    have hTags : getTagFromAddress addr = (m.bank.secondStage q).tag := Option.some.inj (hHolds.symm.trans hHolds')
    have hFlush : q.packet.flushV = true := by
      by_contra hNot
      exact hNe (by rw [DataBank.secondStage_request, if_neg hNot, hTags])
    have hHitDirty : (m.bank.secondStage q).hitEntry.d = true := by
      cases hForwarded : (m.bank.secondStage q).forwarded with
      | false => rwa [hEntry hForwarded]
      | true =>
        obtain ⟨c, hFwd, _⟩ := SecondStage.forwarded_iff.mp hForwarded
        rw [SecondStage.hitEntry_of_forwarded hFwd]
        rfl
    rw [SecondStage.writebackRequest, SecondStage.evictionWbReq_of_hit hHit, Option.none_or,
      SecondStage.flushWbReq_of_hit hHit hFlush, if_pos hHitDirty]
    exact ⟨_, rfl, ((addr_eq_iff hSets _ _).mpr ⟨hTags, hSet⟩).symm, hData'.symm.trans hData⟩
  | false =>
    obtain ⟨_, hReplaced⟩ := h.miss hSets hS1 hFresh hHit
    cases hRefill : q.packet.refillV with
    | false =>
      rw [hVictim hHit hRefill] at hDirty
      cases hDirty
    | true =>
      rw [SecondStage.writebackRequest, SecondStage.evictionWbReq_of_refill hSets hHit hRefill, hReplaced,
        if_pos hDirty]
      exact ⟨_, rfl, eq_of_parts hSets hSet hTag.symm, hData⟩

theorem Fresh.removed_of_written_back (hSets : p.setWidth ≠ 1) (h : m.Fresh) (hS1 : m.bank.s1 = some q)
    (hFresh : (m.bank.secondStage q).WayFresh m.lastWrite (m.row q))
    {w : BankWriteRequest p} (hStage : (m.bank.secondStage q).bankRamWriteRequestO update = some w)
    {wb : WriteBackRequest p} (hWb : (m.bank.secondStage q).writebackRequest = some wb) :
    setIndex wb.addr = w.addr ∧
      Holds CacheEntry.key (m.bank.bram.mem w.addr) (getTagFromAddress wb.addr) w.which ∧
      (m.bank.bram.mem w.addr w.which).data = wb.data ∧ w.data.key ≠ some (getTagFromAddress wb.addr) ∧
      ((m.bank.bram.mem w.addr w.which).d = true ∨
        (m.bank.secondStage q).forwarded = true ∧ q.packet.flushV = true) := by
  have hAlone : (m.bank.secondStage q).request.FlushAlone := q.flushAlone
  have hAddr : w.addr = setIndex q.packet.addr := SecondStage.bankWrite_addr hAlone hStage
  rw [hAddr, SecondStage.bankWrite_which hAlone hStage, SecondStage.bankWrite_key hAlone hStage]
  change _ ∧ Holds CacheEntry.key (m.row q) _ _ ∧ (m.row q _).data = _ ∧ _ ∧ ((m.row q _).d = true ∨ _)
  cases hHit : (m.bank.secondStage q).hitV with
  | true =>
    obtain ⟨hHolds, hData, hEntry⟩ := h.hit hSets hS1 hFresh hHit
    rw [SecondStage.writebackRequest, SecondStage.evictionWbReq_of_hit hHit, Option.none_or] at hWb
    cases hFlush : q.packet.flushV with
    | false =>
      rw [SecondStage.flushWbReq_of_not_flush hFlush] at hWb
      cases hWb
    | true =>
      rw [SecondStage.flushWbReq_of_hit hHit hFlush, Option.ite_none_right_eq_some, Option.some.injEq] at hWb
      obtain ⟨hDirty, rfl⟩ := hWb
      rw [DataBank.secondStage_request, hFlush, if_pos rfl]
      refine ⟨rfl, hHolds, hData, (fun hNone => by cases hNone), ?_⟩
      cases hForwarded : (m.bank.secondStage q).forwarded with
      | true => exact .inr ⟨rfl, rfl⟩
      | false => exact .inl (by rwa [← hEntry hForwarded])
  | false =>
    obtain ⟨hAbsent, hReplaced⟩ := h.miss hSets hS1 hFresh hHit
    have hFlush := flushV_of_bankWrite_miss hStage hHit
    rw [SecondStage.writebackRequest, SecondStage.flushWbReq_of_not_flush hFlush, Option.or_none] at hWb
    cases hRefill : q.packet.refillV with
    | false =>
      rw [SecondStage.evictionWbReq_of_not_refill hRefill] at hWb
      cases hWb
    | true =>
      rw [SecondStage.evictionWbReq_of_refill hSets hHit hRefill, hReplaced, Option.ite_none_right_eq_some,
        Option.some.injEq] at hWb
      obtain ⟨hDirty, rfl⟩ := hWb
      have hHolds : Holds CacheEntry.key (m.row q) (m.row q (m.bank.secondStage q).target).tag
          (m.bank.secondStage q).target :=
        (CacheEntry.key_eq_some_iff _ _).mpr ⟨h.valid _ _ hDirty, rfl⟩
      rw [setIndex_append hSets, getTagFromAddress_append, DataBank.secondStage_request, hFlush,
        if_neg Bool.false_ne_true]
      refine ⟨rfl, hHolds, rfl, fun hTag => hAbsent (m.bank.secondStage q).target ?_, .inl hDirty⟩
      rw [Option.some.inj hTag]
      exact hHolds

theorem Fresh.writeback_of_bankWrite (hSets : p.setWidth ≠ 1) (h : m.Fresh) (hRule : WritebackSafe m i)
    (hS1 : m.bank.s1 = some q) {w : BankWriteRequest p}
    (hStage : (m.bank.secondStage q).bankRamWriteRequestO update = some w) (addr : p.Addr) (data : p.Block) :
    DirtyRemoved m.bank.bram.mem (w.applyTo m.bank.bram.mem) addr data ↔
      ∃ wb, (m.bank.secondStage q).writebackRequest = some wb ∧ wb.addr = addr ∧ wb.data = data := by
  have hAlone : (m.bank.secondStage q).request.FlushAlone := q.flushAlone
  have hPerforms := SecondStage.performs_of_bankWrite hStage
  have hFresh := hRule.1.2.2 q hS1 hPerforms
  obtain ⟨hVictim, hFlushed⟩ := hRule.2 q hS1 hPerforms
  constructor
  · exact h.written_back hSets hS1 hFresh hVictim hStage
  · rintro ⟨wb, hWb, rfl, rfl⟩
    obtain ⟨hSet, hHolds, hData, hKey, hDirty⟩ := h.removed_of_written_back hSets hS1 hFresh hStage hWb
    refine (dirtyRemoved_applyTo (h.rows w.addr)).mpr ⟨hSet, hHolds, ?_, hData, hKey⟩
    rcases hDirty with hDirty | ⟨hForwarded, hFlush⟩
    · exact hDirty
    · rw [SecondStage.bankWrite_addr hAlone hStage, SecondStage.bankWrite_which hAlone hStage]
      exact hFlushed hForwarded hFlush

theorem Fresh.writebackExact (hSets : p.setWidth ≠ 1) (h : m.Fresh) (hRule : WritebackSafe m i) :
    WritebackExact update m i := by
  constructor
  · change DataBank.s2Queue.next _ _ _ = _
    rw [hRule.1.2.1]
    exact FlushQueue.next_of_deqReady rfl h.writebackQ _ rfl
  · intro addr data
    rw [h.writebackN ⟨hRule.1.1, hRule.1.2.1⟩]
    cases hS1 : m.bank.s1 with
    | none =>
      have hWrite : m.bank.bankRamWriteRequest update = none := by rw [DataBank.bankRamWriteRequest, hS1, Option.bind_none]
      rw [DataBank.mem_next_of_none hWrite]
      simp [not_dirtyRemoved_self]
    | some q =>
      rw [Option.bind_some]
      cases hStage : (m.bank.secondStage q).bankRamWriteRequestO update with
      | none =>
        have hWrite : m.bank.bankRamWriteRequest update = none := (congrArg (Option.bind · _) hS1).trans hStage
        rw [DataBank.mem_next_of_none hWrite, SecondStage.writebackRequest_of_not_bankWrite q.flushAlone hStage]
        simp [not_dirtyRemoved_self]
      | some w =>
        have hWrite : m.bank.bankRamWriteRequest update = some w := (congrArg (Option.bind · _) hS1).trans hStage
        rw [DataBank.mem_next_of_some hWrite]
        exact h.writeback_of_bankWrite hSets hRule hS1 hStage addr data

end Watched

/-- Along a run with the back end ready, every cycle writes back exactly the dirty block it removes. -/
theorem writeback_exact (hSets : p.setWidth ≠ 1) {is : List (DataBank.Input p)}
    (hSafe : (Watched.machine update).Along Watched.WritebackSafe
      (.start (DataBank.init : DataBank p core)) is) :
    (Watched.machine update).Along (Watched.WritebackExact update) (.start (DataBank.init : DataBank p core)) is := by
  have hStart : (Watched.start (DataBank.init : DataBank p core)).Fresh := .start
  refine hSafe.of_invariant hStart ?_ ?_
  · intro m i hFresh hRule
    exact hFresh.next hSets hRule.1
  · intro m i hFresh hRule
    exact hFresh.writebackExact hSets hRule

section TwoWays

/-- Three whole blocks are written into a set of two ways: the third takes the place of
the first, which was dirty, and nothing is written back. -/
theorem dirty_block_lost :
    let m := (Watched.machine (cacheUpdateFunction twoWays)).run
      (.start (DataBank.init : DataBank twoWays (PseudoTreeLRUCore 1)))
      [offerWrite 0 1 0xffff#16, noOffer, offerWrite 1 2 0xffff#16, noOffer, offerWrite 2 3 0xffff#16]
    ¬ m.WritebackExact (cacheUpdateFunction twoWays) noOffer := by
  intro m hExact
  have hNone : m.bank.writebackN noOffer = none := by decide +kernel
  have hRemoved := (hExact.2 0 1).mp ⟨⟨0, by decide +kernel⟩, by decide +kernel⟩
  rw [hNone] at hRemoved
  obtain ⟨wb, hWb, _⟩ := hRemoved
  cases hWb

theorem writeback_exact_of_refill :
    (Watched.machine (cacheUpdateFunction twoWays)).Along (Watched.WritebackExact (cacheUpdateFunction twoWays))
      (.start (DataBank.init : DataBank twoWays (PseudoTreeLRUCore 1)))
      [offerWrite 0 1 0xffff#16, noOffer, offerWrite 1 2 0xffff#16, noOffer,
        ⟨.refill 2 0 0 0 0 7, true, true, true⟩, noOffer, noOffer] :=
  writeback_exact (by decide) (by decide +kernel)

end TwoWays

end KnockoutKraken.Cache

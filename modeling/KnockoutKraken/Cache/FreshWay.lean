import KnockoutKraken.Cache.CurrentEntry

/-!
# Requests that see the way they use

With the back end always ready no request waits: its word arrives in the
cycle after it was accepted. A request that performs sees the way it uses
when the word shows the current entry of that way, or when its hit is
forwarded and the entry was last written in that way. Then a hit is on
the entry the bank holds, and a miss finds its block nowhere.
-/

namespace KnockoutKraken.Cache

open Library Util

variable {p : DatabankParams} {core : LRUCore p.wayWidth} {update : UpdateFunction p}

namespace SecondStage

def WayFresh (x : SecondStage p) (last : Option (BankWriteRequest p)) (row : p.Way → CacheEntry p) : Prop :=
  if x.forwarded = true then ∀ w ∈ last, w.which = x.matchWhich else x.bankRamReply x.target = row x.target

instance (x : SecondStage p) (last : Option (BankWriteRequest p)) (row : p.Way → CacheEntry p) :
    Decidable (x.WayFresh last row) :=
  inferInstanceAs (Decidable (if x.forwarded = true then ∀ w ∈ last, w.which = x.matchWhich
    else x.bankRamReply x.target = row x.target))

variable {x : SecondStage p}

theorem bankWrite_valid (hAlone : x.request.FlushAlone) {w : BankWriteRequest p}
    (h : x.bankRamWriteRequestO update = some w) (hDirty : w.data.d = true) : w.data.v = true := by
  have hKey := bankWrite_key hAlone h
  cases hFlush : x.request.flushV with
  | true =>
    have hHit : x.hitV = true := by
      rcases bankWrite_cases hAlone h with ⟨_, hHit, _⟩ | ⟨hNot, _⟩ | ⟨hNot, _⟩
      · exact hHit
      · rw [hFlush] at hNot
        cases hNot
      · rw [hFlush] at hNot
        cases hNot
    rw [bankWrite_of_flush update hAlone hFlush hHit, Option.some.injEq] at h
    subst h
    cases hDirty
  | false =>
    rw [hFlush, if_neg Bool.false_ne_true] at hKey
    exact ((CacheEntry.key_eq_some_iff _ _).mp hKey).1

end SecondStage

namespace Watched

variable {m : Watched p core} {i : DataBank.Input p} {q : BankRequest p}

/-- The back end takes everything, and a request that performs sees the way it uses. -/
def FreshWrites (m : Watched p core) (i : DataBank.Input p) : Prop :=
  i.missReady = true ∧ i.writebackReady = true ∧
    ∀ q ∈ m.bank.s1, (m.bank.secondStage q).performs = true →
      (m.bank.secondStage q).WayFresh m.lastWrite (m.row q)

instance : Decidable (FreshWrites m i) :=
  inferInstanceAs (Decidable (i.missReady = true ∧ i.writebackReady = true ∧
    ∀ q ∈ m.bank.s1, (m.bank.secondStage q).performs = true →
      (m.bank.secondStage q).WayFresh m.lastWrite (m.row q)))

structure Fresh (m : Watched p core) : Prop extends m.Unique where
  missQ : m.bank.s2MissRequestR.length ≤ 1
  writebackQ : m.bank.s2WritebackRequestR.length ≤ 1
  arrived : ∀ q, m.bank.s1 = some q → m.bank.readReplyValid = true
  valid : ∀ set way, (m.bank.bram.mem set way).d = true → (m.bank.bram.mem set way).v = true
  inBank : ∀ c, m.bank.s2BankWritingR = some c → c.flushV = false → ∃ way,
    Holds CacheEntry.key (m.bank.bram.mem (setIndex c.addr)) (getTagFromAddress c.addr) way ∧
      (m.bank.bram.mem (setIndex c.addr) way).data = c.dataBlock

theorem Fresh.pipelineStateReady1 (h : m.Fresh) (hReady : i.missReady = true ∧ i.writebackReady = true) :
    m.bank.pipelineStateReady1 i = true := by
  have hArrived : (m.bank.bankRamReply.isSome == m.bank.s1.isSome) = true := by
    rw [h.bankRamReply, beq_iff_eq]
    cases hS1 : m.bank.s1 with
    | some q => exact h.arrived q hS1
    | none =>
      cases hValid : m.bank.readReplyValid with
      | false => rfl
      | true =>
        have hSome := h.s1_isSome hValid
        rw [hS1] at hSome
        cases hSome
  simp [DataBank.pipelineStateReady1, hArrived, hReady.1, hReady.2, FlushQueue.enqReady, DataBank.s2Queue]

theorem Fresh.current (h : m.Fresh) : m.Current where
  toUnique := h.toUnique
  arrived := h.arrived
  inBank := h.inBank

theorem hitCurrent_of_wayFresh (hFresh : (m.bank.secondStage q).WayFresh m.lastWrite (m.row q)) :
    (m.bank.secondStage q).HitCurrent update m.lastWrite (m.row q) := by
  intro hHit
  rw [SecondStage.WayFresh, SecondStage.target_of_hit hHit] at hFresh
  cases hForwarded : (m.bank.secondStage q).forwarded with
  | true =>
    rw [hForwarded, if_pos rfl] at hFresh
    exact fun _ => hFresh
  | false =>
    rw [hForwarded, if_neg Bool.false_ne_true] at hFresh
    exact hFresh

theorem Fresh.waySafe (hSets : p.setWidth ≠ 1) (h : m.Fresh)
    (hFresh : (m.bank.secondStage q).WayFresh m.lastWrite (m.row q)) :
    (m.bank.secondStage q).WaySafe m.lastWrite := by
  intro w hLast hAddr hKey
  have hForwarded := h.current.forwarded_of_lastWrite hSets hLast hAddr hKey
  rw [SecondStage.WayFresh, if_pos hForwarded] at hFresh
  rw [SecondStage.target_of_hit (SecondStage.hitV_of_forwarded hForwarded)]
  exact hFresh w hLast

theorem Fresh.hit (hSets : p.setWidth ≠ 1) (h : m.Fresh) (hS1 : m.bank.s1 = some q)
    (hFresh : (m.bank.secondStage q).WayFresh m.lastWrite (m.row q)) (hHit : (m.bank.secondStage q).hitV = true) :
    Holds CacheEntry.key (m.row q) (m.bank.secondStage q).tag (m.bank.secondStage q).target ∧
      (m.row q (m.bank.secondStage q).target).data = (m.bank.secondStage q).hitEntry.data ∧
      ((m.bank.secondStage q).forwarded = false →
        (m.bank.secondStage q).hitEntry = m.row q (m.bank.secondStage q).target) := by
  obtain ⟨way, hHolds, hData, _, hEntry⟩ :=
    h.current.hit (cacheUpdateFunction p) hSets hS1 (hitCurrent_of_wayFresh hFresh) hHit
  have hWay := h.only_target hS1 (h.current.bankRamReply_isSome hS1) (h.waySafe hSets hFresh) way hHolds
  subst hWay
  exact ⟨hHolds, hData, hEntry⟩

/-- A miss finds its block in no way of the set, and its word shows the way it would replace. -/
theorem Fresh.miss (hSets : p.setWidth ≠ 1) (h : m.Fresh) (hS1 : m.bank.s1 = some q)
    (hFresh : (m.bank.secondStage q).WayFresh m.lastWrite (m.row q)) (hMiss : (m.bank.secondStage q).hitV = false) :
    (∀ way, ¬ Holds CacheEntry.key (m.row q) (m.bank.secondStage q).tag way) ∧
      (m.bank.secondStage q).replacedEntry = m.row q (m.bank.secondStage q).target := by
  have hNot : ¬ (m.bank.secondStage q).forwarded = true := by
    intro hForwarded
    rw [SecondStage.hitV_of_forwarded hForwarded] at hMiss
    cases hMiss
  rw [SecondStage.WayFresh, if_neg hNot] at hFresh
  refine ⟨h.current.miss hSets hS1 hMiss, ?_⟩
  rw [← hFresh, SecondStage.target_of_miss hMiss]
  rfl

theorem Fresh.s1_next (h : m.Fresh) (hReady : i.missReady = true ∧ i.writebackReady = true) :
    (m.next update i).bank.s1 = m.bank.accepted i := by
  have hList : (m.next update i).bank.s1FrontendRequestR = (m.bank.accepted i).toList := by
    change DataBank.s1Queue.next _ _ _ = _
    rw [h.pipelineStateReady1 hReady]
    exact FlushQueue.next_of_deqReady rfl h.s1_length _ rfl
  rw [DataBank.s1, hList]
  cases m.bank.accepted i <;> rfl

theorem Fresh.current_next (hSets : p.setWidth ≠ 1) (h : m.Fresh) (hRule : FreshWrites m i) :
    (m.next update i).Current := by
  refine h.current.next hSets (fun _ => ?_) fun q hS1 hPerforms => hitCurrent_of_wayFresh (hRule.2.2 q hS1 hPerforms)
  simp [hRule.1, hRule.2.1, FlushQueue.enqReady, DataBank.s2Queue]

theorem Fresh.next (hSets : p.setWidth ≠ 1) (h : m.Fresh) (hRule : FreshWrites m i) :
    (m.next update i).Fresh where
  toUnique := (h.current_next hSets hRule).toUnique
  missQ := by
    change (DataBank.s2Queue.next _ _ _).length ≤ 1
    rw [hRule.1, FlushQueue.next_of_deqReady rfl h.missQ _ rfl]
    exact Option.length_toList_le
  writebackQ := by
    change (DataBank.s2Queue.next _ _ _).length ≤ 1
    rw [hRule.2.1, FlushQueue.next_of_deqReady rfl h.writebackQ _ rfl]
    exact Option.length_toList_le
  arrived := (h.current_next hSets hRule).arrived
  valid set way := by
    simp only [Watched.next]
    cases hWrite : m.bank.bankRamWriteRequest update with
    | none =>
      rw [DataBank.mem_next_of_none hWrite]
      exact h.valid set way
    | some w =>
      obtain ⟨q, _, hStage⟩ := DataBank.bankRamWriteRequest_eq_some hWrite
      rw [DataBank.mem_next_of_some hWrite]
      by_cases hPlace : set = w.addr ∧ way = w.which
      · obtain ⟨rfl, rfl⟩ := hPlace
        rw [applyTo_self]
        exact SecondStage.bankWrite_valid q.flushAlone hStage
      · rw [applyTo_of_ne fun hSet hWay => hPlace ⟨hSet, hWay⟩]
        exact h.valid set way
  inBank := (h.current_next hSets hRule).inBank

theorem Fresh.start : (start (DataBank.init : DataBank p core)).Fresh where
  toUnique := .start DataBank.init_allInvalid
  missQ := Nat.zero_le _
  writebackQ := Nat.zero_le _
  arrived q hS1 := by cases hS1
  valid set way hDirty := by cases hDirty
  inBank c hContext := by cases hContext

end Watched

end KnockoutKraken.Cache

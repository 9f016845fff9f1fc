import KnockoutKraken.Cache.Databank
import KnockoutKraken.Library.KeyedRow

/-!
# What one request does in the second stage

The hit decision, the way that is written and the entry that is written,
as case lemmas; every invariant of the bank is derived from these.
-/

namespace KnockoutKraken.Cache

open Library Util

variable {p : DatabankParams}

def CacheEntry.key (entry : CacheEntry p) : Option p.Tag := if entry.v then some entry.tag else none

theorem CacheEntry.key_eq_some_iff (entry : CacheEntry p) (tag : p.Tag) :
    entry.key = some tag ↔ entry.v = true ∧ entry.tag = tag := by
  cases hV : entry.v <;> simp [CacheEntry.key, hV]

@[simp] theorem key_flushEntry : (SecondStage.flushEntry : CacheEntry p).key = none := rfl

theorem UpdateFunction.apply_key (update : UpdateFunction p) (q : FrontendRequest p) {entry : CacheEntry p}
    {tag : p.Tag} (h : entry.key = some tag) : (update.apply q entry).key = some tag := by
  obtain ⟨hV, hTag⟩ := (entry.key_eq_some_iff tag).mp h
  exact (CacheEntry.key_eq_some_iff _ _).mpr ⟨update.apply_v q entry hV, (update.apply_tag q entry).trans hTag⟩

theorem zero_ne_allOnes (p : DatabankParams) : (0#p.blockSize == BitVec.allOnes p.blockSize) = false := by
  rw [beq_eq_false_iff_ne]
  intro h
  have hBit := congrArg (fun bits => bits.getLsbD 0) h
  simp [p.blockSize_pos] at hBit

/-- A flush carries no write and is not a refill. -/
def FrontendRequest.FlushAlone (q : FrontendRequest p) : Prop :=
  q.flushV = true → q.wMask = 0#p.blockSize ∧ q.refillV = false

theorem BankRequest.flushAlone (q : BankRequest p) : q.packet.FlushAlone := by
  cases q <;> simp [FrontendRequest.FlushAlone, packet]

namespace SecondStage

variable (x : SecondStage p)

def tag : p.Tag := getTagFromAddress x.request.addr

theorem matchBits_iff (way : p.Way) :
    x.matchBits way = true ↔ Holds CacheEntry.key x.bankRamReply x.tag way := by
  rw [Holds, CacheEntry.key_eq_some_iff, matchBits, CacheEntry.checkHit, Bool.and_eq_true, beq_iff_eq,
    and_comm, tag]

variable {x}

theorem atMostOne_matchBits (h : UniqueKeys CacheEntry.key x.bankRamReply) : AtMostOne x.matchBits :=
  fun i j hi hj => h x.tag i j ((x.matchBits_iff i).mp hi) ((x.matchBits_iff j).mp hj)

theorem matchWhich_eq (h : UniqueKeys CacheEntry.key x.bankRamReply) {way : p.Way}
    (hWay : Holds CacheEntry.key x.bankRamReply x.tag way) : x.matchWhich = way :=
  ohToUInt_of_atMostOne (atMostOne_matchBits h) ((x.matchBits_iff way).mpr hWay)

theorem s2WritingMatched_eq_some_iff (context : WritingContext p) :
    x.s2WritingMatched = some context ↔ x.s2BankWritingR = some context ∧ context.addr = x.request.addr := by
  rw [s2WritingMatched, Option.filter_eq_some_iff, beq_iff_eq]

theorem hit_cases (h : x.hitV = true) :
    (∃ context, x.s2WritingMatched = some context ∧ context.flushV = false ∧ x.hitEntry = context.toEntry) ∨
    (x.s2WritingMatched = none ∧ x.hitEntry = x.bankRamReply x.matchWhich ∧
      Holds CacheEntry.key x.bankRamReply x.tag x.matchWhich) := by
  cases hFwd : x.s2WritingMatched with
  | some context =>
    refine .inl ⟨context, rfl, ?_, ?_⟩
    · simpa [hitV, hFwd] using h
    · simp [hitEntry, hFwd]
  | none =>
    refine .inr ⟨rfl, by simp [hitEntry, hFwd], ?_⟩
    simp only [hitV, hFwd, beq_iff_eq, popCount_eq_one_iff] at h
    obtain ⟨way, hWay, hOnly⟩ := h
    have hMost : AtMostOne x.matchBits := fun i j hi hj => (hOnly i hi).trans (hOnly j hj).symm
    rw [matchWhich, ohToUInt_of_atMostOne hMost hWay]
    exact (x.matchBits_iff way).mp hWay

/-- A miss either follows the flush of its own block, or finds nothing in the bank word. -/
theorem miss_cases (hWord : UniqueKeys CacheEntry.key x.bankRamReply) (h : x.hitV = false) :
    (∃ context, x.s2WritingMatched = some context ∧ context.flushV = true) ∨
    (x.s2WritingMatched = none ∧ ∀ way, ¬ Holds CacheEntry.key x.bankRamReply x.tag way) := by
  cases hFwd : x.s2WritingMatched with
  | some context => exact .inl ⟨context, rfl, by simpa [hitV, hFwd] using h⟩
  | none =>
    refine .inr ⟨rfl, fun way hWay => ?_⟩
    have hNot : ¬ popCount x.matchBits = 1 := by simpa [hitV, hFwd] using h
    exact hNot ((atMostOne_matchBits hWord).popCount_eq_one_iff.mpr ⟨way, (x.matchBits_iff way).mpr hWay⟩)

theorem hitEntry_key (h : x.hitV = true) : x.hitEntry.key = some x.tag := by
  rcases hit_cases h with ⟨context, hFwd, hFlush, hEntry⟩ | ⟨_, hEntry, hHolds⟩
  · obtain ⟨_, hAddr⟩ := (s2WritingMatched_eq_some_iff context).mp hFwd
    rw [hEntry, CacheEntry.key_eq_some_iff]
    simp [WritingContext.toEntry, CacheEntry.refill, hAddr, tag]
  · rw [hEntry]
    exact hHolds

theorem refillNewEntry_key : x.refillNewEntry.key = some x.tag :=
  (CacheEntry.key_eq_some_iff _ _).mpr ⟨rfl, rfl⟩

theorem fullWritingV_of_flush (hAlone : x.request.FlushAlone) (h : x.request.flushV = true) :
    x.fullWritingV = false := by
  obtain ⟨hMask, hRefill⟩ := hAlone h
  rw [fullWritingV, hMask, hRefill, Bool.or_false]
  exact zero_ne_allOnes p

variable (x) in
def target : p.Way := if x.hitV then x.matchWhich else x.lruWhichI

variable {update : UpdateFunction p}

variable (update) in
theorem bankWrite_of_flush (hAlone : x.request.FlushAlone) (hFlush : x.request.flushV = true)
    (hHit : x.hitV = true) :
    x.bankRamWriteRequestO update = some ⟨setIndex x.request.addr, x.matchWhich, flushEntry⟩ := by
  have hEntry : x.updatedEntry update = flushEntry := by rw [updatedEntry, if_pos hFlush]
  have hDiffer : flushEntry ≠ x.hitEntry := by
    intro hEq
    have hKey := hitEntry_key hHit
    rw [← hEq, key_flushEntry] at hKey
    cases hKey
  simp [bankRamWriteRequestO, fullWritingRequest, frontendWriteToBank, fullWritingV_of_flush hAlone hFlush,
    hHit, (hAlone hFlush).2, hEntry, hDiffer]

/-- What a write of the bank can be: the clearing by a flush, the update of the
entry hit, or the allocation of a full-mask write or a refill that missed. -/
theorem bankWrite_cases (hAlone : x.request.FlushAlone) {w : BankWriteRequest p}
    (h : x.bankRamWriteRequestO update = some w) :
    (x.request.flushV = true ∧ x.hitV = true ∧ w = ⟨setIndex x.request.addr, x.matchWhich, flushEntry⟩) ∨
    (x.request.flushV = false ∧ x.hitV = true ∧
      w = ⟨setIndex x.request.addr, x.matchWhich, update.apply x.request x.hitEntry⟩) ∨
    (x.request.flushV = false ∧ x.hitV = false ∧ x.fullWritingV = true ∧
      w = ⟨setIndex x.request.addr, x.lruWhichI, update.apply x.request x.refillNewEntry⟩) := by
  cases hFlush : x.request.flushV with
  | true =>
    cases hHit : x.hitV with
    | true =>
      rw [bankWrite_of_flush update hAlone hFlush hHit, Option.some.injEq] at h
      exact .inl ⟨rfl, rfl, h.symm⟩
    | false =>
      simp [bankRamWriteRequestO, fullWritingRequest, frontendWriteToBank, hHit,
        fullWritingV_of_flush hAlone hFlush] at h
  | false =>
    cases hFull : x.fullWritingV <;> cases hHit : x.hitV <;>
      simp [bankRamWriteRequestO, fullWritingRequest, frontendWriteToBank, hHit, hFull, updatedEntry, hFlush,
        refillEntry] at h
    · exact .inr (.inl ⟨rfl, rfl, h.2.symm⟩)
    · exact .inr (.inr ⟨rfl, rfl, rfl, h.symm⟩)
    · exact .inr (.inl ⟨rfl, rfl, h.symm⟩)

theorem bankWrite_addr (hAlone : x.request.FlushAlone) {w : BankWriteRequest p}
    (h : x.bankRamWriteRequestO update = some w) : w.addr = setIndex x.request.addr := by
  rcases bankWrite_cases hAlone h with ⟨_, _, rfl⟩ | ⟨_, _, rfl⟩ | ⟨_, _, _, rfl⟩ <;> rfl

theorem bankWrite_which (hAlone : x.request.FlushAlone) {w : BankWriteRequest p}
    (h : x.bankRamWriteRequestO update = some w) : w.which = x.target := by
  rcases bankWrite_cases hAlone h with ⟨_, hHit, rfl⟩ | ⟨_, hHit, rfl⟩ | ⟨_, hHit, _, rfl⟩ <;>
    simp [target, hHit]

theorem bankWrite_key (hAlone : x.request.FlushAlone) {w : BankWriteRequest p}
    (h : x.bankRamWriteRequestO update = some w) :
    w.data.key = if x.request.flushV then none else some x.tag := by
  rcases bankWrite_cases hAlone h with ⟨hFlush, _, rfl⟩ | ⟨hFlush, hHit, rfl⟩ | ⟨hFlush, _, _, rfl⟩ <;>
    simp only [hFlush]
  · rfl
  · exact update.apply_key _ (hitEntry_key hHit)
  · exact update.apply_key _ refillNewEntry_key

variable (x) in
/-- A write, flush or refill that takes place: the write of the register is valid. -/
def performs : Bool :=
  (x.request.wMask != 0#p.blockSize || x.request.flushV || x.request.refillV) && (x.hitV || x.fullWritingV)

variable (update) in
theorem s2BankWritingN_of_performs (h : x.performs = true) :
    x.s2BankWritingN update =
      some ⟨x.request.addr, x.request.asid, (x.frontendReplyO update).wData, x.request.flushV⟩ :=
  if_pos h

theorem s2BankWritingN_of_not_performs (h : x.performs = false) : x.s2BankWritingN update = none := by
  rw [s2BankWritingN, if_neg]
  exact ne_true_of_eq_false h

theorem performs_of_s2BankWritingN {context : WritingContext p} (h : x.s2BankWritingN update = some context) :
    x.performs = true ∧ context.addr = x.request.addr ∧ context.flushV = x.request.flushV ∧
      context.dataBlock = (x.frontendReplyO update).wData := by
  cases hPerforms : x.performs with
  | false =>
    rw [s2BankWritingN_of_not_performs hPerforms] at h
    cases h
  | true =>
    rw [s2BankWritingN_of_performs update hPerforms, Option.some.injEq] at h
    subst h
    exact ⟨rfl, rfl, rfl, rfl⟩

/-- The bank is only written by a request that also leaves its write in the register. -/
theorem performs_of_bankWrite {w : BankWriteRequest p} (h : x.bankRamWriteRequestO update = some w) :
    x.performs = true := by
  cases hFull : x.fullWritingV with
  | true =>
    have hMasked : (x.request.wMask != 0#p.blockSize || x.request.refillV) = true := by
      simp only [fullWritingV, Bool.or_eq_true, beq_iff_eq] at hFull
      rcases hFull with hMask | hRefill
      · rw [hMask, bne, Bool.beq_comm, zero_ne_allOnes]
        rfl
      · rw [hRefill, Bool.or_true]
    simp only [Bool.or_eq_true] at hMasked
    simp only [performs, hFull, Bool.or_true, Bool.and_true, Bool.or_eq_true]
    tauto
  | false =>
    simp only [bankRamWriteRequestO, fullWritingRequest, hFull, Bool.false_eq_true, if_false, Option.none_or,
      frontendWriteToBank, Option.ite_none_right_eq_some, Bool.and_eq_true, decide_eq_true_eq] at h
    obtain ⟨⟨⟨hHit, _⟩, hDiffer⟩, _⟩ := h
    simp only [performs, hHit, Bool.true_or, Bool.and_true, Bool.or_eq_true, bne_iff_ne, ne_eq]
    cases hFlush : x.request.flushV with
    | true => exact .inl (.inr rfl)
    | false =>
      refine .inl (.inl fun hMask => hDiffer ?_)
      obtain ⟨hV, _⟩ := (CacheEntry.key_eq_some_iff _ _).mp (hitEntry_key hHit)
      rw [updatedEntry, if_neg (ne_true_of_eq_false hFlush), update.apply_zero_mask _ _ hV hMask]

end SecondStage

end KnockoutKraken.Cache

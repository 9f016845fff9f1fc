import KnockoutKraken.Mmu.Atomicity
import KnockoutKraken.Mmu.PageTable

/-!
# What a writeback leaves alone

The writeback handler overwrites the slot that the lookup names, hit or
not. It leaves the entries of the other pages alone exactly when the page
is present and no entry of another page lies in that slot.
-/

namespace KnockoutKraken.Mmu

open Library Armflex PageTableUnit

variable {params : PageTableParams} {tlbs : Nat}

namespace Operation

variable (tag : PTTagPacket params) (before after : SetWords)

/-- The entries of all other pages are where they were, and a set without the page is the same set. -/
def KeepsOthers : Prop :=
  (∀ i : Slot, ∀ item ∈ (viewOf before : PageSet params).slots i, item.tag ≠ tag →
    (viewOf after : PageSet params).slots i = some item) ∧
  (¬ (viewOf before).Present tag → after = before)

/-- The page is present, and the slot the lookup names is not taken by another page. -/
def FindsOwn : Prop :=
  (viewOf before).Present tag ∧
    ∀ item ∈ (viewOf before : PageSet params).slots ((PageTableSetPacket.ofWords before).lookup tag).index, item.tag = tag

instance : Decidable (KeepsOthers tag before after) :=
  inferInstanceAs (Decidable ((∀ _ : Slot, ∀ item ∈ _, _ → _) ∧ (_ → _)))

instance : Decidable (FindsOwn tag before) := inferInstanceAs (Decidable (_ ∧ ∀ item ∈ _, _))

variable (tlbs) in
theorem slots_writeback (request : TLBEvictionMessage params) (source : Fin (tlbs + 1)) (words : SetWords) :
    (viewOf ((effect params tlbs).apply (writeback request source) words) : PageSet params).slots =
      Function.update (viewOf words).slots ((PageTableSetPacket.ofWords words).lookup request.tag).index
        (some ⟨request.tag, request.entry⟩) := by
  simp only [viewOf, effect, writeRequest, Option.map_some, Option.getD_some, writeWords,
    PageTableSetPacket.ofWords_asWords, PageTableSetPacket.view_write, PageSet.place]

theorem keepsOthers_writeback_iff (request : TLBEvictionMessage params) (source : Fin (tlbs + 1)) (words : SetWords) :
    KeepsOthers request.tag words ((effect params tlbs).apply (writeback request source) words) ↔
      FindsOwn request.tag words := by
  have hSlots := slots_writeback tlbs request source words
  constructor
  · rintro ⟨hOthers, hAbsent⟩
    constructor
    · have hPresent : (viewOf ((effect params tlbs).apply (writeback request source) words)).Present request.tag := by
        refine ⟨((PageTableSetPacket.ofWords words).lookup request.tag).index, ?_⟩
        rw [hSlots]
        exact holds_update_self.mpr rfl
      by_contra hNot
      rw [hAbsent hNot] at hPresent
      exact hNot hPresent
    · intro item hItem
      by_contra hOther
      have hKept := hOthers _ item hItem hOther
      rw [hSlots, Function.update_self, Option.some.injEq] at hKept
      exact hOther (congrArg PageTableItem.tag hKept).symm
  · rintro ⟨hPresent, hOwn⟩
    refine ⟨fun i item hItem hOther => ?_, fun hAbsent => absurd hPresent hAbsent⟩
    rw [hSlots, Function.update_of_ne]
    · exact hItem
    · rintro rfl
      exact hOther (hOwn item hItem)

end Operation

namespace PageTableUnit

theorem served_run (table : BitVec params.pPageW → SetWords) (reset : Reset params tlbs) (is : List (Input params tlbs)) :
    ((machine params tlbs).run (init table reset) is).Served (Operation.effect params tlbs) serving :=
  (Bursts.Settled.init table reset.free).served.run handlers_serve is

end PageTableUnit

open Operation

/-- Whatever the writeback handler stores in a run, it keeps the other pages of the set it loaded
if and only if it found its own page there; when nobody stored the set since, it is the set in memory. -/
theorem writeback_keeps_others_iff (table : BitVec params.pPageW → SetWords) (reset : Reset params tlbs)
    (is : List (Input params tlbs)) (i : (handlers params tlbs .tlbWriteback).ClientInput) (t : BitVec params.pPageW)
    (hStores : (((machine params tlbs).run (init table reset) is).client .tlbWriteback).stores i = some t) :
    let g := (machine params tlbs).run (init table reset) is
    ∃ x request source words, g.txn .tlbWriteback = some x ∧ x.op = writeback request source ∧
      x.loaded = some words ∧ t = pagesetNumber request.tag ∧ (g.NotStale ⟨.tlbWriteback, i⟩ → g.table t = words) ∧
      (KeepsOthers request.tag words ((g.next writeWords (effect params tlbs) ⟨.tlbWriteback, i⟩).table t) ↔
        FindsOwn request.tag words) := by
  intro g
  have hServed := served_run table reset is
  obtain ⟨x, words, hTxn, hLoaded, hAddr, hBlock⟩ := hServed.txn_of_stores (i := ⟨.tlbWriteback, i⟩) handlers_serve hStores
  have hServing := hServed.serves .tlbWriteback
  rw [hTxn] at hServing
  have hOp := (hServing : TLBWritebackHandler.Serving x _).op
  rw [hOp] at hAddr hBlock
  refine ⟨x, _, _, words, hTxn, hOp, hLoaded, hAddr.symm, fun hRule => ?_, ?_⟩
  · obtain ⟨_, hFresh⟩ := hServed.fresh .tlbWriteback x words hTxn hLoaded
    rw [hOp, hAddr] at hFresh
    exact hFresh (hRule t hStores x hTxn).symm
  · have hTable : (g.next writeWords (effect params tlbs) ⟨.tlbWriteback, i⟩).table t =
        (g.client .tlbWriteback).block := by
      rw [Bursts.next, hStores]
      exact Function.update_self _ _ _
    rw [hTable, hBlock]
    exact keepsOthers_writeback_iff _ _ words

section SharedSet

/-- The writeback of a page up to its write burst. -/
def writebackLoad (request : TLBEvictionMessage smallTable) : List (Input smallTable 0) :=
  [writebackStep (some request) false false, writebackStep none true false, writebackStep none false true,
    writebackStep none false false, writebackStep none false false]

def writebackStore : (handlers smallTable 0 .tlbWriteback).ClientInput := ⟨fun _ => none, true, false, fun _ => 0⟩

/-- The entry of a page that is gone from the table when its handler starts. -/
def lateEntry : TLBEvictionMessage smallTable := ⟨⟨1, 0⟩, ⟨1, 1, true⟩⟩

/-- Its writeback takes the slot of another page, and the page is back in the table. -/
theorem absent_page_resurrected :
    let g := (machine smallTable 0).run (init onePage atReset) (writebackLoad lateEntry)
    let after := (g.next writeWords (effect smallTable 0) ⟨.tlbWriteback, writebackStore⟩).table
    g.table 0 = onePage 0 ∧ (g.client .tlbWriteback).stores writebackStore = some 0 ∧
      ¬ KeepsOthers lateEntry.tag (onePage 0) (after 0) ∧ ¬ PresentIn onePage lateEntry.tag ∧
      PresentIn after lateEntry.tag ∧ PresentIn onePage (⟨0, 0⟩ : PTTagPacket smallTable) ∧ ¬ PresentIn after (⟨0, 0⟩ : PTTagPacket smallTable) := by
  decide +kernel

theorem writeback_keeps_others_of_present :
    let g := (machine smallTable 0).run (init onePage atReset) (writebackLoad dirtyEntry)
    ∃ x request source words, g.txn .tlbWriteback = some x ∧ x.op = writeback request source ∧
      x.loaded = some words ∧ 0 = pagesetNumber request.tag ∧
      (g.NotStale ⟨.tlbWriteback, writebackStore⟩ → g.table 0 = words) ∧
      (KeepsOthers request.tag words ((g.next writeWords (effect smallTable 0) ⟨.tlbWriteback, writebackStore⟩).table 0) ↔
        FindsOwn request.tag words) := by
  have hStores : (((machine smallTable 0).run (init onePage atReset) (writebackLoad dirtyEntry)).client .tlbWriteback).stores
      writebackStore = some 0 := by decide +kernel
  exact @writeback_keeps_others_iff smallTable 0 onePage atReset (writebackLoad dirtyEntry) writebackStore 0 hStores

end SharedSet

end KnockoutKraken.Mmu

import KnockoutKraken.Library.KeyedRow
import KnockoutKraken.Mmu.Operation

/-!
# The page table as a table of entries

What a set is for: sixteen slots, each free or with the entry of a page,
and the replacement tree over them. The operations are stated on this
view; on sets in which no page has two entries the packed sets follow it.
-/

namespace KnockoutKraken.Mmu

open Library Cache Armflex

variable {params : PageTableParams} {tlbs : Nat}

@[ext] structure PageSet (params : PageTableParams) where
  slots : Slot → Option (PageTableItem params)
  tree : Tree

namespace PageSet

def page (slot : Option (PageTableItem params)) : Option (PTTagPacket params) := slot.map PageTableItem.tag

variable (set : PageSet params) (tag : PTTagPacket params)

def Unique : Prop := UniqueKeys page set.slots

def find : Option Slot := lowest fun i : Slot => decide (Holds page set.slots tag i)

def free : Option Slot := lowest fun i : Slot => (set.slots i).isNone

def Present : Prop := ∃ i, Holds page set.slots tag i

def entry : Option (PTEntryPacket params) := ((set.find tag).bind set.slots).map PageTableItem.entry

/-- One slot is overwritten, and touched in the tree; all other slots are left alone. -/
def place (i : Slot) (item : Option (PageTableItem params)) : PageSet params where
  slots := Function.update set.slots i item
  tree := set.tree.touch i

/-- The slot for a page that is absent: the first free one, else the one the tree names. -/
def target : Slot := set.free.getD set.tree.lru

/-- What has to be deleted before an absent page can take its slot. -/
def victim : Option (PageTableItem params) := set.slots set.target

def insert (item : PageTableItem params) : PageSet params :=
  if (set.find item.tag).isSome then set else set.place set.target (some item)

def remove : PageSet params :=
  match set.find tag with
  | some i => set.place i none
  | none => set

def replace (item : PageTableItem params) : PageSet params :=
  match set.find item.tag with
  | some i => set.place i (some item)
  | none => set

instance : Decidable (set.Present tag) := inferInstanceAs (Decidable (∃ _, _ = _))

section Lemmas

variable {set} {tag}

theorem find_eq_none_iff : set.find tag = none ↔ ¬ set.Present tag := by
  rw [find, lowest_eq_none_iff, Present, not_exists]
  exact forall_congr' fun i => decide_eq_false_iff_not

theorem find_isSome_iff : (set.find tag).isSome = true ↔ set.Present tag := by
  rw [← not_iff_not, ← find_eq_none_iff, Bool.not_eq_true, Option.isSome_eq_false_iff, Option.isNone_iff_eq_none]

theorem holds_of_find {i : Slot} (h : set.find tag = some i) : Holds page set.slots tag i :=
  of_decide_eq_true (lowest_eq_some_iff.mp h).1

theorem slots_target (hFree : set.free ≠ none) : set.slots set.target = none := by
  obtain ⟨i, hSome⟩ := Option.ne_none_iff_exists'.mp hFree
  have hNone := (lowest_eq_some_iff.mp hSome).1
  rw [target, hSome, Option.getD_some]
  exact Option.isNone_iff_eq_none.mp hNone

theorem present_insert (item : PageTableItem params) : (set.insert item).Present item.tag := by
  rw [PageSet.insert]
  split
  · next hFind => exact find_isSome_iff.mp hFind
  · exact ⟨set.target, holds_update_self.mpr rfl⟩

/-- An insertion takes the place of at most one other page. -/
theorem Present.insert (h : set.Present tag) (item : PageTableItem params) :
    (set.insert item).Present tag ∨ set.find item.tag = none ∧ page set.victim = some tag := by
  obtain ⟨i, hHolds⟩ := h
  rw [PageSet.insert]
  split
  · exact .inl ⟨i, hHolds⟩
  · next hFind =>
    by_cases hi : i = set.target
    · subst hi
      exact .inr ⟨by simpa using hFind, hHolds⟩
    · exact .inl ⟨i, (holds_update_of_ne hi).mpr hHolds⟩

theorem Present.remove (h : set.Present tag) {other : PTTagPacket params} (hOther : tag ≠ other) :
    (set.remove other).Present tag := by
  obtain ⟨i, hHolds⟩ := h
  rw [PageSet.remove]
  split
  · next j hFind =>
    have hi : i ≠ j := by
      rintro rfl
      exact hOther (Option.some.inj ((hHolds : page _ = _).symm.trans (holds_of_find hFind)))
    exact ⟨i, (holds_update_of_ne hi).mpr hHolds⟩
  · exact ⟨i, hHolds⟩

theorem Present.replace (h : set.Present tag) (item : PageTableItem params) : (set.replace item).Present tag := by
  obtain ⟨i, hHolds⟩ := h
  rw [PageSet.replace]
  split
  · next j hFind =>
    by_cases hi : i = j
    · subst hi
      exact ⟨i, holds_update_self.mpr ((holds_of_find hFind).symm.trans hHolds)⟩
    · exact ⟨i, (holds_update_of_ne hi).mpr hHolds⟩
  · exact ⟨i, hHolds⟩

theorem Unique.insert (h : set.Unique) (item : PageTableItem params) : (set.insert item).Unique := by
  rw [PageSet.insert]
  split
  · exact h
  · next hAbsent =>
    refine UniqueKeys.update h fun t j hKey hHolds => ?_
    rw [page, Option.map_some, Option.some.injEq] at hKey
    rw [find_isSome_iff] at hAbsent
    exact absurd ⟨j, hKey ▸ hHolds⟩ hAbsent

theorem Unique.remove (h : set.Unique) (tag : PTTagPacket params) : (set.remove tag).Unique := by
  rw [PageSet.remove]
  split
  · exact UniqueKeys.erase h rfl
  · exact h

theorem Unique.replace (h : set.Unique) (item : PageTableItem params) : (set.replace item).Unique := by
  rw [PageSet.replace]
  split
  · next i hFind =>
    refine UniqueKeys.update h fun t j hKey hHolds => ?_
    rw [page, Option.map_some, Option.some.injEq] at hKey
    exact h t j i hHolds (hKey ▸ holds_of_find hFind)
  · exact h

end Lemmas

end PageSet

namespace PageTableSetPacket

variable (set : PageTableSetPacket params)

def view : PageSet params where
  slots i := if set.valids.getLsbD i then some ⟨set.tags i, set.ptes i⟩ else none
  tree := set.lruEncoding

theorem view_slots (i : Slot) :
    set.view.slots i = if set.valids.getLsbD i.val then some ⟨set.tags i, set.ptes i⟩ else none := rfl

section View

variable {set} {tag : PTTagPacket params} {i : Slot}

theorem hitVector_eq : set.hitVector tag i = (decide (set.tags i = tag) && set.valids.getLsbD i) := by
  rw [Bool.eq_iff_iff, hitVector]
  simp [PTTagPacket.ext_iff, and_comm]

theorem holds_view_iff : Holds PageSet.page set.view.slots tag i ↔ set.hitVector tag i = true := by
  rw [Holds, view_slots, hitVector_eq, PageSet.page]
  cases hValid : set.valids.getLsbD i.val <;> simp

theorem hitV_iff : (set.lookup tag).hitV = true ↔ set.view.Present tag := by
  rw [lookup, decide_eq_true_eq, PageSet.Present]
  exact exists_congr fun i => holds_view_iff.symm

theorem hitV_eq_find : (set.lookup tag).hitV = (set.view.find tag).isSome := by
  rw [Bool.eq_iff_iff, hitV_iff, PageSet.find_isSome_iff]

theorem lookup_index (hUnique : set.view.Unique) (hFind : set.view.find tag = some i) : (set.lookup tag).index = i := by
  have hHolds := PageSet.holds_of_find hFind
  refine ohToUInt_of_atMostOne ?_ (holds_view_iff.mp hHolds)
  intro j k hj hk
  exact hUnique tag j k (holds_view_iff.mpr hj) (holds_view_iff.mpr hk)

theorem slots_of_hit (hHit : set.hitVector tag i = true) : set.view.slots i = some ⟨tag, set.ptes i⟩ := by
  rw [hitVector_eq, Bool.and_eq_true, decide_eq_true_eq] at hHit
  obtain ⟨hTag, hValid⟩ := hHit
  rw [view_slots, if_pos hValid, hTag]

theorem lookup_item (hUnique : set.view.Unique) (hFind : set.view.find tag = some i) :
    set.view.slots i = some (set.lookup tag).item := by
  rw [slots_of_hit (holds_view_iff.mp (PageSet.holds_of_find hFind)), ← lookup_index hUnique hFind]
  rfl

theorem getLsbD_slot (i j : Slot) : (1#16 <<< i.val).getLsbD j.val = decide (j = i) := by
  revert i j
  decide

theorem tree_write (request : PageSetBufferWriteRequestPacket params) :
    (set.write request).lruEncoding = set.lruEncoding.touch request.index := by
  refine funext fun k => ?_
  have hBit := getLsbD_packVec (fun k : Fin 15 => BitVec.ofBool (set.lruEncoding.touch request.index k)) k Nat.one_pos
  have hLt : k.val < 16 := Nat.lt_succ_of_lt k.isLt
  simp only [Nat.mul_one, Nat.add_zero] at hBit
  simp only [lruEncoding, write, BitVec.getLsbD_setWidth, decide_eq_true hLt, Bool.true_and]
  refine hBit.trans ?_
  cases set.lruEncoding.touch request.index k <;> rfl

theorem valids_write (item : PageTableItem params) (i j : Slot) :
    (set.write ⟨item, false, i⟩).valids.getLsbD j.val = (decide (j = i) || set.valids.getLsbD j.val) := by
  rw [write, if_neg Bool.false_ne_true, BitVec.getLsbD_or, getLsbD_slot]

theorem valids_flush (item : PageTableItem params) (i j : Slot) :
    (set.write ⟨item, true, i⟩).valids.getLsbD j.val = (!decide (j = i) && set.valids.getLsbD j.val) := by
  rw [write, if_pos rfl, BitVec.getLsbD_and, BitVec.getLsbD_not, getLsbD_slot, decide_eq_true j.isLt, Bool.true_and]

theorem view_write (item : PageTableItem params) (i : Slot) :
    (set.write ⟨item, false, i⟩).view = set.view.place i (some item) := by
  refine PageSet.ext (funext fun j => ?_) (tree_write _)
  rw [view_slots, valids_write, PageSet.place, write]
  by_cases hj : j = i
  · subst hj
    simp
  · simp [hj, view_slots]

theorem view_flush (item : PageTableItem params) (i : Slot) :
    (set.write ⟨item, true, i⟩).view = set.view.place i none := by
  refine PageSet.ext (funext fun j => ?_) (tree_write _)
  rw [view_slots, valids_flush, PageSet.place, write]
  by_cases hj : j = i
  · subst hj
    simp
  · simp [hj, view_slots]

theorem free_view : set.view.free = lowest fun i : Slot => !set.valids.getLsbD i.val := by
  rw [PageSet.free]
  refine congrArg lowest (funext fun i => ?_)
  rw [view_slots]
  cases set.valids.getLsbD i.val <;> rfl

theorem lruV_eq : set.lruElement.lruV = set.view.free.isNone := by
  rw [free_view, lruElement, Bool.eq_iff_iff, beq_iff_eq, Option.isNone_iff_eq_none, lowest_eq_none_iff]
  constructor
  · intro hZero i
    have hBit := congrArg (fun bits => bits.getLsbD i.val) hZero
    simp only [BitVec.getLsbD_not, decide_eq_true i.isLt, Bool.true_and] at hBit
    exact hBit.trans BitVec.getLsbD_zero
  · intro hFull
    apply BitVec.eq_of_getLsbD_eq
    intro i hi
    rw [BitVec.getLsbD_not, decide_eq_true hi, Bool.true_and, hFull ⟨i, hi⟩]
    exact BitVec.getLsbD_zero.symm

/-- The slot the buffer offers is the first free one, else the one the tree names. -/
theorem lruElement_index : set.lruElement.index = set.view.target := by
  have hFull : set.lruElement.lruV = set.view.free.isNone := lruV_eq
  rw [lruElement] at hFull
  rw [PageSet.target, lruElement]
  simp only at hFull ⊢
  rw [hFull]
  cases hFree : set.view.free with
  | none => rfl
  | some i =>
    rw [free_view] at hFree
    rw [Option.isNone_some, if_neg Bool.false_ne_true, spaceIndex, hFree]
    rfl

theorem lruElement_item (hFull : set.view.free = none) : set.view.victim = some set.lruElement.item := by
  have hValid := lowest_eq_none_iff.mp (free_view.symm.trans hFull) set.view.tree.lru
  rw [Bool.not_eq_false'] at hValid
  rw [PageSet.victim, PageSet.target, hFull, Option.getD_none, view_slots, if_pos hValid]
  rfl

theorem victim_of_free (hFree : set.view.free ≠ none) : set.view.victim = none := PageSet.slots_target hFree

end View

end PageTableSetPacket

namespace Operation

def onSet : Operation params tlbs → PageSet params → PageSet params
  | walk _ _, set => set
  | writeback request _, set => set.replace ⟨request.tag, request.entry⟩
  | missReply request, set => set.insert (QEMUMissReply.item request)
  | pageEvict request, set => set.remove request.tag

/-- What is sent for an operation: the answer to a miss, or the deletion of an entry. -/
def sends : Operation params tlbs → PageSet params → List (Event params tlbs)
  | walk request source, set =>
    match set.entry request.tag with
    | some entry => [.tlbReply source ⟨request.tag, entry, request.thid⟩]
    | none => [.pageFault ⟨request.tag, request.perm, request.thid⟩]
  | writeback _ _, _ => []
  | missReply request, set =>
    (if (set.find request.tag).isSome then [] else set.victim.toList.map .pageDelete) ++ QEMUMissReply.replies request
  | pageEvict request, set => (set.entry request.tag).toList.map fun entry => .pageDelete ⟨request.tag, entry⟩

/-- A writeback and an eviction are for pages that are present. -/
def Enabled : Operation params tlbs → PageSet params → Prop
  | walk _ _, _ => True
  | writeback request _, set => set.Present request.tag
  | missReply _, _ => True
  | pageEvict request, set => set.Present request.tag

section Refinement

variable {op : Operation params tlbs} {set : PageSet params} {words : SetWords}

theorem unique_onSet (h : set.Unique) (op : Operation params tlbs) : (op.onSet set).Unique := by
  cases op with
  | walk => exact h
  | writeback request => exact h.replace _
  | missReply request => exact h.insert _
  | pageEvict request => exact h.remove _

def viewOf (words : SetWords) : PageSet params := (PageTableSetPacket.ofWords words).view

theorem entry_of_find {packet : PageTableSetPacket params} {tag : PTTagPacket params} (hUnique : packet.view.Unique) :
    packet.view.entry tag = if (packet.lookup tag).hitV then some (packet.lookup tag).item.entry else none := by
  rw [PageSet.entry, PageTableSetPacket.hitV_eq_find]
  cases hFind : packet.view.find tag with
  | none => rfl
  | some i =>
    rw [Option.bind_some, PageTableSetPacket.lookup_item hUnique hFind]
    rfl

theorem view_apply (hUnique : (viewOf words : PageSet params).Unique) (hEnabled : op.Enabled (viewOf words)) :
    viewOf ((effect params tlbs).apply op words) = op.onSet (viewOf words) := by
  have hApply : (viewOf ((effect params tlbs).apply op words) : PageSet params) =
      ((op.writeRequest (.ofWords words)).map fun request =>
        ((PageTableSetPacket.ofWords words).write request).view).getD (viewOf words) := by
    rw [effect]
    simp only
    cases op.writeRequest (.ofWords words) with
    | none => rfl
    | some request =>
      rw [Option.map_some, Option.getD_some, viewOf, writeWords, PageTableSetPacket.ofWords_asWords]
      rfl
  rw [hApply]
  cases op with
  | walk => rfl
  | writeback request =>
    obtain ⟨i, hFind⟩ := Option.isSome_iff_exists.mp (PageSet.find_isSome_iff.mpr hEnabled)
    rw [onSet, PageSet.replace, hFind, writeRequest, Option.map_some, Option.getD_some,
      PageTableSetPacket.lookup_index hUnique hFind, PageTableSetPacket.view_write]
    rfl
  | missReply request =>
    rw [onSet, PageSet.insert, writeRequest, PageTableSetPacket.hitV_eq_find]
    cases hFind : (PageTableSetPacket.ofWords words).view.find request.tag with
    | some i =>
      have hFind' : (viewOf words).find (QEMUMissReply.item request).tag = some i := hFind
      rw [hFind', Option.isSome_some, if_pos rfl, if_pos rfl]
      rfl
    | none =>
      have hFind' : (viewOf words).find (QEMUMissReply.item request).tag = none := hFind
      rw [hFind', Option.isSome_none, if_neg Bool.false_ne_true, if_neg Bool.false_ne_true, Option.map_some,
        Option.getD_some, QEMUMissReply.writeRequest, PageTableSetPacket.view_write,
        PageTableSetPacket.lruElement_index]
      rfl
  | pageEvict request =>
    obtain ⟨i, hFind⟩ := Option.isSome_iff_exists.mp (PageSet.find_isSome_iff.mpr hEnabled)
    rw [onSet, PageSet.remove, hFind, writeRequest, Option.map_some, Option.getD_some,
      PageTableSetPacket.lookup_index hUnique hFind, PageTableSetPacket.view_flush]
    rfl

theorem emits_eq (hUnique : (viewOf words : PageSet params).Unique) (hEnabled : op.Enabled (viewOf words)) :
    (effect params tlbs).emits op words = op.sends (viewOf words) := by
  cases op with
  | walk request source =>
    rw [sends, viewOf, entry_of_find hUnique]
    simp only [effect, emits]
    cases ((PageTableSetPacket.ofWords words).lookup request.tag).hitV <;> rfl
  | writeback => rfl
  | missReply request =>
    simp only [effect, emits, sends, QEMUMissReply.deletions, PageTableSetPacket.hitV_eq_find,
      PageTableSetPacket.lruV_eq]
    refine congrArg (· ++ _) ?_
    change _ = if ((PageTableSetPacket.ofWords words).view.find request.tag).isSome then _ else _
    cases (PageTableSetPacket.ofWords words).view.find request.tag with
    | some i => rfl
    | none =>
      change _ = (PageTableSetPacket.ofWords words).view.victim.toList.map _
      cases hFree : (PageTableSetPacket.ofWords words : PageTableSetPacket params).view.free with
      | some i =>
        rw [PageTableSetPacket.victim_of_free (by rw [hFree]; exact Option.some_ne_none i)]
        rfl
      | none =>
        rw [PageTableSetPacket.lruElement_item hFree]
        rfl
  | pageEvict request =>
    obtain ⟨i, hFind⟩ := Option.isSome_iff_exists.mp (PageSet.find_isSome_iff.mpr hEnabled)
    have hFind' : (PageTableSetPacket.ofWords words).view.find request.tag = some i := hFind
    rw [sends, viewOf, entry_of_find hUnique, PageTableSetPacket.hitV_eq_find, hFind']
    rfl

end Refinement

section Table

variable {table : BitVec params.pPageW → SetWords} {op : Operation params tlbs}

def PresentIn (table : BitVec params.pPageW → SetWords) (tag : PTTagPacket params) : Prop :=
  (viewOf (table (pagesetNumber tag))).Present tag

instance (table : BitVec params.pPageW → SetWords) (tag : PTTagPacket params) : Decidable (PresentIn table tag) :=
  inferInstanceAs (Decidable (PageSet.Present _ _))

def UniqueIn (params : PageTableParams) (table : BitVec params.pPageW → SetWords) : Prop :=
  ∀ t, (viewOf (table t) : PageSet params).Unique

def EnabledIn (table : BitVec params.pPageW → SetWords) (op : Operation params tlbs) : Prop :=
  op.Enabled (viewOf (table (pagesetNumber op.tag)))

/-- The operation overwrites the entry of another page because its set is full. -/
def Displaces (op : Operation params tlbs) (table : BitVec params.pPageW → SetWords) (tag : PTTagPacket params) : Prop :=
  match op with
  | missReply request =>
    let set : PageSet params := viewOf (table (pagesetNumber request.tag))
    set.find request.tag = none ∧ PageSet.page set.victim = some tag
  | _ => False

instance (op : Operation params tlbs) (table : BitVec params.pPageW → SetWords) (tag : PTTagPacket params) :
    Decidable (op.Displaces table tag) :=
  match op with
  | missReply _ => inferInstanceAs (Decidable (_ ∧ _))
  | walk _ _ => .isFalse id
  | writeback _ _ => .isFalse id
  | pageEvict _ => .isFalse id

/-- Executing an operation changes the set of its page, and no other. -/
theorem view_exec (hUnique : UniqueIn params table) (hEnabled : EnabledIn table op) (t : BitVec params.pPageW) :
    viewOf ((effect params tlbs).exec table op t) =
      if t = pagesetNumber op.tag then op.onSet (viewOf (table t)) else viewOf (table t) := by
  have hAddr : (effect params tlbs).addr op = pagesetNumber op.tag := rfl
  rw [Effect.exec, hAddr]
  split
  · next ht =>
    subst ht
    rw [Function.update_self, view_apply (hUnique _) hEnabled]
  · next ht => rw [Function.update_of_ne ht]

theorem unique_exec (hUnique : UniqueIn params table) (hEnabled : EnabledIn table op) :
    UniqueIn params ((effect params tlbs).exec table op) := by
  intro t
  rw [view_exec hUnique hEnabled]
  split
  · exact unique_onSet (hUnique t) op
  · exact hUnique t

theorem present_exec_missReply {request : QEMUMissReply params} (hUnique : UniqueIn params table) :
    PresentIn ((effect params tlbs).exec table (missReply request)) request.tag := by
  have hEnabled : EnabledIn table (missReply request : Operation params tlbs) := trivial
  have hView := view_exec hUnique hEnabled (pagesetNumber request.tag)
  rw [if_pos (by rfl)] at hView
  rw [PresentIn, hView]
  exact PageSet.present_insert _

/-- A page stays present unless it is evicted or displaced. -/
theorem present_exec {tag : PTTagPacket params} (hUnique : UniqueIn params table) (hEnabled : EnabledIn table op)
    (hPresent : PresentIn table tag) (hEvict : ∀ request, op = pageEvict request → tag ≠ request.tag) :
    PresentIn ((effect params tlbs).exec table op) tag ∨ op.Displaces table tag := by
  rw [PresentIn, view_exec hUnique hEnabled]
  split
  · next hSet =>
    cases op with
    | walk => exact .inl hPresent
    | writeback request => exact .inl (PageSet.Present.replace hPresent _)
    | missReply request =>
      rcases PageSet.Present.insert hPresent (QEMUMissReply.item request) with hKept | hGone
      · exact .inl hKept
      · refine .inr ?_
        rw [Displaces]
        change pagesetNumber tag = pagesetNumber request.tag at hSet
        rw [← hSet]
        exact hGone
    | pageEvict request => exact .inl (PageSet.Present.remove hPresent (hEvict request rfl))
  · exact .inl hPresent

end Table

end Operation

end KnockoutKraken.Mmu

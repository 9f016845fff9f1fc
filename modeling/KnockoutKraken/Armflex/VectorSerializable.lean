import KnockoutKraken.Armflex.SoftwareBundle

/-!
# Serialized messages

The bundles that are exchanged with the host are sequences of words of 32
bits. A field narrower than a word is padded with zeros and the virtual
page number takes two words.
-/

namespace KnockoutKraken.Armflex

/-- The widths for which every field fits the words it is given: the virtual page number has
a high word, and a thread number is never all ones. -/
structure SerializableParams extends PageTableParams where
  vPageW_gt_word : 32 < vPageW
  vPageW_le : vPageW ≤ 64
  asidW_le : asidW ≤ 32
  pPageW_le_word : pPageW ≤ 32
  thidW_lt : thidW < 32

/-- `parseFromVec` has no value when an index is outside of the vector: the circuit does not elaborate. -/
class VectorSerializable (α : Type) where
  asVec : α → List (BitVec 32)
  parseFromVec : List (BitVec 32) → Option α

export VectorSerializable (asVec parseFromVec)

variable {params : PageTableParams}

instance : VectorSerializable (PTTagPacket params) where
  asVec tag := [tag.asid.setWidth 32, tag.vpn.setWidth 32, (tag.vpn >>> 32).setWidth 32]
  parseFromVec f := do
    let asid ← f[0]?
    let vpnLo ← f[1]?
    let vpnHi ← f[2]?
    return { asid := asid.setWidth params.asidW, vpn := (vpnHi ++ vpnLo).setWidth params.vPageW }

instance : VectorSerializable (PTEntryPacket params) where
  asVec entry := [entry.ppn.setWidth 32, entry.perm.setWidth 32, (BitVec.ofBool entry.modified).setWidth 32]
  parseFromVec f := do
    let ppn ← f[0]?
    let perm ← f[1]?
    let modified ← f[2]?
    return { ppn := ppn.setWidth params.pPageW, perm := perm.setWidth permW, modified := modified.getLsbD 0 }

instance : VectorSerializable (PageTableItem params) where
  asVec item := asVec item.tag ++ asVec item.entry
  parseFromVec f := do
    let tag ← parseFromVec (f.extract 0 3)
    let entry ← parseFromVec (f.extract 3 6)
    return { tag, entry }

@[ext] structure RxMessage where
  messageType : BitVec 3
  data : Fin 8 → BitVec 32
deriving DecidableEq

@[ext] structure TxMessage where
  messageType : BitVec 3
  data : Fin 15 → BitVec 32
deriving DecidableEq

instance : VectorSerializable RxMessage where
  asVec message := message.messageType.setWidth 32 :: List.ofFn message.data
  parseFromVec f :=
    if h : 9 ≤ f.length then
      some { messageType := f[0].setWidth 3, data := fun k => f[k.val + 1] }
    else none

instance : VectorSerializable TxMessage where
  asVec message := message.messageType.setWidth 32 :: List.ofFn message.data
  parseFromVec f :=
    if h : f.length = 16 then
      some { messageType := f[0].setWidth 3, data := fun k => f[k.val + 1] }
    else none

instance : VectorSerializable (QEMUPageEvictRequest params) where
  asVec request := asVec request.tag
  parseFromVec f := do
    let tag ← parseFromVec f
    return { tag }

instance : VectorSerializable (QEMUMissReply params) where
  asVec reply := asVec reply.tag ++ [reply.perm.setWidth 32, reply.ppn.setWidth 32]
  parseFromVec f := do
    let tag ← parseFromVec (f.extract 0 3)
    let perm ← f[3]?
    let thid ← f[4]?
    let ppn ← f[5]?
    return {
      tag
      perm := perm.setWidth permW
      thid := thid.setWidth params.thidW
      thidV := thid != (-1 : BitVec 32)
      ppn := ppn.setWidth params.pPageW }

@[ext] structure QEMUEvictReply (params : PageTableParams) where
  tag : PTTagPacket params
  oldPpn : BitVec params.pPageW
deriving DecidableEq

instance : VectorSerializable (QEMUEvictReply params) where
  asVec reply := asVec reply.tag ++ [reply.oldPpn.setWidth 32]
  parseFromVec f := do
    let tag ← parseFromVec (f.extract 0 3)
    let oldPpn ← f[3]?
    return { tag, oldPpn := oldPpn.setWidth params.pPageW }

instance : VectorSerializable (PageFaultNotification params) where
  asVec notification := asVec notification.tag ++ [notification.perm.setWidth 32, notification.thid.setWidth 32]
  parseFromVec f := do
    let tag ← parseFromVec (f.extract 0 3)
    let perm ← f[3]?
    let thid ← f[4]?
    return { tag, perm := perm.setWidth permW, thid := thid.setWidth params.thidW }

@[ext] structure PageEvictNotification (messageType : BitVec 3) (params : PageTableParams) where
  item : PageTableItem params
deriving DecidableEq

instance {messageType : BitVec 3} : VectorSerializable (PageEvictNotification messageType params) where
  asVec notification := asVec notification.item
  parseFromVec f := do
    let item ← parseFromVec f
    return { item }

/-- The message types put into a raw message: their words, and zeros after them. -/
def getRawMessage {α : Type} [VectorSerializable α] (messageType : BitVec 3) (x : α) : TxMessage where
  messageType
  data k := (asVec x)[k.val]?.getD 0

section RoundTrip

theorem setWidth_pad {n : Nat} (h : n ≤ 32) (x : BitVec n) : (x.setWidth 32).setWidth n = x := by
  rw [BitVec.setWidth_setWidth_of_le x h, BitVec.setWidth_eq]

theorem setWidth_words {n : Nat} (h : n ≤ 64) (x : BitVec n) :
    ((x >>> 32).setWidth 32 ++ x.setWidth 32).setWidth n = x := by
  apply BitVec.eq_of_getLsbD_eq
  intro i hi
  rw [BitVec.getLsbD_setWidth, BitVec.getLsbD_append]
  rcases Nat.lt_or_ge i 32 with hLow | hHigh
  · simp [hLow, hi]
  · simp [Nat.not_lt.mpr hHigh, hi, show i - 32 < 32 by omega, show 32 + (i - 32) = i by omega]

variable (p : SerializableParams)

theorem parse_tag (tag : PTTagPacket p.toPageTableParams) (rest : List (BitVec 32)) :
    parseFromVec (asVec tag ++ rest) = some tag := by
  obtain ⟨vpn, asid⟩ := tag
  exact congrArg some (PTTagPacket.ext (setWidth_words p.vPageW_le vpn) (setWidth_pad p.asidW_le asid))

theorem parse_entry (entry : PTEntryPacket p.toPageTableParams) : parseFromVec (asVec entry) = some entry := by
  obtain ⟨ppn, perm, modified⟩ := entry
  have hModified : ((BitVec.ofBool modified).setWidth 32).getLsbD 0 = modified := by cases modified <;> rfl
  have hPerm : (perm.setWidth 32).setWidth permW = perm := setWidth_pad (by decide) perm
  exact congrArg some (by rw [PTEntryPacket.mk.injEq]; exact ⟨setWidth_pad p.pPageW_le_word ppn, hPerm, hModified⟩)

theorem parse_item (item : PageTableItem p.toPageTableParams) : parseFromVec (asVec item) = some item := by
  obtain ⟨tag, entry⟩ := item
  have hTag : parseFromVec ((asVec tag ++ asVec entry).extract 0 3) = some tag := parse_tag p tag []
  have hEntry : parseFromVec ((asVec tag ++ asVec entry).extract 3 6) = some entry := parse_entry p entry
  exact Option.bind_eq_some_iff.mpr ⟨tag, hTag, Option.bind_eq_some_iff.mpr ⟨entry, hEntry, rfl⟩⟩

theorem parse_rxMessage (message : RxMessage) : parseFromVec (asVec message) = some message := by
  have hLength : 9 ≤ (asVec message).length := by simp only [asVec, List.length_cons, List.length_ofFn, Nat.reduceAdd, Nat.le_refl]
  refine (dif_pos hLength).trans (congrArg some (RxMessage.ext ?_ (funext fun k => ?_)))
  · exact setWidth_pad (by decide) message.messageType
  · exact List.getElem_ofFn k.isLt

theorem parse_txMessage (message : TxMessage) : parseFromVec (asVec message) = some message := by
  have hLength : (asVec message).length = 16 := by simp only [asVec, List.length_cons, List.length_ofFn, Nat.reduceAdd]
  refine (dif_pos hLength).trans (congrArg some (TxMessage.ext ?_ (funext fun k => ?_)))
  · exact setWidth_pad (by decide) message.messageType
  · exact List.getElem_ofFn k.isLt

theorem parse_evictRequest (request : QEMUPageEvictRequest p.toPageTableParams) :
    parseFromVec (asVec request) = some request :=
  Option.bind_eq_some_iff.mpr ⟨request.tag, parse_tag p request.tag [], rfl⟩

theorem parse_evictReply (reply : QEMUEvictReply p.toPageTableParams) : parseFromVec (asVec reply) = some reply := by
  obtain ⟨tag, oldPpn⟩ := reply
  have hTag : parseFromVec ((asVec tag ++ [oldPpn.setWidth 32]).extract 0 3) = some tag := parse_tag p tag []
  have hPpn : (oldPpn.setWidth 32).setWidth p.pPageW = oldPpn := setWidth_pad p.pPageW_le_word oldPpn
  refine Option.bind_eq_some_iff.mpr ⟨tag, hTag, Option.bind_eq_some_iff.mpr ⟨_, rfl, ?_⟩⟩
  exact congrArg some (QEMUEvictReply.ext rfl hPpn)

theorem parse_pageFault (notification : PageFaultNotification p.toPageTableParams) :
    parseFromVec (asVec notification) = some notification := by
  obtain ⟨tag, perm, thid⟩ := notification
  have hTag : parseFromVec ((asVec tag ++ [perm.setWidth 32, thid.setWidth 32]).extract 0 3) = some tag :=
    parse_tag p tag []
  have hPerm : (perm.setWidth 32).setWidth permW = perm := setWidth_pad (by decide) perm
  have hThid : (thid.setWidth 32).setWidth p.thidW = thid := setWidth_pad p.thidW_lt.le thid
  refine Option.bind_eq_some_iff.mpr ⟨tag, hTag, Option.bind_eq_some_iff.mpr ⟨_, rfl,
    Option.bind_eq_some_iff.mpr ⟨_, rfl, ?_⟩⟩⟩
  exact congrArg some (by rw [PageFaultNotification.mk.injEq]; exact ⟨rfl, hPerm, hThid⟩)

theorem parse_evictNotification {messageType : BitVec 3} (notification : PageEvictNotification messageType p.toPageTableParams) :
    parseFromVec (asVec notification) = some notification :=
  Option.bind_eq_some_iff.mpr ⟨notification.item, parse_item p notification.item, rfl⟩

end RoundTrip

inductive SerializableClass where
  | tagPacket
  | entryPacket
  | pageTableItem
  | pageEvictRequest
  | missReply
  | evictReply
  | pageFaultNotification
  | pageEvictNotification (messageType : BitVec 3)
  | rxMessage
  | txMessage
deriving DecidableEq

namespace SerializableClass

def Value (p : SerializableParams) : SerializableClass → Type
  | tagPacket => PTTagPacket p.toPageTableParams
  | entryPacket => PTEntryPacket p.toPageTableParams
  | pageTableItem => PageTableItem p.toPageTableParams
  | pageEvictRequest => QEMUPageEvictRequest p.toPageTableParams
  | missReply => QEMUMissReply p.toPageTableParams
  | evictReply => QEMUEvictReply p.toPageTableParams
  | pageFaultNotification => PageFaultNotification p.toPageTableParams
  | pageEvictNotification messageType => PageEvictNotification messageType p.toPageTableParams
  | rxMessage => RxMessage
  | txMessage => TxMessage

instance (p : SerializableParams) : (c : SerializableClass) → VectorSerializable (c.Value p)
  | tagPacket => inferInstanceAs (VectorSerializable (PTTagPacket p.toPageTableParams))
  | entryPacket => inferInstanceAs (VectorSerializable (PTEntryPacket p.toPageTableParams))
  | pageTableItem => inferInstanceAs (VectorSerializable (PageTableItem p.toPageTableParams))
  | pageEvictRequest => inferInstanceAs (VectorSerializable (QEMUPageEvictRequest p.toPageTableParams))
  | missReply => inferInstanceAs (VectorSerializable (QEMUMissReply p.toPageTableParams))
  | evictReply => inferInstanceAs (VectorSerializable (QEMUEvictReply p.toPageTableParams))
  | pageFaultNotification => inferInstanceAs (VectorSerializable (PageFaultNotification p.toPageTableParams))
  | pageEvictNotification messageType =>
    inferInstanceAs (VectorSerializable (PageEvictNotification messageType p.toPageTableParams))
  | rxMessage => inferInstanceAs (VectorSerializable RxMessage)
  | txMessage => inferInstanceAs (VectorSerializable TxMessage)

/-- Every class but the miss reply reads back what it writes; a miss reply never reads back. -/
theorem roundTrip_iff (p : SerializableParams) (c : SerializableClass) (x : c.Value p) :
    parseFromVec (asVec x) = some x ↔ c ≠ missReply := by
  cases c with
  | tagPacket => exact iff_of_true (parse_tag p x []) SerializableClass.noConfusion
  | entryPacket => exact iff_of_true (parse_entry p x) SerializableClass.noConfusion
  | pageTableItem => exact iff_of_true (parse_item p x) SerializableClass.noConfusion
  | pageEvictRequest => exact iff_of_true (parse_evictRequest p x) SerializableClass.noConfusion
  | missReply => exact iff_of_false (Option.some_ne_none x).symm fun h => h rfl
  | evictReply => exact iff_of_true (parse_evictReply p x) SerializableClass.noConfusion
  | pageFaultNotification => exact iff_of_true (parse_pageFault p x) SerializableClass.noConfusion
  | pageEvictNotification messageType =>
    exact iff_of_true (parse_evictNotification p x) SerializableClass.noConfusion
  | rxMessage => exact iff_of_true (parse_rxMessage x) SerializableClass.noConfusion
  | txMessage => exact iff_of_true (parse_txMessage x) SerializableClass.noConfusion

abbrev standard : SerializableParams where
  pageW := 12
  vPageW := 52
  pPageW := 24
  asidW := 15
  tlbSetWidth := 0
  tlbWayWidth := 5
  thidW := 5
  tlbSetWidth_le := Nat.zero_le _
  entryWidth_le := by decide
  vPageW_gt := (by decide : 3 + 3 < 52)
  pPageW_le := by decide
  pageW_ge := (by decide : 5 + 3 ≤ 12)
  vPageW_gt_word := by decide
  vPageW_le := by decide
  asidW_le := by decide
  pPageW_le_word := by decide
  thidW_lt := by decide

/-- A reply for page zero that wakes thread 3 up does not read back. -/
theorem missReply_lost : ¬ ∀ (p : SerializableParams) (c : SerializableClass) (x : c.Value p),
    parseFromVec (asVec x) = some x := by
  intro h
  have hRead := h standard missReply (⟨⟨0, 0⟩, 1, 3, true, 7⟩ : QEMUMissReply standard.toPageTableParams)
  exact absurd hRead (Option.some_ne_none _).symm

end SerializableClass

end KnockoutKraken.Armflex

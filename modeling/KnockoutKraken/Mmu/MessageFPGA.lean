import KnockoutKraken.Armflex.VectorSerializable
import KnockoutKraken.Library.Packing
import KnockoutKraken.Mmu.PageDeletor
import KnockoutKraken.Mmu.QEMUMessageDecoder

/-!
# Messages on the bus

The host builds and reads a message as a union of structures of 64 bytes,
its words little-endian. The bytes are the 512 bits of one transfer, byte
zero in the low bits.
-/

namespace KnockoutKraken.Mmu

open Library Armflex

namespace QEMUMessagesType

def sPageFaultNotify : BitVec 3 := 4

end QEMUMessagesType

structure MessageFPGA where
  words : Fin 16 → BitVec 32

namespace MessageFPGA

section Fields

def type : Fin 16 := 0
def asid : Fin 16 := 1
def vpnLo : Fin 16 := 2
def vpnHi : Fin 16 := 3

def MissReply.permission : Fin 16 := 4
def MissReply.thid : Fin 16 := 5
def MissReply.ppn : Fin 16 := 6

def PageFaultNotif.permission : Fin 16 := 4
def PageFaultNotif.thid : Fin 16 := 5

def EvictNotif.ppn : Fin 16 := 4
def EvictNotif.permission : Fin 16 := 5
def EvictNotif.modified : Fin 16 := 6

def EvictDone.ppn : Fin 16 := 4
def EvictDone.permission : Fin 16 := 5
def EvictDone.modified : Fin 16 := 6

end Fields

variable (m : MessageFPGA)

def vpn : BitVec 64 := m.words vpnHi ++ m.words vpnLo

def set (field : Fin 16) (value : BitVec 32) : MessageFPGA := ⟨Function.update m.words field value⟩

def bytes (k : Fin 64) : BitVec 8 :=
  unpackVec (n := 4) (m.words ⟨k.val / 4, by omega⟩) ⟨k.val % 4, Nat.mod_lt _ (by decide)⟩

def ofBytes (b : Fin 64 → BitVec 8) : MessageFPGA where
  words i := packVec 4 fun j => b ⟨4 * i.val + j.val, by omega⟩

/-- The transfer that carries the 64 bytes. -/
def toBus : BitVec (16 * 32) := packVec 64 m.bytes

def ofBus (bits : BitVec (16 * 32)) : MessageFPGA := ofBytes (unpackVec (n := 64) bits)

theorem unpackVec_toBus : unpackVec m.toBus = m.words := by
  funext i
  apply BitVec.eq_of_getLsbD_eq
  intro b hb
  have hMod : b % 8 < 8 := Nat.mod_lt b (by decide)
  have hBus := getLsbD_packVec m.bytes ⟨4 * i.val + b / 8, by omega⟩ hMod
  have hIndex : (4 * i.val + b / 8) * 8 + b % 8 = i.val * 32 + b := by omega
  have hWord : (⟨(4 * i.val + b / 8) / 4, by omega⟩ : Fin 16) = i := Fin.ext (by simp only; omega)
  have hByte : (4 * i.val + b / 8) % 4 * 8 + b % 8 = b := by omega
  rw [hIndex] at hBus
  rw [unpackVec, BitVec.getLsbD_extractLsb', decide_eq_true hb, Bool.true_and]
  refine hBus.trans ?_
  simp only [bytes, unpackVec, BitVec.getLsbD_extractLsb', hWord, hByte, decide_eq_true hMod, Bool.true_and]

theorem words_ofBus (bits : BitVec (16 * 32)) : (ofBus bits).words = unpackVec bits := by
  funext i
  apply BitVec.eq_of_getLsbD_eq
  intro b hb
  have hMod : b % 8 < 8 := Nat.mod_lt b (by decide)
  have hWord := getLsbD_packVec (fun j : Fin 4 => unpackVec (n := 64) bits ⟨4 * i.val + j.val, by omega⟩) ⟨b / 8, by omega⟩ hMod
  have hIndex : b / 8 * 8 + b % 8 = b := by omega
  have hByte : (4 * i.val + b / 8) * 8 + b % 8 = i.val * 32 + b := by omega
  rw [hIndex] at hWord
  refine hWord.trans ?_
  simp only [unpackVec, BitVec.getLsbD_extractLsb', hByte, decide_eq_true hMod, decide_eq_true hb, Bool.true_and]

end MessageFPGA

section Host

def vpnAlign (va : BitVec 64) : BitVec 64 := va >>> 12

def vpnGetHi (va : BitVec 64) : BitVec 32 := ((vpnAlign va >>> 32) &&& 0xFFFFFFFF).setWidth 32

def vpnGetLo (va : BitVec 64) : BitVec 32 := (vpnAlign va &&& 0xFFFFFFFF).setWidth 32

def getPpnFromPaddr (paddr : BitVec 64) : BitVec 64 := paddr >>> 12

open MessageFPGA

def makeEvictRequest (asid : BitVec 32) (va : BitVec 64) (evictRequest : MessageFPGA) : MessageFPGA :=
  (((evictRequest.set type (QEMUMessagesType.sPageEvict.setWidth 32)).set MessageFPGA.asid asid).set
    vpnHi (vpnGetHi va)).set vpnLo (vpnGetLo va)

def makeMissReply (perm thid asid : BitVec 32) (va paddr : BitVec 64) (missReply : MessageFPGA) : MessageFPGA :=
  ((((((missReply.set type (QEMUMessagesType.sMissReply.setWidth 32)).set MessageFPGA.asid asid).set
    vpnHi (vpnGetHi va)).set vpnLo (vpnGetLo va)).set
    MissReply.thid thid).set MissReply.permission perm).set MissReply.ppn ((getPpnFromPaddr paddr).setWidth 32)

end Host

namespace QEMUMessageEncoder

structure Input (params : PageTableParams) where
  evictNotifyReqI : Option (Armflex.PageEvictNotification QEMUMessagesType.sEvictNotify params)
  evictDoneReqI : Option (Armflex.PageEvictNotification QEMUMessagesType.sEvictDone params)
  pageFaultReqI : Option (PageFaultNotification params)

def messages (i : Input params) : List (Option Armflex.TxMessage) :=
  [i.evictDoneReqI.map (getRawMessage QEMUMessagesType.sEvictDone),
    i.evictNotifyReqI.map (getRawMessage QEMUMessagesType.sEvictNotify),
    i.pageFaultReqI.map (getRawMessage QEMUMessagesType.sPageFaultNotify)]

def cat (message : Armflex.TxMessage) : BitVec (16 * 32) := packVec 16 fun k => (asVec message)[k.val]?.getD 0

def oq (i : Input params) : Option (BitVec (16 * 32)) := ((messages i).findSome? id).map cat

end QEMUMessageEncoder

section Codec

theorem setWidth_and_mask (x : BitVec 64) : (x &&& 0xFFFFFFFF).setWidth 32 = x.setWidth 32 := by
  have hMask : (0xFFFFFFFF : BitVec 64).setWidth 32 = BitVec.allOnes 32 := by decide
  rw [BitVec.setWidth_and, hMask, BitVec.and_allOnes]

variable (p : SerializableParams)

theorem vpn_words {vpn : BitVec p.vPageW} {va : BitVec 64} (hVa : vpnAlign va = vpn.setWidth 64) :
    (vpnGetHi va ++ vpnGetLo va).setWidth p.vPageW = vpn := by
  have hHi : vpnGetHi va = (vpn >>> 32).setWidth 32 := by
    rw [vpnGetHi, hVa, setWidth_and_mask]
    apply BitVec.eq_of_getLsbD_eq
    intro i hi
    simp [hi, show 32 + i < 64 by omega]
  have hLo : vpnGetLo va = vpn.setWidth 32 := by
    rw [vpnGetLo, hVa, setWidth_and_mask]
    exact BitVec.setWidth_setWidth_of_le vpn (by decide)
  rw [hHi, hLo, setWidth_words p.vPageW_le]

section Decoder

variable (params : PageTableParams) (m : MessageFPGA)

theorem messageType_toBus : TxMessage.messageType m.toBus = (m.words 0).setWidth 3 :=
  congrArg (fun words : Fin 16 → BitVec 32 => (words 0).setWidth 3) m.unpackVec_toBus

theorem data_toBus : TxMessage.data m.toBus = fun k => m.words k.succ :=
  funext fun k => congrFun m.unpackVec_toBus k.succ

theorem parse_missReply_toBus (hType : (m.words 0).setWidth 3 = QEMUMessagesType.sMissReply) :
    HostMessage.parse m.toBus = some (.missReply (parseMissReply fun k => m.words k.succ) : HostMessage params) := by
  rw [HostMessage.parse, messageType_toBus, data_toBus, if_pos hType]

theorem parse_pageEvict_toBus (hType : (m.words 0).setWidth 3 = QEMUMessagesType.sPageEvict) :
    HostMessage.parse m.toBus = some (.pageEvict (parsePageEvict fun k => m.words k.succ) : HostMessage params) := by
  rw [HostMessage.parse, messageType_toBus, data_toBus, hType]
  rfl

end Decoder

theorem parse_makeEvictRequest (asid : BitVec p.asidW) {vpn : BitVec p.vPageW} {va : BitVec 64}
    (hVa : vpnAlign va = vpn.setWidth 64) (m : MessageFPGA) :
    HostMessage.parse (makeEvictRequest (asid.setWidth 32) va m).toBus =
      some (.pageEvict ⟨⟨vpn, asid⟩⟩ : HostMessage p.toPageTableParams) := by
  have hTag : (parseTag (fun k => (makeEvictRequest (asid.setWidth 32) va m).words k.succ) : PTTagPacket p.toPageTableParams) =
      ⟨(vpnGetHi va ++ vpnGetLo va).setWidth p.vPageW, (asid.setWidth 32).setWidth p.asidW⟩ := rfl
  rw [parse_pageEvict_toBus _ _ rfl, parsePageEvict, hTag, vpn_words p hVa, setWidth_pad p.asidW_le]

theorem parse_makeMissReply (perm : BitVec permW) (thid : BitVec 32) (asid : BitVec p.asidW) {vpn : BitVec p.vPageW}
    {ppn : BitVec p.pPageW} {va paddr : BitVec 64} (hVa : vpnAlign va = vpn.setWidth 64)
    (hPaddr : getPpnFromPaddr paddr = ppn.setWidth 64) (m : MessageFPGA) :
    HostMessage.parse (makeMissReply (perm.setWidth 32) thid (asid.setWidth 32) va paddr m).toBus =
      some (.missReply ⟨⟨vpn, asid⟩, perm, thid.setWidth p.thidW, thid != -1, ppn⟩ : HostMessage p.toPageTableParams) := by
  have hReply : (parseMissReply fun k =>
        (makeMissReply (perm.setWidth 32) thid (asid.setWidth 32) va paddr m).words k.succ : QEMUMissReply p.toPageTableParams) =
      ⟨⟨(vpnGetHi va ++ vpnGetLo va).setWidth p.vPageW, (asid.setWidth 32).setWidth p.asidW⟩,
        (perm.setWidth 32).setWidth permW, thid.setWidth p.thidW, thid != -1,
        ((getPpnFromPaddr paddr).setWidth 32).setWidth p.pPageW⟩ := rfl
  have hPpn : ((ppn.setWidth 64).setWidth 32).setWidth p.pPageW = ppn := by
    rw [BitVec.setWidth_setWidth_of_le ppn (by decide : 32 ≤ 64), setWidth_pad p.pPageW_le_word]
  rw [parse_missReply_toBus _ _ rfl, hReply, vpn_words p hVa, setWidth_pad p.asidW_le, setWidth_pad (by decide), hPaddr, hPpn]

theorem thid_ne (thid : BitVec p.thidW) : (thid.setWidth 32 != (-1 : BitVec 32)) = true := by
  rw [bne_iff_ne]
  intro hEq
  have hBit := congrArg (fun x => x.getLsbD 31) hEq
  have hLt := p.thidW_lt
  simp [BitVec.getLsbD_of_ge thid 31 (by omega)] at hBit

end Codec

namespace MessageFPGA

variable {p : SerializableParams}

/-- The host reads the type and the tag of a message. -/
structure Common (messageType : BitVec 3) (m : MessageFPGA) (tag : PTTagPacket p.toPageTableParams) : Prop where
  type : m.words MessageFPGA.type = messageType.setWidth 32
  asid : m.words MessageFPGA.asid = tag.asid.setWidth 32
  vpn : m.vpn = tag.vpn.setWidth 64

structure PageFaultNotif.Holds (m : MessageFPGA) (n : PageFaultNotification p.toPageTableParams) : Prop where
  common : Common QEMUMessagesType.sPageFaultNotify m n.tag
  permission : m.words PageFaultNotif.permission = n.perm.setWidth 32
  thid : m.words PageFaultNotif.thid = n.thid.setWidth 32

/-- The two structures of an eviction, given by where their fields are. -/
structure EvictHolds (messageType : BitVec 3) (ppn permission modified : Fin 16) (m : MessageFPGA)
    (item : PageTableItem p.toPageTableParams) : Prop where
  common : Common messageType m item.tag
  ppn : m.words ppn = item.entry.ppn.setWidth 32
  permission : m.words permission = item.entry.perm.setWidth 32
  modified : m.words modified = (BitVec.ofBool item.entry.modified).setWidth 32

def EvictNotif.Holds : MessageFPGA → PageTableItem p.toPageTableParams → Prop :=
  EvictHolds QEMUMessagesType.sEvictNotify EvictNotif.ppn EvictNotif.permission EvictNotif.modified

def EvictDone.Holds : MessageFPGA → PageTableItem p.toPageTableParams → Prop :=
  EvictHolds QEMUMessagesType.sEvictDone EvictDone.ppn EvictDone.permission EvictDone.modified

end MessageFPGA

section Encoder

open MessageFPGA

variable (p : SerializableParams)

theorem words_cat (message : Armflex.TxMessage) : (ofBus (QEMUMessageEncoder.cat message)).words =
    fun k => (asVec message)[k.val]?.getD 0 := by
  rw [words_ofBus, QEMUMessageEncoder.cat, unpackVec_packVec]

theorem common_of_words {messageType : BitVec 3} {m : MessageFPGA} {tag : PTTagPacket p.toPageTableParams}
    (hType : m.words type = messageType.setWidth 32) (hAsid : m.words asid = tag.asid.setWidth 32)
    (hLo : m.words vpnLo = tag.vpn.setWidth 32) (hHi : m.words vpnHi = (tag.vpn >>> 32).setWidth 32) :
    Common messageType m tag := by
  refine ⟨hType, hAsid, ?_⟩
  have hLe := p.vPageW_le
  rw [MessageFPGA.vpn, hLo, hHi]
  apply BitVec.eq_of_getLsbD_eq
  intro i hi
  rw [BitVec.getLsbD_append, BitVec.getLsbD_setWidth]
  rcases Nat.lt_or_ge i 32 with hLow | hHigh
  · simp [hLow, hi]
  · simp [Nat.not_lt.mpr hHigh, hi, show i - 32 < 32 by omega, show 32 + (i - 32) = i by omega]

theorem pageFault_holds (n : PageFaultNotification p.toPageTableParams) :
    PageFaultNotif.Holds (ofBus (QEMUMessageEncoder.cat (getRawMessage QEMUMessagesType.sPageFaultNotify n))) n := by
  have hWords := words_cat (getRawMessage QEMUMessagesType.sPageFaultNotify n)
  exact ⟨common_of_words p (congrFun hWords type) (congrFun hWords asid) (congrFun hWords vpnLo) (congrFun hWords vpnHi),
    congrFun hWords PageFaultNotif.permission, congrFun hWords PageFaultNotif.thid⟩

theorem evict_holds {messageType : BitVec 3} (n : Armflex.PageEvictNotification messageType p.toPageTableParams) :
    EvictHolds messageType EvictNotif.ppn EvictNotif.permission EvictNotif.modified
      (ofBus (QEMUMessageEncoder.cat (getRawMessage messageType n))) n.item := by
  have hWords := words_cat (getRawMessage messageType n)
  exact ⟨common_of_words p (congrFun hWords type) (congrFun hWords asid) (congrFun hWords vpnLo) (congrFun hWords vpnHi),
    congrFun hWords EvictNotif.ppn, congrFun hWords EvictNotif.permission, congrFun hWords EvictNotif.modified⟩

end Encoder

open MessageFPGA in
/-- What the host sends is what the decoder hands on, and what the encoder sends is what the host reads. -/
theorem codec (p : SerializableParams) (m : MessageFPGA) :
    (∀ (asid : BitVec p.asidW) (vpn : BitVec p.vPageW) (va : BitVec 64), vpnAlign va = vpn.setWidth 64 →
      HostMessage.parse (makeEvictRequest (asid.setWidth 32) va m).toBus =
        some (.pageEvict ⟨⟨vpn, asid⟩⟩ : HostMessage p.toPageTableParams) ∧
      ∀ (perm : BitVec permW) (ppn : BitVec p.pPageW) (paddr : BitVec 64), getPpnFromPaddr paddr = ppn.setWidth 64 →
        (∀ thid : BitVec p.thidW,
          HostMessage.parse (makeMissReply (perm.setWidth 32) (thid.setWidth 32) (asid.setWidth 32) va paddr m).toBus =
            some (.missReply ⟨⟨vpn, asid⟩, perm, thid, true, ppn⟩ : HostMessage p.toPageTableParams)) ∧
        ∃ thid : BitVec p.thidW,
          HostMessage.parse (makeMissReply (perm.setWidth 32) (-1) (asid.setWidth 32) va paddr m).toBus =
            some (.missReply ⟨⟨vpn, asid⟩, perm, thid, false, ppn⟩ : HostMessage p.toPageTableParams)) ∧
    (∀ (done : Armflex.PageEvictNotification QEMUMessagesType.sEvictDone p.toPageTableParams)
      (notify : Option (Armflex.PageEvictNotification QEMUMessagesType.sEvictNotify p.toPageTableParams))
      (fault : Option (PageFaultNotification p.toPageTableParams)),
      ∃ word, QEMUMessageEncoder.oq ⟨notify, some done, fault⟩ = some word ∧ EvictDone.Holds (ofBus word) done.item) ∧
    (∀ (notify : Armflex.PageEvictNotification QEMUMessagesType.sEvictNotify p.toPageTableParams)
      (fault : Option (PageFaultNotification p.toPageTableParams)),
      ∃ word, QEMUMessageEncoder.oq ⟨some notify, none, fault⟩ = some word ∧ EvictNotif.Holds (ofBus word) notify.item) ∧
    ∀ fault : PageFaultNotification p.toPageTableParams,
      ∃ word, QEMUMessageEncoder.oq ⟨none, none, some fault⟩ = some word ∧ PageFaultNotif.Holds (ofBus word) fault := by
  refine ⟨fun asid vpn va hVa => ⟨parse_makeEvictRequest p asid hVa m, fun perm ppn paddr hPaddr => ⟨fun thid => ?_, ?_⟩⟩,
    fun done notify fault => ⟨_, rfl, evict_holds p done⟩, fun notify fault => ⟨_, rfl, evict_holds p notify⟩,
    fun fault => ⟨_, rfl, pageFault_holds p fault⟩⟩
  · rw [parse_makeMissReply p perm (thid.setWidth 32) asid hVa hPaddr m, thid_ne p, setWidth_pad p.thidW_lt.le]
  · exact ⟨_, parse_makeMissReply p perm (-1) asid hVa hPaddr m⟩

/-- A page number of more than 32 bits, with thread 3 to wake up and with none. -/
theorem codec_missReply :
    HostMessage.parse (makeMissReply 1 3 5 0x7F12345678ABC 0xDEF123 ⟨fun _ => 0xFFFFFFFF⟩).toBus =
      some (.missReply ⟨⟨0x7F12345678, 5⟩, 1, 3, true, 0xDEF⟩ :
        HostMessage SerializableClass.standard.toPageTableParams) ∧
    ∃ thid, HostMessage.parse (makeMissReply 1 (-1) 5 0x7F12345678ABC 0xDEF123 ⟨fun _ => 0xFFFFFFFF⟩).toBus =
      some (.missReply ⟨⟨0x7F12345678, 5⟩, 1, thid, false, 0xDEF⟩ :
        HostMessage SerializableClass.standard.toPageTableParams) := by
  have hReply := ((codec SerializableClass.standard ⟨fun _ => 0xFFFFFFFF⟩).1 5 0x7F12345678 0x7F12345678ABC rfl).2 1 0xDEF 0xDEF123 rfl
  exact ⟨hReply.1 3, hReply.2⟩

end KnockoutKraken.Mmu

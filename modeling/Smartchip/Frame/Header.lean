import Smartchip.Foundation.Memory

/-!
# Fields of an 802.11 data frame in memory

The macros of `nic/wlan_mgmt.h` and `nic/wf_80211.h` on a pointer to the frame.
The two spellings of one field (`GetPrivacy` and `GET_HDR_Protected`) read the
same bit.
-/

namespace Smartchip.Frame

open Smartchip.Foundation

abbrev MacAddr := Vector UInt8 6

/-- The modes of an interface that carry data; `other` is any other one. -/
inductive WorkMode where
  | infra
  | master
  | adhoc
  | other
  deriving DecidableEq, Repr

def isMcast (addr : List UInt8) : Bool := addr.getD 0 0 &&& 0x01 != 0

def isBcastAddr (addr : List UInt8) : Bool :=
  addr.getD 0 0 &&& addr.getD 1 0 &&& addr.getD 2 0 &&& addr.getD 3 0 &&&
    addr.getD 4 0 &&& addr.getD 5 0 == 0xff

def bcAddr : List UInt8 := [0xff, 0xff, 0xff, 0xff, 0xff, 0xff]

/-! ## Writing -/

def setBits16 (mem : Mem) (addr : Nat) (bits : UInt16) : Mem :=
  mem.write addr (le16 (mem.readLe16 addr ||| bits))

def clearBits16 (mem : Mem) (addr : Nat) (bits : UInt16) : Mem :=
  mem.write addr (le16 (mem.readLe16 addr &&& ~~~bits))

def setFrameSubType (mem : Mem) (pbuf : Nat) (type : UInt16) : Mem :=
  setBits16 (clearBits16 mem pbuf 0x00FC) pbuf type

def setToDs (mem : Mem) (pbuf : Nat) : Mem := setBits16 mem pbuf 0x0100

def setFrDs (mem : Mem) (pbuf : Nat) : Mem := setBits16 mem pbuf 0x0200

def setMFrag (mem : Mem) (pbuf : Nat) : Mem := setBits16 mem pbuf 0x0400

def clearMFrag (mem : Mem) (pbuf : Nat) : Mem := clearBits16 mem pbuf 0x0400

def setPrivacy (mem : Mem) (pbuf : Nat) : Mem := setBits16 mem pbuf 0x4000

def setSeqNum (mem : Mem) (pbuf : Nat) (num : UInt16) : Mem :=
  mem.write (pbuf + 22) (le16
    ((mem.readLe16 (pbuf + 22) &&& ~~~(0xfff0 : UInt16)) |||
      (0xfff0 &&& num <<< (4 : UInt16))))

def setPriority (mem : Mem) (qc : Nat) (tid : UInt8) : Mem :=
  setBits16 mem qc (tid.toUInt16 &&& 0xf)

def setEOSP (mem : Mem) (qc : Nat) (eosp : UInt16) : Mem :=
  setBits16 mem qc ((eosp &&& 1) <<< 4)

def setAckpolicy (mem : Mem) (qc : Nat) (ack : UInt16) : Mem :=
  setBits16 mem qc ((ack &&& 3) <<< 5)

/-! ## Reading -/

def getHdrType (mem : Mem) (pbuf : Nat) : UInt16 :=
  mem.readLe16 pbuf &&& 0x000C

def getHdrSubType (mem : Mem) (pbuf : Nat) : UInt16 :=
  mem.readLe16 pbuf &&& 0x00F0

def getHdrToFromDs (mem : Mem) (pbuf : Nat) : UInt16 :=
  mem.readLe16 pbuf &&& 0x0300

def getMFrag (mem : Mem) (pbuf : Nat) : Bool :=
  mem.readLe16 pbuf &&& 0x0400 != 0

def getHdrRetry (mem : Mem) (pbuf : Nat) : Bool :=
  mem.readLe16 pbuf &&& 0x0800 != 0

def getHdrProtected (mem : Mem) (pbuf : Nat) : Bool :=
  mem.readLe16 pbuf &&& 0x4000 != 0

def getHdrOrder (mem : Mem) (pbuf : Nat) : Bool :=
  mem.readLe16 pbuf &&& 0x8000 != 0

def getSequence (mem : Mem) (pbuf : Nat) : UInt16 :=
  mem.readLe16 (pbuf + 22) >>> 4

def getFragNum (mem : Mem) (pbuf : Nat) : UInt16 :=
  mem.readLe16 (pbuf + 22) &&& 0x000f

def getTid (mem : Mem) (qc : Nat) : UInt16 := mem.readLe16 qc &&& 0x0F

def getAckPolicy (mem : Mem) (qc : Nat) : UInt16 :=
  (mem.readLe16 qc >>> 5) &&& 0x03

def getAmsdu (mem : Mem) (qc : Nat) : Bool :=
  (mem.readLe16 qc >>> 7) &&& 0x01 != 0

def getAddr1 (mem : Mem) (pbuf : Nat) : List UInt8 := mem.read (pbuf + 4) 6

def getAddr2 (mem : Mem) (pbuf : Nat) : List UInt8 := mem.read (pbuf + 10) 6

def getAddr3 (mem : Mem) (pbuf : Nat) : List UInt8 := mem.read (pbuf + 16) 6

/-! ## Fields after writes -/

section Fields

variable (mem : Mem) {addr start n : Nat} (bits : UInt16)

theorem readLe16_setBits16_self :
    (setBits16 mem addr bits).readLe16 addr = mem.readLe16 addr ||| bits :=
  Mem.readLe16_write_self mem addr _

theorem readLe16_clearBits16_self :
    (clearBits16 mem addr bits).readLe16 addr = mem.readLe16 addr &&& ~~~bits :=
  Mem.readLe16_write_self mem addr _

theorem read_setBits16 (apart : start + n ≤ addr ∨ addr + 2 ≤ start) :
    (setBits16 mem addr bits).read start n = mem.read start n :=
  Mem.read_write_apart mem apart

theorem read_clearBits16 (apart : start + n ≤ addr ∨ addr + 2 ≤ start) :
    (clearBits16 mem addr bits).read start n = mem.read start n :=
  Mem.read_write_apart mem apart

theorem read_setSeqNum (num : UInt16)
    (apart : start + n ≤ addr + 22 ∨ addr + 24 ≤ start) :
    (setSeqNum mem addr num).read start n = mem.read start n :=
  Mem.read_write_apart mem (by simpa [Nat.add_assoc] using apart)

theorem readLe16_setSeqNum (num : UInt16)
    (apart : start + 2 ≤ addr + 22 ∨ addr + 24 ≤ start) :
    (setSeqNum mem addr num).readLe16 start = mem.readLe16 start :=
  Mem.readLe16_write_apart mem (by simpa [Nat.add_assoc] using apart)

theorem readLe16_setSeqNum_self (num : UInt16) :
    (setSeqNum mem addr num).readLe16 (addr + 22) =
      (mem.readLe16 (addr + 22) &&& ~~~(0xfff0 : UInt16)) |||
        (0xfff0 &&& num <<< (4 : UInt16)) :=
  Mem.readLe16_write_self mem (addr + 22) _

theorem readLe16_setFrameSubType_self (type : UInt16) :
    (setFrameSubType mem addr type).readLe16 addr =
      (mem.readLe16 addr &&& ~~~(0x00FC : UInt16)) ||| type := by
  rw [setFrameSubType, readLe16_setBits16_self, readLe16_clearBits16_self]

theorem read_setFrameSubType (type : UInt16)
    (apart : start + n ≤ addr ∨ addr + 2 ≤ start) :
    (setFrameSubType mem addr type).read start n = mem.read start n := by
  rw [setFrameSubType, read_setBits16 _ _ apart, read_clearBits16 _ _ apart]

end Fields

/-! ## LLC/SNAP -/

def wlRfc1042Header : List UInt8 := [0xaa, 0xaa, 0x03, 0x00, 0x00, 0x00]

def wlBridgeTunnelHeader : List UInt8 := [0xaa, 0xaa, 0x03, 0x00, 0x00, 0xf8]

def snapEthTypeIpx : List UInt8 := [0x81, 0x37]

def snapEthTypeAppletalkAarp : List UInt8 := [0x80, 0xf3]

def snapHdrSize : Nat := 6

def isSnapHdr (mem : Mem) (phdr : Nat) : Bool :=
  (mem.read phdr snapHdrSize == wlRfc1042Header &&
      !(mem.read (phdr + snapHdrSize) 2 == snapEthTypeIpx) &&
      !(mem.read (phdr + snapHdrSize) 2 == snapEthTypeAppletalkAarp)) ||
    mem.read phdr snapHdrSize == wlBridgeTunnelHeader

theorem be16_inj {value other : UInt16} (same : be16 value = be16 other) :
    value = other := by
  simp only [be16, List.cons.injEq, and_true] at same
  rw [← ofLe16_toNat value, same.1, same.2, ofLe16_toNat]

/-! ## Ethernet frames -/

/-- `WF_ETH_HLEN` -/
def ethHlen : Nat := 14

structure EthFrame where
  dest : MacAddr
  src : MacAddr
  type : UInt16
  payload : List UInt8

def EthFrame.bytes (frame : EthFrame) : List UInt8 :=
  frame.dest.toList ++ frame.src.toList ++ be16 frame.type ++ frame.payload

/-! The addresses of a small network. -/

def apAddr : MacAddr := #v[0x02, 0x00, 0x00, 0x00, 0x00, 0x01]

def staAddr : MacAddr := #v[0x02, 0x00, 0x00, 0x00, 0x00, 0x02]

end Smartchip.Frame

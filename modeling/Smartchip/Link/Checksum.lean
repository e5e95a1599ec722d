import Smartchip.Link.Encapsulation

/-!
# The checksum of a frame

`get_crc32` of `nic/sec_wep.c` with the table that `init_crc32` makes, and the order in which
its bytes are sent and compared.
-/

namespace Smartchip.Link

open Smartchip.Foundation Smartchip.Sec Smartchip.Tx Smartchip.Rx

/-- The CRC-32 of a message, bit by bit. -/
def bitwiseCrc32 (buf : List UInt8) : UInt32 :=
  ⟨crcBits crcPoly (buf.flatMap fun byte => lowestFirst byte.toBitVec)⟩

theorem getCrc32_bitwise (buf : List UInt8) : getCrc32 buf = bitwiseCrc32 buf := by
  rw [getCrc32_eq, bitwiseCrc32, crc32_bits, List.flatMap_map]

/-- What `wep_encrypt` and `tkip_encrypt` have in the clear, with what they add. -/
def sentInClear (frame : XmitFrame) (key : List UInt8) (pframe frameLen : Nat) (mem : Mem) :
    List UInt8 :=
  let payload := pframe + frame.hdrlen + frame.ivLen
  let payloadLen := frameLen - (frame.hdrlen + frame.ivLen + frame.icvLen)
  (arc4Encrypt (arc4Init key) ((encryptBody frame key pframe frameLen mem).read payload
    (payloadLen + ((le32 (getCrc32 (mem.read payload payloadLen))).take
      frame.icvLen).length))).1

/-- What `wep_decrypt` and `tkip_decrypt` have after the cipher. -/
def receivedInClear (key : List UInt8) (pkt : RxPkt) : List UInt8 :=
  let payload := pkt.pdata + pkt.info.wlanHdrLen + pkt.info.ivLen
  let payloadLen := pkt.len - (pkt.info.wlanHdrLen + pkt.info.ivLen + pkt.info.icvLen)
  (arc4Encrypt (arc4Init key) (pkt.mem.read payload (payloadLen + pkt.info.icvLen))).1

/-- Two pieces that are encrypted in turn are one piece. -/
theorem written_in_clear (key tail : List UInt8) (pos n : Nat) (mem : Mem) :
    (arc4Encrypt (arc4Init key) (((mem.write pos (arc4Encrypt (arc4Init key)
        (mem.read pos n)).1).write (pos + n) (arc4Encrypt (arc4Encrypt (arc4Init key)
          (mem.read pos n)).2 tail).1).read pos (n + tail.length))).1 =
      mem.read pos n ++ tail := by
  have length : (mem.read pos n).length = n := Mem.length_read mem pos n
  generalize mem.read pos n = body at length
  subst length
  have both := keystreamXor_append arc4Byte (arc4Init key) body tail
  have first : (arc4Encrypt (arc4Init key) body).1.length = body.length :=
    length_keystreamXor ..
  have whole : (arc4Encrypt (arc4Init key) (body ++ tail)).1.length =
      body.length + tail.length := by
    simp [arc4Encrypt]
  have joined : (mem.write pos (arc4Encrypt (arc4Init key) body).1).write (pos + body.length)
      (arc4Encrypt (arc4Encrypt (arc4Init key) body).2 tail).1 =
        mem.write pos (arc4Encrypt (arc4Init key) (body ++ tail)).1 := by
    rw [← first, Mem.write_append]
    exact congrArg (mem.write pos) (congrArg Prod.fst both).symm
  rw [joined, ← whole, Mem.read_write_self]
  exact keystreamXor_involutive arc4Byte (arc4Init key) (body ++ tail)

theorem sentInClear_eq (frame : XmitFrame) (key : List UInt8) (pframe frameLen : Nat)
    (mem : Mem) :
    sentInClear frame key pframe frameLen mem =
      mem.read (pframe + frame.hdrlen + frame.ivLen)
          (frameLen - (frame.hdrlen + frame.ivLen + frame.icvLen)) ++
        (le32 (getCrc32 (mem.read (pframe + frame.hdrlen + frame.ivLen)
          (frameLen - (frame.hdrlen + frame.ivLen + frame.icvLen))))).take frame.icvLen :=
  written_in_clear ..

/-- The checksum is what it is defined to be, and its lowest byte comes first on both
sides. -/
theorem crc32_is_its_definition :
    (∀ buf : List UInt8, getCrc32 buf = bitwiseCrc32 buf) ∧
      (∀ (frame : XmitFrame) (key : List UInt8) (pframe frameLen : Nat) (mem : Mem),
        sentInClear frame key pframe frameLen mem =
          mem.read (pframe + frame.hdrlen + frame.ivLen)
              (frameLen - (frame.hdrlen + frame.ivLen + frame.icvLen)) ++
            (le32 (bitwiseCrc32 (mem.read (pframe + frame.hdrlen + frame.ivLen)
              (frameLen - (frame.hdrlen + frame.ivLen + frame.icvLen))))).take
                frame.icvLen) ∧
      ∀ (key : List UInt8) (pkt : RxPkt),
        (decryptBody key pkt).isSome ↔
          (receivedInClear key pkt).drop
              (pkt.len - (pkt.info.wlanHdrLen + pkt.info.ivLen + pkt.info.icvLen)) =
            (le32 (bitwiseCrc32 ((receivedInClear key pkt).take
              (pkt.len - (pkt.info.wlanHdrLen + pkt.info.ivLen + pkt.info.icvLen))))).take
              pkt.info.icvLen := by
  refine ⟨getCrc32_bitwise, ?_, ?_⟩
  · intro frame key pframe frameLen mem
    rw [sentInClear_eq, getCrc32_bitwise]
  · intro key pkt
    simp only [decryptBody, receivedInClear, ← getCrc32_bitwise]
    split_ifs with differ
    · simp [Ne.symm differ]
    · simp [(not_not.mp differ).symm]

end Smartchip.Link

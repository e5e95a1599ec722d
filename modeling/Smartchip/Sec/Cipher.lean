import Mathlib.Data.List.Basic
import Smartchip.Foundation.Keystream
import Smartchip.Foundation.Memory

/-!
# The ciphers and checksums of the data path

ARC4 (`nic/sec_arc4.c`), the CRC of the ICV (`nic/sec_wep.c`), the Michael MIC
(`nic/sec.c`) and the TKIP key mixing (`nic/sec_tkip.c`).
-/

namespace Smartchip.Sec

open Smartchip.Foundation

inductive EncryptAlgo where
  | noPrivacy
  | wep40
  | tkip
  | tkipWtmic
  | aes
  | wep104
  | sms4
  | wepWpaMixed
  deriving DecidableEq, Repr

abbrev Keytype := Vector UInt8 16

/-- A key of `dot11DefKey` with its length; `wepkey` has room for 13 bytes. -/
structure WepKey where
  skey : List UInt8
  fits : skey.length ≤ 13

structure SecInfo where
  dot11DefKey : UInt8 → WepKey
  dot118021XGrpKeyid : UInt8
  dot118021XGrpKey : UInt8 → Keytype
  dot118021XGrptxmickey : UInt8 → Keytype

def noKeys : SecInfo where
  dot11DefKey := fun _ => ⟨[], by decide⟩
  dot118021XGrpKeyid := 1
  dot118021XGrpKey := fun _ => Vector.replicate 16 0
  dot118021XGrptxmickey := fun _ => Vector.replicate 16 0

/-! ## ARC4 -/

structure Arc4Context where
  x : UInt8
  y : UInt8
  state : Vector UInt8 256

def stateAt (state : Vector UInt8 256) (i : UInt8) : UInt8 :=
  state.get ⟨i.toNat, i.toNat_lt⟩

def stateSet (state : Vector UInt8 256) (i value : UInt8) :
    Vector UInt8 256 :=
  state.set i.toNat value i.toNat_lt

/-- The key schedule; the key is read round and round. -/
def arc4Init (key : List UInt8) : Arc4Context :=
  let scheduled := (List.range 256).foldl
    (fun (acc : Nat × UInt8 × Vector UInt8 256) counter =>
      let t := stateAt acc.2.2 (UInt8.ofNat counter)
      let stateindex := acc.2.1 + key.getD acc.1 0 + t
      let u := stateAt acc.2.2 stateindex
      let state := stateSet (stateSet acc.2.2 stateindex t)
        (UInt8.ofNat counter) u
      (if key.length ≤ acc.1 + 1 then 0 else acc.1 + 1, stateindex, state))
    (0, 0, Vector.ofFn fun i => UInt8.ofNat i.val)
  ⟨0, 0, scheduled.2.2⟩

def arc4Byte (context : Arc4Context) : UInt8 × Arc4Context :=
  let x := context.x + 1
  let sx := stateAt context.state x
  let y := sx + context.y
  let sy := stateAt context.state y
  let state := stateSet (stateSet context.state y sx) x sy
  (stateAt state (sx + sy), ⟨x, y, state⟩)

def arc4Encrypt (context : Arc4Context) (src : List UInt8) :
    List UInt8 × Arc4Context :=
  keystreamXor arc4Byte context src

/-! ## CRC -/

def crc32ReverseBit (data : UInt8) : UInt8 :=
  (data <<< (7 : UInt8) &&& 0x80) ||| (data <<< (5 : UInt8) &&& 0x40) |||
    (data <<< (3 : UInt8) &&& 0x20) ||| (data <<< (1 : UInt8) &&& 0x10) |||
    (data >>> (1 : UInt8) &&& 0x08) ||| (data >>> (3 : UInt8) &&& 0x04) |||
    (data >>> (5 : UInt8) &&& 0x02) ||| (data >>> (7 : UInt8) &&& 0x01)

def crc32Table (i : UInt8) : UInt32 :=
  let c := (List.range 8).foldl
    (fun (c : UInt32) _ => if c &&& 0x80000000 ≠ 0 then (c <<< 1) ^^^ 0x04c11db7
      else c <<< 1)
    ((crc32ReverseBit i).toUInt32 <<< 24)
  (crc32ReverseBit (c >>> 24).toUInt8).toUInt32 |||
    (crc32ReverseBit (c >>> 16).toUInt8).toUInt32 <<< 8 |||
    (crc32ReverseBit (c >>> 8).toUInt8).toUInt32 <<< 16 |||
    (crc32ReverseBit c.toUInt8).toUInt32 <<< 24

def getCrc32 (buf : List UInt8) : UInt32 :=
  ~~~(buf.foldl
    (fun crc byte => crc32Table (crc ^^^ byte.toUInt32).toUInt8 ^^^ (crc >>> 8))
    0xffffffff)

/-! ## The Michael MIC -/

structure MicData where
  k0 : UInt32
  k1 : UInt32
  l : UInt32
  r : UInt32
  m : UInt32
  nBytesInM : UInt32
  deriving DecidableEq, Repr

def rol32 (a n : UInt32) : UInt32 :=
  (a <<< n) ||| ((a >>> (32 - n)) &&& ((1 <<< n) - 1))

def ror32 (a n : UInt32) : UInt32 := rol32 a (32 - n)

def getUsecmic (p : List UInt8) : UInt32 :=
  (p.getD 0 0).toUInt32 ||| (p.getD 1 0).toUInt32 <<< 8 |||
    (p.getD 2 0).toUInt32 <<< 16 ||| (p.getD 3 0).toUInt32 <<< 24

def clrSecmic (mic : MicData) : MicData :=
  { mic with m := 0, nBytesInM := 0, l := mic.k0, r := mic.k1 }

def wfSecMicSetKey (key : List UInt8) : MicData :=
  clrSecmic ⟨getUsecmic key, getUsecmic (key.drop 4), 0, 0, 0, 0⟩

def micBlock (mic : MicData) : MicData :=
  let l := mic.l ^^^ mic.m
  let r := mic.r ^^^ rol32 l 17
  let l := l + r
  let r := r ^^^ (((l &&& 0xff00ff00) >>> 8) ||| ((l &&& 0x00ff00ff) <<< 8))
  let l := l + r
  let r := r ^^^ rol32 l 3
  let l := l + r
  let r := r ^^^ ror32 l 2
  let l := l + r
  { mic with l, r, m := 0, nBytesInM := 0 }

def micAppendByte (mic : MicData) (b : UInt8) : MicData :=
  let mic := { mic with
    m := mic.m ||| b.toUInt32 <<< (8 * mic.nBytesInM)
    nBytesInM := mic.nBytesInM + 1 }
  if 4 ≤ mic.nBytesInM then micBlock mic else mic

def wfSecMicAppend (mic : MicData) (src : List UInt8) : MicData :=
  src.foldl micAppendByte mic

/-- The loop of `wf_sec_get_mic`; at most three more bytes complete a block. -/
def micPad : Nat → MicData → MicData
  | 0, mic => mic
  | fuel + 1, mic =>
      if mic.nBytesInM ≠ 0 then micPad fuel (micAppendByte mic 0) else mic

def wfSecGetMic (mic : MicData) : List UInt8 :=
  let mic := micPad 4 (wfSecMicAppend mic [0x5a, 0, 0, 0, 0])
  le32 mic.l ++ le32 mic.r

/-! ## TKIP key mixing -/

/-- The first half of `Sbox1`; the second half is the same words with their
bytes exchanged. -/
def sbox1 : Array UInt16 :=
  #[
    0xC6A5, 0xF884, 0xEE99, 0xF68D, 0xFF0D, 0xD6BD, 0xDEB1, 0x9154,
    0x6050, 0x0203, 0xCEA9, 0x567D, 0xE719, 0xB562, 0x4DE6, 0xEC9A,
    0x8F45, 0x1F9D, 0x8940, 0xFA87, 0xEF15, 0xB2EB, 0x8EC9, 0xFB0B,
    0x41EC, 0xB367, 0x5FFD, 0x45EA, 0x23BF, 0x53F7, 0xE496, 0x9B5B,
    0x75C2, 0xE11C, 0x3DAE, 0x4C6A, 0x6C5A, 0x7E41, 0xF502, 0x834F,
    0x685C, 0x51F4, 0xD134, 0xF908, 0xE293, 0xAB73, 0x6253, 0x2A3F,
    0x080C, 0x9552, 0x4665, 0x9D5E, 0x3028, 0x37A1, 0x0A0F, 0x2FB5,
    0x0E09, 0x2436, 0x1B9B, 0xDF3D, 0xCD26, 0x4E69, 0x7FCD, 0xEA9F,
    0x121B, 0x1D9E, 0x5874, 0x342E, 0x362D, 0xDCB2, 0xB4EE, 0x5BFB,
    0xA4F6, 0x764D, 0xB761, 0x7DCE, 0x527B, 0xDD3E, 0x5E71, 0x1397,
    0xA6F5, 0xB968, 0x0000, 0xC12C, 0x4060, 0xE31F, 0x79C8, 0xB6ED,
    0xD4BE, 0x8D46, 0x67D9, 0x724B, 0x94DE, 0x98D4, 0xB0E8, 0x854A,
    0xBB6B, 0xC52A, 0x4FE5, 0xED16, 0x86C5, 0x9AD7, 0x6655, 0x1194,
    0x8ACF, 0xE910, 0x0406, 0xFE81, 0xA0F0, 0x7844, 0x25BA, 0x4BE3,
    0xA2F3, 0x5DFE, 0x80C0, 0x058A, 0x3FAD, 0x21BC, 0x7048, 0xF104,
    0x63DF, 0x77C1, 0xAF75, 0x4263, 0x2030, 0xE51A, 0xFD0E, 0xBF6D,
    0x814C, 0x1814, 0x2635, 0xC32F, 0xBEE1, 0x35A2, 0x88CC, 0x2E39,
    0x9357, 0x55F2, 0xFC82, 0x7A47, 0xC8AC, 0xBAE7, 0x322B, 0xE695,
    0xC0A0, 0x1998, 0x9ED1, 0xA37F, 0x4466, 0x547E, 0x3BAB, 0x0B83,
    0x8CCA, 0xC729, 0x6BD3, 0x283C, 0xA779, 0xBCE2, 0x161D, 0xAD76,
    0xDB3B, 0x6456, 0x744E, 0x141E, 0x92DB, 0x0C0A, 0x486C, 0xB8E4,
    0x9F5D, 0xBD6E, 0x43EF, 0xC4A6, 0x39A8, 0x31A4, 0xD337, 0xF28B,
    0xD532, 0x8B43, 0x6E59, 0xDAB7, 0x018C, 0xB164, 0x9CD2, 0x49E0,
    0xD8B4, 0xACFA, 0xF307, 0xCF25, 0xCAAF, 0xF48E, 0x47E9, 0x1018,
    0x6FD5, 0xF088, 0x4A6F, 0x5C72, 0x3824, 0x57F1, 0x73C7, 0x9751,
    0xCB23, 0xA17C, 0xE89C, 0x3E21, 0x96DD, 0x61DC, 0x0D86, 0x0F85,
    0xE090, 0x7C42, 0x71C4, 0xCCAA, 0x90D8, 0x0605, 0xF701, 0x1C12,
    0xC2A3, 0x6A5F, 0xAEF9, 0x69D0, 0x1791, 0x9958, 0x3A27, 0x27B9,
    0xD938, 0xEB13, 0x2BB3, 0x2233, 0xD2BB, 0xA970, 0x0789, 0x33A7,
    0x2DB6, 0x3C22, 0x1592, 0xC920, 0x8749, 0xAAFF, 0x5078, 0xA57A,
    0x038F, 0x59F8, 0x0980, 0x1A17, 0x65DA, 0xD731, 0x84C6, 0xD0B8,
    0x82C3, 0x29B0, 0x5A77, 0x1E11, 0x7BCB, 0xA8FC, 0x6DD6, 0x2C3A
  ]

def swapBytes (word : UInt16) : UInt16 := (word >>> 8) ||| (word <<< 8)

def lo8 (v16 : UInt16) : UInt8 := v16.toUInt8

def hi8 (v16 : UInt16) : UInt8 := (v16 >>> 8).toUInt8

def mk16 (hi lo : UInt8) : UInt16 := lo.toUInt16 ^^^ (hi.toUInt16 <<< 8)

def rotR1 (v16 : UInt16) : UInt16 :=
  (v16 >>> (1 : UInt16) &&& 0x7FFF) ^^^ (v16 &&& 1) <<< (15 : UInt16)

def sboxWord (v16 : UInt16) : UInt16 :=
  sbox1.getD (lo8 v16).toNat 0 ^^^ swapBytes (sbox1.getD (hi8 v16).toNat 0)

def tk16 (tk : List UInt8) (n : Nat) : UInt16 :=
  mk16 (tk.getD (2 * n + 1) 0) (tk.getD (2 * n) 0)

structure Phase1Key where
  p0 : UInt16
  p1 : UInt16
  p2 : UInt16
  p3 : UInt16
  p4 : UInt16
  deriving DecidableEq, Repr

def phase1 (tk ta : List UInt8) (iv32 : UInt32) : Phase1Key :=
  (List.range 8).foldl
    (fun p1k i =>
      let p0 := p1k.p0 + sboxWord (p1k.p4 ^^^ tk16 tk (i % 2))
      let p1 := p1k.p1 + sboxWord (p0 ^^^ tk16 tk (i % 2 + 2))
      let p2 := p1k.p2 + sboxWord (p1 ^^^ tk16 tk (i % 2 + 4))
      let p3 := p1k.p3 + sboxWord (p2 ^^^ tk16 tk (i % 2 + 6))
      let p4 := p1k.p4 + sboxWord (p3 ^^^ tk16 tk (i % 2)) + UInt16.ofNat i
      ⟨p0, p1, p2, p3, p4⟩)
    ⟨iv32.toUInt16, (iv32 >>> 16).toUInt16, mk16 (ta.getD 1 0) (ta.getD 0 0),
      mk16 (ta.getD 3 0) (ta.getD 2 0), mk16 (ta.getD 5 0) (ta.getD 4 0)⟩

def phase2 (tk : List UInt8) (p1k : Phase1Key) (iv16 : UInt16) :
    List UInt8 :=
  let q5 := p1k.p4 + iv16
  let q0 := p1k.p0 + sboxWord (q5 ^^^ tk16 tk 0)
  let q1 := p1k.p1 + sboxWord (q0 ^^^ tk16 tk 1)
  let q2 := p1k.p2 + sboxWord (q1 ^^^ tk16 tk 2)
  let q3 := p1k.p3 + sboxWord (q2 ^^^ tk16 tk 3)
  let q4 := p1k.p4 + sboxWord (q3 ^^^ tk16 tk 4)
  let q5 := q5 + sboxWord (q4 ^^^ tk16 tk 5)
  let q0 := q0 + rotR1 (q5 ^^^ tk16 tk 6)
  let q1 := q1 + rotR1 (q0 ^^^ tk16 tk 7)
  let q2 := q2 + rotR1 q1
  let q3 := q3 + rotR1 q2
  let q4 := q4 + rotR1 q3
  let q5 := q5 + rotR1 q4
  [hi8 iv16, (hi8 iv16 ||| 0x20) &&& 0x7F, lo8 iv16,
    lo8 ((q5 ^^^ tk16 tk 0) >>> 1),
    lo8 q0, hi8 q0, lo8 q1, hi8 q1, lo8 q2, hi8 q2,
    lo8 q3, hi8 q3, lo8 q4, hi8 q4, lo8 q5, hi8 q5]

/-- The packet key from the temporal key, the transmitter address and the IV
field (`GET_TKIP_PN`, `phase1`, `phase2`). -/
def tkipPacketKey (tk ta iv : List UInt8) : List UInt8 :=
  let pnl : UInt16 := mk16 (iv.getD 0 0) (iv.getD 2 0)
  let pnh : UInt32 := (iv.getD 4 0).toUInt32 ||| (iv.getD 5 0).toUInt32 <<< 8 |||
    (iv.getD 6 0).toUInt32 <<< 16 ||| (iv.getD 7 0).toUInt32 <<< 24
  phase2 tk (phase1 tk ta pnh) pnl

/-! ## Sealing and opening a frame body -/

def wepKeyOf (sec : SecInfo) (iv : List UInt8) : List UInt8 :=
  iv.take 3 ++ (sec.dot11DefKey ((iv.getD 3 0 >>> 6) &&& 0x3)).skey

def sealBody (key body : List UInt8) : List UInt8 :=
  let encrypted := arc4Encrypt (arc4Init key) body
  encrypted.1 ++ (arc4Encrypt encrypted.2 (le32 (getCrc32 body))).1

@[simp] theorem length_sealBody (key body : List UInt8) :
    (sealBody key body).length = body.length + 4 := by
  simp [sealBody, arc4Encrypt]

theorem arc4Encrypt_sealBody (key body : List UInt8) :
    (arc4Encrypt (arc4Init key) (sealBody key body)).1 =
      body ++ le32 (getCrc32 body) := by
  have whole : sealBody key body =
      (arc4Encrypt (arc4Init key) (body ++ le32 (getCrc32 body))).1 := by
    simp only [sealBody, arc4Encrypt, keystreamXor_append]
  rw [whole]
  exact keystreamXor_involutive arc4Byte (arc4Init key) _

end Smartchip.Sec

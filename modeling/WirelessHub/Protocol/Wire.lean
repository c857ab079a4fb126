import WirelessHub.Framework.Framing

/-!
# Wire protocol

The packet header and payloads shared by the daemon and the firmware (`Protocol.h`).
Structures are packed and multi-byte fields are little-endian, so each one is read by
position from a byte list and written as a byte list.
-/

namespace WirelessHub

open Framework

def daemonPort : UInt16 := 7788
def deviceBasePort : UInt16 := 7789
def mtuPayload : Nat := 1400

inductive CmdType
  | discover | discoverReply | deviceEvent | rawData | rawFrag | log | error
  deriving DecidableEq, Repr

def CmdType.toByte : CmdType → UInt8
  | .discover => 0x01
  | .discoverReply => 0x02
  | .deviceEvent => 0x10
  | .rawData => 0x30
  | .rawFrag => 0x31
  | .log => 0x50
  | .error => 0xFF

inductive DeviceEvent
  | connect | disconnect
  deriving DecidableEq, Repr

def DeviceEvent.toByte : DeviceEvent → UInt8
  | .connect => 0x01
  | .disconnect => 0x02

inductive LogLevel
  | error | warn | info | debug | verbose
  deriving DecidableEq, Repr

def LogLevel.toByte : LogLevel → UInt8
  | .error => 0x01
  | .warn => 0x02
  | .info => 0x03
  | .debug => 0x04
  | .verbose => 0x05

def le16 (w : UInt16) : List UInt8 :=
  [UInt8.ofNat (w.toNat % 256), UInt8.ofNat (w.toNat / 256)]

def ofLe16 (lo hi : UInt8) : UInt16 := UInt16.ofNat (lo.toNat + 256 * hi.toNat)

private theorem ofLe16_le16 (w : UInt16) :
    ofLe16 (UInt8.ofNat (w.toNat % 256)) (UInt8.ofNat (w.toNat / 256)) = w := by
  have hw : w.toNat < 65536 := w.toNat_lt
  apply UInt16.toNat_inj.mp
  simp only [ofLe16, UInt16.toNat_ofNat', UInt8.toNat_ofNat']
  omega

structure Header where
  cmdType : UInt8
  deviceId : UInt8
  endpoint : UInt8
  seq : UInt8
  payloadLen : UInt16
  deriving DecidableEq, Repr

def Header.size : Nat := 6

def Header.encode (h : Header) : List UInt8 :=
  [h.cmdType, h.deviceId, h.endpoint, h.seq] ++ le16 h.payloadLen

/-- `memcpy` of the first six bytes into a header. -/
def Header.decode (b : List UInt8) : Header where
  cmdType := b.getD 0 0
  deviceId := b.getD 1 0
  endpoint := b.getD 2 0
  seq := b.getD 3 0
  payloadLen := ofLe16 (b.getD 4 0) (b.getD 5 0)

@[simp] theorem Header.length_encode (h : Header) : h.encode.length = Header.size := rfl

@[simp] theorem Header.decode_encode (h : Header) (rest : List UInt8) :
    Header.decode (h.encode ++ rest) = h := by
  change Header.mk h.cmdType h.deviceId h.endpoint h.seq
    (ofLe16 (UInt8.ofNat (h.payloadLen.toNat % 256))
      (UInt8.ofNat (h.payloadLen.toNat / 256))) = h
  rw [ofLe16_le16]

theorem Header.decode_encode_self (h : Header) : Header.decode h.encode = h := by
  rw [← List.append_nil h.encode, Header.decode_encode]

theorem Header.payloadLen_pos {h : Header} (hne : h.payloadLen ≠ 0) : 0 < h.payloadLen.toNat := by
  rw [Nat.pos_iff_ne_zero]
  exact fun h0 => hne (UInt16.toNat_inj.mp h0)

/-- The framing of a TCP connection: a header and `payload_len` bytes behind it. -/
def headerCodec : HeaderCodec Header UInt8 where
  size := Header.size
  size_pos := by decide
  encode := Header.encode
  decode := Header.decode
  payloadLen h := h.payloadLen.toNat
  encode_length := Header.length_encode
  decode_encode := Header.decode_encode

abbrev Packet := Frame headerCodec

theorem Packet.payload_eq_nil {p : Packet} (hzero : p.header.payloadLen = 0) : p.payload = [] := by
  have hlen : p.payload.length = p.header.payloadLen.toNat := p.payload_length
  rw [← List.length_eq_zero_iff, hlen, hzero]
  rfl

structure DeviceEventPayload where
  deviceId : UInt8
  event : UInt8
  speed : UInt8
  usbClass : UInt8
  subclass : UInt8
  protocol : UInt8
  replyPort : UInt16
  deriving DecidableEq, Repr

def DeviceEventPayload.size : Nat := 8

def DeviceEventPayload.encode (p : DeviceEventPayload) : List UInt8 :=
  [p.deviceId, p.event, p.speed, p.usbClass, p.subclass, p.protocol] ++ le16 p.replyPort

def DeviceEventPayload.decode (b : List UInt8) : DeviceEventPayload where
  deviceId := b.getD 0 0
  event := b.getD 1 0
  speed := b.getD 2 0
  usbClass := b.getD 3 0
  subclass := b.getD 4 0
  protocol := b.getD 5 0
  replyPort := ofLe16 (b.getD 6 0) (b.getD 7 0)

def discoverReplyPayload : List UInt8 := le16 daemonPort

/-- The fragment header that follows the packet header of `CMD_RAW_FRAG`. -/
structure FragHeader where
  transferSeq : UInt16
  fragIdx : UInt8
  fragTotal : UInt8
  deriving DecidableEq, Repr

def FragHeader.size : Nat := 4

def FragHeader.encode (f : FragHeader) : List UInt8 :=
  le16 f.transferSeq ++ [f.fragIdx, f.fragTotal]

def FragHeader.decode (b : List UInt8) : FragHeader where
  transferSeq := ofLe16 (b.getD 0 0) (b.getD 1 0)
  fragIdx := b.getD 2 0
  fragTotal := b.getD 3 0

@[simp] theorem FragHeader.length_encode (f : FragHeader) : f.encode.length = FragHeader.size := rfl

@[simp] theorem FragHeader.decode_encode (f : FragHeader) (rest : List UInt8) :
    FragHeader.decode (f.encode ++ rest) = f := by
  change FragHeader.mk (ofLe16 (UInt8.ofNat (f.transferSeq.toNat % 256))
    (UInt8.ofNat (f.transferSeq.toNat / 256))) f.fragIdx f.fragTotal = f
  rw [ofLe16_le16]

end WirelessHub

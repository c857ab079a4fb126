import WirelessHub.Protocol.Wire

/-!
# USB/IP messages

The USB/IP structures of `usbip_proto.h`. All fields are big-endian on the wire; a field is
kept here in host order, so echoing a field and converting it back and forth are the same.
The stream that the kernel writes is a sequence of 48-byte headers, each followed by the
data of an OUT transfer.
-/

namespace WirelessHub

open Framework

def be32 (w : UInt32) : List UInt8 :=
  [UInt8.ofNat (w.toNat / 16777216), UInt8.ofNat (w.toNat / 65536 % 256),
    UInt8.ofNat (w.toNat / 256 % 256), UInt8.ofNat (w.toNat % 256)]

def ofBe32 (b₀ b₁ b₂ b₃ : UInt8) : UInt32 :=
  UInt32.ofNat (b₀.toNat * 16777216 + b₁.toNat * 65536 + b₂.toNat * 256 + b₃.toNat)

/-- The word at an offset; bytes behind the end count as zero. -/
def be32At (b : List UInt8) (i : Nat) : UInt32 :=
  ofBe32 (b.getD i 0) (b.getD (i + 1) 0) (b.getD (i + 2) 0) (b.getD (i + 3) 0)

private theorem ofBe32_be32 (w : UInt32) :
    ofBe32 (UInt8.ofNat (w.toNat / 16777216)) (UInt8.ofNat (w.toNat / 65536 % 256))
      (UInt8.ofNat (w.toNat / 256 % 256)) (UInt8.ofNat (w.toNat % 256)) = w := by
  have hw : w.toNat < 4294967296 := w.toNat_lt
  apply UInt32.toNat_inj.mp
  simp only [ofBe32, UInt32.toNat_ofNat', UInt8.toNat_ofNat']
  omega

theorem be32At_head (w : UInt32) (rest : List UInt8) : be32At (be32 w ++ rest) 0 = w :=
  ofBe32_be32 w

theorem be32At_skip (w : UInt32) (rest : List UInt8) (i : Nat) :
    be32At (be32 w ++ rest) (i + 4) = be32At rest i := rfl

theorem drop_be32 (w : UInt32) (rest : List UInt8) (i : Nat) :
    (be32 w ++ rest).drop (i + 4) = rest.drop i := by
  rw [Nat.add_comm, ← List.drop_drop, List.drop_left' (show (be32 w).length = 4 from rfl)]

theorem take_be32 (w : UInt32) (rest : List UInt8) : (be32 w ++ rest).take 4 = be32 w :=
  List.take_left' rfl

private theorem be32_ofBe32 (b₀ b₁ b₂ b₃ : UInt8) : be32 (ofBe32 b₀ b₁ b₂ b₃) =
    [b₀, b₁, b₂, b₃] := by
  have h₀ := b₀.toNat_lt
  have h₁ := b₁.toNat_lt
  have h₂ := b₂.toNat_lt
  have h₃ := b₃.toNat_lt
  simp only [be32, ofBe32, UInt32.toNat_ofNat', List.cons.injEq, and_true, ← UInt8.toNat_inj,
    UInt8.toNat_ofNat']
  omega

theorem be32_be32At {b : List UInt8} {i : Nat} (h : i + 4 ≤ b.length) :
    be32 (be32At b i) = (b.drop i).take 4 := by
  have hdrop : ∀ k, b.getD (i + k) 0 = (b.drop i).getD k 0 := by
    intro k
    simp only [List.getD_eq_getElem?_getD, List.getElem?_drop]
  have hlen : 4 ≤ (b.drop i).length := by
    rw [List.length_drop]
    omega
  rw [be32At, be32_ofBe32, hdrop 1, hdrop 2, hdrop 3, ← Nat.add_zero i, hdrop 0, Nat.add_zero]
  match b.drop i, hlen with
  | b₀ :: b₁ :: b₂ :: b₃ :: rest, _ => rfl

def usbipCmdSubmit : UInt32 := 1
def usbipCmdUnlink : UInt32 := 2
def usbipRetSubmit : UInt32 := 3
def usbipRetUnlink : UInt32 := 4

def usbipDirOut : UInt32 := 0
def usbipDirIn : UInt32 := 1

@[ext] structure CmdSubmit where
  command : UInt32
  seqnum : UInt32
  devid : UInt32
  direction : UInt32
  ep : UInt32
  transferFlags : UInt32
  transferBufferLength : UInt32
  startFrame : UInt32
  numberOfPackets : UInt32
  interval : UInt32
  setup : Vector UInt8 8
  deriving DecidableEq

def CmdSubmit.size : Nat := 48

def CmdSubmit.encode (c : CmdSubmit) : List UInt8 :=
  be32 c.command ++ be32 c.seqnum ++ be32 c.devid ++ be32 c.direction ++ be32 c.ep ++
    be32 c.transferFlags ++ be32 c.transferBufferLength ++ be32 c.startFrame ++
    be32 c.numberOfPackets ++ be32 c.interval ++ c.setup.toList

/-- `memcpy` of the first 48 bytes into the structure. -/
def CmdSubmit.decode (b : List UInt8) : CmdSubmit where
  command := be32At b 0
  seqnum := be32At b 4
  devid := be32At b 8
  direction := be32At b 12
  ep := be32At b 16
  transferFlags := be32At b 20
  transferBufferLength := be32At b 24
  startFrame := be32At b 28
  numberOfPackets := be32At b 32
  interval := be32At b 36
  setup := Vector.ofFn fun i => b.getD (i + 40) 0

@[simp] theorem CmdSubmit.length_encode (c : CmdSubmit) : c.encode.length = CmdSubmit.size := by
  simp [encode, be32, size]

private theorem CmdSubmit.decode_setup (c : CmdSubmit) (rest : List UInt8) :
    (decode (c.encode ++ rest)).setup = c.setup := by
  ext i hi
  have hskip : (c.encode ++ rest).getD (i + 40) 0 = (c.setup.toList ++ rest).getD i 0 := by
    rw [encode, List.append_assoc]
    rfl
  rw [decode, Vector.getElem_ofFn, hskip, List.getD_eq_getElem?_getD,
    List.getElem?_append_left (by simpa using hi)]
  simp [hi]

theorem CmdSubmit.decode_encode (c : CmdSubmit) (rest : List UInt8) :
    CmdSubmit.decode (c.encode ++ rest) = c := by
  ext1
  case setup => exact c.decode_setup rest
  all_goals simp only [decode, encode, List.append_assoc, be32At_skip, be32At_head]

/-- The data that follows a header: an OUT transfer brings its buffer along. -/
def CmdSubmit.dataLen (c : CmdSubmit) : Nat :=
  if c.command = usbipCmdSubmit ∧ c.direction = usbipDirOut then c.transferBufferLength.toNat else 0

/-- The framing of the stream between the kernel and the daemon. -/
def usbipCodec : HeaderCodec CmdSubmit UInt8 where
  size := CmdSubmit.size
  size_pos := by decide
  encode := CmdSubmit.encode
  decode := CmdSubmit.decode
  payloadLen := CmdSubmit.dataLen
  encode_length := CmdSubmit.length_encode
  decode_encode := CmdSubmit.decode_encode

/-- A request that the kernel writes: a submit or an unlink, with the data that belongs to it.
The sequence number of an unlink stands where that of a submit stands. -/
structure UsbipRequest extends Frame usbipCodec where
  isRequest : header.command = usbipCmdSubmit ∨ header.command = usbipCmdUnlink

namespace UsbipRequest

def bytes (r : UsbipRequest) : List UInt8 := r.toFrame.bytes
def seqnum (r : UsbipRequest) : UInt32 := r.header.seqnum

end UsbipRequest

/-- `usbip_ret_submit_t` without its constant fields. -/
structure RetSubmit where
  seqnum : UInt32
  direction : UInt32
  ep : UInt32
  status : UInt32
  actualLength : UInt32
  deriving DecidableEq, Repr

/-- The reply header; `devid`, `start_frame`, `error_count` and the padding are zero. -/
def RetSubmit.encode (r : RetSubmit) : List UInt8 :=
  be32 usbipRetSubmit ++ be32 r.seqnum ++ be32 0 ++ be32 r.direction ++ be32 r.ep ++
    be32 r.status ++ be32 r.actualLength ++ be32 0 ++ be32 0xFFFFFFFF ++ be32 0 ++
    List.replicate 8 0

def retUnlink (seqnum : UInt32) : List UInt8 :=
  be32 usbipRetUnlink ++ be32 seqnum ++ List.replicate 40 0

end WirelessHub

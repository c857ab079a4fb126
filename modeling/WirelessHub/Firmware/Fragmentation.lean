import WirelessHub.Firmware.Delivery
import WirelessHub.Firmware.Replies

/-!
# Fragmentation of frames

`send_raw` as a partition: a frame goes out in one datagram, in a row of fragments that put it
together again, or not at all. The transfer number of a session counts its calls with more than
one datagram, so a number comes again only after all others were used.
-/

namespace WirelessHub.Firmware

open Framework

/-- A datagram of `CMD_RAW_FRAG`. -/
structure Fragment where
  header : Header
  frag : FragHeader
  chunk : List UInt8

def Fragment.bytes (f : Fragment) : List UInt8 := f.header.encode ++ (f.frag.encode ++ f.chunk)

private theorem fragCount_le_iff (data : List UInt8) :
    fragCount data ≤ 255 ↔ data.length ≤ 255 * 1400 := by
  simp only [fragCount, mtuPayload]
  omega

namespace Session

variable {s : Session} {fd : Nat} {data : List UInt8}

def fragmentOf (s : Session) (data : List UInt8) (i : Nat) : Fragment where
  header := s.fragHeader data i
  frag := ⟨s.outTransferSeq, UInt8.ofNat i, UInt8.ofNat (fragCount data)⟩
  chunk := block mtuPayload data i

private theorem sendRaw_of_fragmented (hsock : s.sock = some fd) (hmin : mtuPayload < data.length)
    (hmax : fragCount data ≤ 255) : s.sendRaw data =
      ({ s with outTransferSeq := s.outTransferSeq + 1, seq := s.seq + UInt8.ofNat (fragCount data) },
        (List.range (fragCount data)).map fun i => .sendto s.dest (s.fragmentOf data i).bytes) := by
  have hcount : ¬(data.length + mtuPayload - 1) / mtuPayload > 255 := Nat.not_lt.mpr hmax
  simp only [sendRaw, hsock, if_neg (Nat.not_le.mpr hmin), if_neg hcount, fragment_eq]
  rfl

private theorem sendRaw_of_long (hsock : s.sock = some fd) (hmax : 255 < fragCount data) :
    s.sendRaw data = ({ s with outTransferSeq := s.outTransferSeq + 1 }, []) := by
  have hmin : ¬data.length ≤ mtuPayload := by
    simp only [fragCount, mtuPayload] at hmax ⊢
    omega
  have hcount : (data.length + mtuPayload - 1) / mtuPayload > 255 := hmax
  simp only [sendRaw, hsock, if_neg hmin, if_pos hcount]

private theorem fragmentOf_spec (hmax : fragCount data ≤ 255) {i : Nat} (hi : i < fragCount data) :
    (s.fragmentOf data i).frag.fragIdx.toNat = i ∧
    (s.fragmentOf data i).frag.fragTotal.toNat = fragCount data ∧
    (s.fragmentOf data i).header.payloadLen.toNat = 4 + (s.fragmentOf data i).chunk.length ∧
    1 ≤ (s.fragmentOf data i).chunk.length ∧ (s.fragmentOf data i).chunk.length ≤ 1400 ∧
    (s.fragmentOf data i).header.seq.toNat = (s.seq.toNat + i) % 256 := by
  have hlen : (block mtuPayload data i).length = min 1400 (data.length - i * 1400) := by
    rw [block, List.length_take, List.length_drop]
    rfl
  have hbefore : i * 1400 < data.length := by
    simp only [fragCount, mtuPayload] at hi
    omega
  simp only [fragmentOf, fragHeader, UInt8.toNat_ofNat', UInt16.toNat_ofNat', FragHeader.size, hlen,
    UInt8.toNat_add]
  omega

def sentAll (s : Session) (calls : List (List UInt8)) : Session :=
  calls.foldl (fun s data => (s.sendRaw data).1) s

private theorem sentAll_sock (s : Session) (calls : List (List UInt8)) : (s.sentAll calls).sock = s.sock := by
  induction calls generalizing s with
  | nil => rfl
  | cons data calls ih => exact (ih _).trans (s.sendRaw_sock data)

def numbered (calls : List (List UInt8)) : Nat :=
  (calls.filter fun data => mtuPayload < data.length).length

private theorem numbered_cons (data : List UInt8) (calls : List (List UInt8)) :
    numbered (data :: calls) = numbered calls + if mtuPayload < data.length then 1 else 0 := by
  rw [numbered, List.filter_cons]
  by_cases hlong : mtuPayload < data.length
  · rw [if_pos (decide_eq_true hlong), if_pos hlong]
    rfl
  · rw [if_neg (by simpa using hlong), if_neg hlong]
    rfl

private theorem outTransferSeq_sendRaw (hsock : s.sock = some fd) (data : List UInt8) :
    (s.sendRaw data).1.outTransferSeq =
      if mtuPayload < data.length then s.outTransferSeq + 1 else s.outTransferSeq := by
  simp only [sendRaw, hsock]
  split_ifs <;> first | rfl | omega

private theorem outTransferSeq_sentAll (hsock : s.sock = some fd) (calls : List (List UInt8)) :
    (s.sentAll calls).outTransferSeq.toNat = (s.outTransferSeq.toNat + numbered calls) % 65536 := by
  induction calls generalizing s with
  | nil => exact (Nat.mod_eq_of_lt s.outTransferSeq.toNat_lt).symm
  | cons data calls ih =>
    have hrest := ih ((s.sendRaw_sock data).trans hsock)
    rw [outTransferSeq_sendRaw hsock] at hrest
    change (s.sentAll (data :: calls)).outTransferSeq.toNat = _ at hrest
    rw [hrest, numbered_cons]
    split
    · rw [UInt16.toNat_add]
      change ((s.outTransferSeq.toNat + 1) % 65536 + numbered calls) % 65536 = _
      omega
    · rfl

private theorem transferSeq_of_mem_sendRaw (hsock : s.sock = some fd)
    (hmin : mtuPayload < data.length)
    (hmax : fragCount data ≤ 255) {dest : SockAddr} {bytes : List UInt8}
    (h : .sendto dest bytes ∈ (s.sendRaw data).2) :
    (FragHeader.decode (bytes.drop Header.size)).transferSeq = s.outTransferSeq := by
  rw [sendRaw_of_fragmented hsock hmin hmax] at h
  obtain ⟨i, -, heq⟩ := List.mem_map.mp h
  rw [← (Effect.sendto.inj heq).2, Fragment.bytes, List.drop_left' (Header.length_encode _),
    FragHeader.decode_encode]
  rfl

private theorem sendRaw_single (hsock : s.sock = some fd) (hlen : data.length ≤ 1400) :
    ∃ header : Header, (s.sendRaw data).2 = [.sendto s.dest (header.encode ++ data)] ∧
      header.cmdType = CmdType.rawData.toByte ∧ header.payloadLen.toNat = data.length ∧
      header.seq = s.seq ∧ (s.sendRaw data).1.seq = s.seq + 1 := by
  refine ⟨s.rawHeader data.length, s.sendRaw_of_short hsock hlen, rfl, ?_, rfl, ?_⟩
  · simp only [rawHeader, UInt16.toNat_ofNat']
    omega
  · simp only [sendRaw, hsock, mtuPayload, hlen, if_true]

/-- The fragments of a frame are a partition of it. -/
theorem sendRaw_fragments (hsock : s.sock = some fd) (hmin : 1400 < data.length)
    (hmax : data.length ≤ 255 * 1400) :
    ∃ frags : List Fragment, (s.sendRaw data).2 = frags.map (fun f => .sendto s.dest f.bytes) ∧
      (data.length ≤ 1400 * frags.length ∧ 1400 * frags.length < data.length + 1400) ∧
      frags.flatMap Fragment.chunk = data ∧
      (s.sendRaw data).1.seq.toNat = (s.seq.toNat + frags.length) % 256 ∧
      ∀ (i : Nat) (f : Fragment), frags[i]? = some f →
        f.header.cmdType = CmdType.rawFrag.toByte ∧
        f.header.seq.toNat = (s.seq.toNat + i) % 256 ∧
        f.header.payloadLen.toNat = 4 + f.chunk.length ∧
        f.frag.transferSeq = s.outTransferSeq ∧
        f.frag.fragIdx.toNat = i ∧ f.frag.fragTotal.toNat = frags.length ∧
        1 ≤ f.chunk.length ∧ f.chunk.length ≤ 1400 := by
  have hcount := (fragCount_le_iff data).mpr hmax
  have hlen : ((List.range (fragCount data)).map (s.fragmentOf data)).length = fragCount data := by
    rw [List.length_map, List.length_range]
  refine ⟨(List.range (fragCount data)).map (s.fragmentOf data), ?_, ?_, ?_, ?_, ?_⟩
  · rw [sendRaw_of_fragmented hsock hmin hcount, List.map_map]
    rfl
  · rw [hlen, fragCount, mtuPayload]
    omega
  · rw [List.flatMap_map]
    exact flatMap_block_of_le (length_le_fragCount data)
  · rw [sendRaw_of_fragmented hsock hmin hcount, hlen]
    simp only [UInt8.toNat_add, UInt8.toNat_ofNat']
    omega
  · intro i f hf
    rw [List.getElem?_map, Option.map_eq_some_iff] at hf
    obtain ⟨j, hj, rfl⟩ := hf
    obtain ⟨hi, rfl⟩ := List.getElem?_eq_some_iff.mp hj
    rw [List.length_range] at hi
    rw [List.getElem_range, hlen]
    obtain ⟨hidx, htotal, hpayload, hpos, hle, hseq⟩ := s.fragmentOf_spec hcount hi
    exact ⟨rfl, hseq, hpayload, rfl, hidx, htotal, hpos, hle⟩

/-- A transfer number comes again after all others. -/
theorem numbered_of_transferSeq_eq (hsock : s.sock = some fd) (hmin : mtuPayload < data.length)
    {others : List (List UInt8)} (h : s.outTransferSeq = (s.sentAll (data :: others)).outTransferSeq) :
    65535 ≤ numbered others := by
  have hafter := outTransferSeq_sentAll hsock (data :: others)
  have hlt := s.outTransferSeq.toNat_lt
  rw [← h, numbered_cons, if_pos hmin] at hafter
  omega

end Session

/-- For every frame and every session with a socket: `send_raw` sends a frame of up to 1400
bytes as it is, a frame of more than 255 times as many not at all, and any other in numbered
chunks that put it together again. Two frames with the same transfer number have at least 65535
calls between them that used the others. -/
theorem send_raw_partition {s : Session} {fd : Nat} (hsock : s.sock = some fd) (data : List UInt8) :
    (data.length ≤ 1400 →
      ∃ header : Header, (s.sendRaw data).2 = [.sendto s.dest (header.encode ++ data)] ∧
        header.cmdType = CmdType.rawData.toByte ∧ header.payloadLen.toNat = data.length ∧
        header.seq = s.seq ∧ (s.sendRaw data).1.seq = s.seq + 1) ∧
    (255 * 1400 < data.length → (s.sendRaw data).2 = []) ∧
    (1400 < data.length → data.length ≤ 255 * 1400 →
      ∃ frags : List Fragment, (s.sendRaw data).2 = frags.map (fun f => .sendto s.dest f.bytes) ∧
        (data.length ≤ 1400 * frags.length ∧ 1400 * frags.length < data.length + 1400) ∧
        frags.flatMap Fragment.chunk = data ∧
        (s.sendRaw data).1.seq.toNat = (s.seq.toNat + frags.length) % 256 ∧
        ∀ (i : Nat) (f : Fragment), frags[i]? = some f →
          f.header.cmdType = CmdType.rawFrag.toByte ∧
          f.header.seq.toNat = (s.seq.toNat + i) % 256 ∧
          f.header.payloadLen.toNat = 4 + f.chunk.length ∧
          f.frag.transferSeq = s.outTransferSeq ∧
          f.frag.fragIdx.toNat = i ∧ f.frag.fragTotal.toNat = frags.length ∧
          1 ≤ f.chunk.length ∧ f.chunk.length ≤ 1400) ∧
    ∀ (others : List (List UInt8)) (later x y : List UInt8) (dest dest' : SockAddr),
      1400 < data.length → data.length ≤ 255 * 1400 →
      1400 < later.length → later.length ≤ 255 * 1400 →
      .sendto dest x ∈ (s.sendRaw data).2 →
      .sendto dest' y ∈ ((s.sentAll (data :: others)).sendRaw later).2 →
      (FragHeader.decode (x.drop Header.size)).transferSeq =
        (FragHeader.decode (y.drop Header.size)).transferSeq →
      65535 ≤ (others.filter fun other => 1400 < other.length).length := by
  refine ⟨s.sendRaw_single hsock, ?_, s.sendRaw_fragments hsock, ?_⟩
  · intro hlong
    have hcount : 255 < fragCount data := Nat.lt_of_not_le ((fragCount_le_iff data).not.mpr (by omega))
    rw [Session.sendRaw_of_long hsock hcount]
  · intro others later x y dest dest' hmin hmax hmin' hmax' hx hy hsame
    have hsock' := (s.sentAll_sock (data :: others)).trans hsock
    rw [Session.transferSeq_of_mem_sendRaw hsock hmin ((fragCount_le_iff data).mpr hmax) hx,
      Session.transferSeq_of_mem_sendRaw hsock' hmin' ((fragCount_le_iff later).mpr hmax') hy] at hsame
    exact Session.numbered_of_transferSeq_eq hsock hmin hsame

/-- The shortest frame that is fragmented. -/
theorem send_raw_partition_two :
    ∃ frags : List Fragment, frags.length = 2 ∧
      frags.flatMap Fragment.chunk = List.replicate 1401 0xAA ∧
      ∃ s : Session, s.sock = some 3 ∧
        (s.sendRaw (List.replicate 1401 0xAA)).2 = frags.map (fun f => .sendto s.dest f.bytes) := by
  obtain ⟨frags, hsent, hcount, hdata, -⟩ :=
    (@send_raw_partition ⟨⟨2, 1, 8, 6, 0x50, false⟩, some 3, 0, 0, 7, .zero⟩ 3 rfl
      (List.replicate 1401 0xAA)).2.2.1 (by rw [List.length_replicate]; omega)
      (by rw [List.length_replicate]; omega)
  rw [List.length_replicate] at hcount
  exact ⟨frags, by omega, hdata, _, rfl, hsent⟩

end WirelessHub.Firmware

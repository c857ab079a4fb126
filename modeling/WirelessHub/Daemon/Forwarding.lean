import Mathlib.Data.List.TakeDrop
import WirelessHub.Daemon.PassthroughHandler

/-!
# Forwarding of kernel chunks

What the drain loop puts on the TCP stream: one `RAW_DATA` packet for each chunk it read,
with as much of the chunk as the 16-bit length can announce. The stream always parses, and
it carries the chunks exactly if none of them fills the read buffer.
-/

namespace WirelessHub

open Framework

namespace PassthroughHandler

def packetOf (h : PassthroughHandler) (chunk : Chunk) : Packet where
  header := h.rawDataHeader chunk.bytes.length
  payload := chunk.bytes.take (actualLen chunk.bytes.length)
  payload_length := by
    have hle : actualLen chunk.bytes.length ≤ chunk.bytes.length ∧
        actualLen chunk.bytes.length < 65536 := by
      rw [actualLen]
      split <;> omega
    change _ = (UInt16.ofNat (actualLen chunk.bytes.length)).toNat
    rw [List.length_take, UInt16.toNat_ofNat', Nat.mod_eq_of_lt hle.2, Nat.min_eq_left hle.1]

def forwarded (h : PassthroughHandler) : List Chunk → List Packet
  | [] => []
  | chunk :: chunks => h.packetOf chunk :: { h with seq := h.seq + 1 }.forwarded chunks

/-- The chunks that a drain reads before it ends. -/
def drainedChunks : List ReadResult → List Chunk
  | .data chunk :: reads => chunk :: drainedChunks reads
  | _ => []

/-- No `send` ends the send loop or holds it up for good. -/
def SendsSucceed (sends : List IoResult) : Prop :=
  ∀ r ∈ sends, sendVerdict r ≠ .wait ∧ sendVerdict r ≠ .stop

variable {sends : List IoResult}

private theorem sendExactly_of_succeed (hs : SendsSucceed sends) (data : List UInt8) :
    (sendExactly sends data).result = some true ∧ (sendExactly sends data).taken = data ∧
      SendsSucceed (sendExactly sends data).rest := by
  have hok := transferAll_result_of_goesOn sends data hs
  refine ⟨hok, transferAll_taken_of_result sends data hok, fun r hr => hs r ?_⟩
  rw [sendExactly, transferAll_rest] at hr
  exact (unused_suffix sends data.length).subset hr

private theorem sendRawDataPacket_of_succeed (h : PassthroughHandler) (hs : SendsSucceed sends)
    (chunk : Chunk) : (h.sendRawDataPacket sends chunk.bytes).bytes = (h.packetOf chunk).bytes ∧
      (h.sendRawDataPacket sends chunk.bytes).returned = true ∧
      SendsSucceed (h.sendRawDataPacket sends chunk.bytes).sends := by
  obtain ⟨hok, htaken, hrest⟩ :=
    sendExactly_of_succeed hs (h.rawDataHeader chunk.bytes.length).encode
  obtain ⟨hok', htaken', hrest'⟩ := sendExactly_of_succeed hrest
    (chunk.bytes.take (actualLen chunk.bytes.length))
  simp only [sendRawDataPacket, if_pos hok, htaken, htaken', hok']
  exact ⟨rfl, rfl, hrest'⟩

private theorem onVhciReadable_of_succeed (h : PassthroughHandler) (hs : SendsSucceed sends)
    (reads : List ReadResult) :
    (h.onVhciReadable sends reads).bytes =
        (h.forwarded (drainedChunks reads)).flatMap Frame.bytes ∧
      SendsSucceed (h.onVhciReadable sends reads).sends := by
  induction reads generalizing h sends with
  | nil => exact ⟨rfl, hs⟩
  | cons r reads ih =>
    cases r with
    | eof | eagain | error => exact ⟨rfl, hs⟩
    | data chunk =>
      obtain ⟨hbytes, hreturned, hs'⟩ := h.sendRawDataPacket_of_succeed hs chunk
      have hnext := h.sendRawDataPacket_handler sends chunk.bytes
      obtain ⟨hrest, hs''⟩ := ih (h.sendRawDataPacket sends chunk.bytes).handler hs'
      simp only [onVhciReadable, drainedChunks, forwarded, List.flatMap_cons, if_pos hreturned, hbytes]
      rw [hrest, hnext]
      rw [hnext] at hs''
      exact ⟨rfl, hs''⟩

def carried (chunk : Chunk) : List UInt8 := chunk.bytes.take (actualLen chunk.bytes.length)

theorem carried_eq_iff (chunk : Chunk) : carried chunk = chunk.bytes ↔ chunk.bytes.length ≤ 65535 := by
  rw [carried, List.take_eq_self_iff, actualLen]
  have := chunk.fits
  split <;> omega

private theorem forwarded_payloads (h : PassthroughHandler) (chunks : List Chunk) :
    (h.forwarded chunks).map Frame.payload = chunks.map carried := by
  induction chunks generalizing h with
  | nil => rfl
  | cons chunk chunks ih =>
    rw [forwarded, List.map_cons, List.map_cons, ih]
    rfl

/-- The stream after several turns of the loop, each draining the kernel side once. -/
def drainTurns (h : PassthroughHandler) (sends : List IoResult) : List (List ReadResult) → List UInt8
  | [] => []
  | reads :: turns =>
      let d := h.onVhciReadable sends reads
      d.bytes ++ d.handler.drainTurns d.sends turns

private theorem drainTurns_packets (h : PassthroughHandler) (hs : SendsSucceed sends)
    (turns : List (List ReadResult)) :
    ∃ packets : List Packet, h.drainTurns sends turns = packets.flatMap Frame.bytes ∧
      packets.map Frame.payload = (turns.flatMap drainedChunks).map carried := by
  induction turns generalizing h sends with
  | nil => exact ⟨[], rfl, rfl⟩
  | cons reads turns ih =>
    obtain ⟨hbytes, hs'⟩ := h.onVhciReadable_of_succeed hs reads
    obtain ⟨packets, hstream, hpay⟩ := ih (h.onVhciReadable sends reads).handler hs'
    refine ⟨h.forwarded (drainedChunks reads) ++ packets, ?_, ?_⟩
    · rw [drainTurns, hbytes, hstream, List.flatMap_append]
    · rw [List.map_append, hpay, forwarded_payloads, List.flatMap_cons, List.map_append]

private theorem flatMap_carried_le (chunks : List Chunk) :
    (chunks.flatMap carried).length ≤ (chunks.flatMap Chunk.bytes).length := by
  induction chunks with
  | nil => exact Nat.le_refl 0
  | cons chunk chunks ih =>
    have := List.length_take_le' (actualLen chunk.bytes.length) chunk.bytes
    simp only [List.flatMap_cons, List.length_append, carried] at ih ⊢
    omega

private theorem flatMap_carried_eq_iff (chunks : List Chunk) :
    chunks.flatMap carried = chunks.flatMap Chunk.bytes ↔
      ∀ chunk ∈ chunks, chunk.bytes.length ≤ 65535 := by
  induction chunks with
  | nil => simp
  | cons chunk chunks ih =>
    rw [List.forall_mem_cons, ← ih, ← carried_eq_iff, List.flatMap_cons, List.flatMap_cons]
    constructor
    · intro he
      have hlen := congrArg List.length he
      have hhead := List.length_take_le' (actualLen chunk.bytes.length) chunk.bytes
      have htail := flatMap_carried_le chunks
      rw [List.length_append, List.length_append] at hlen
      refine List.append_inj he ?_
      simp only [carried] at hlen ⊢
      omega
    · rintro ⟨hhead, htail⟩
      rw [hhead, htail]

theorem drainTurns_parse (h : PassthroughHandler) (hs : SendsSucceed sends)
    (turns : List (List ReadResult)) : ∃ packets : List Packet,
      parseFrames headerCodec (h.drainTurns sends turns) = some packets ∧
      packets.map Frame.payload = (turns.flatMap drainedChunks).map carried := by
  obtain ⟨packets, hstream, hpay⟩ := h.drainTurns_packets hs turns
  refine ⟨packets, ?_, hpay⟩
  rw [hstream]
  exact parseFrames_flatMap packets

private theorem drainTurns_parse_iff (h : PassthroughHandler) (hs : SendsSucceed sends)
    (turns : List (List ReadResult)) (data : List UInt8) :
    (∃ packets : List Packet, parseFrames headerCodec (h.drainTurns sends turns) = some packets ∧
      packets.flatMap Frame.payload = data) ↔
    (turns.flatMap drainedChunks).flatMap carried = data := by
  obtain ⟨packets, hparse, hpay⟩ := h.drainTurns_parse hs turns
  have hflat : packets.flatMap Frame.payload = (turns.flatMap drainedChunks).flatMap carried := by
    rw [List.flatMap_def, hpay, ← List.flatMap_def]
  rw [← hflat]
  constructor
  · rintro ⟨packets', hparse', heq⟩
    obtain rfl := Option.some.inj (hparse.symm.trans hparse')
    exact heq
  · exact fun heq => ⟨packets, hparse, heq⟩

/-- The bytes on the TCP stream parse as packets whose payloads are the bytes read from the
kernel exactly if no read fills the whole buffer. -/
theorem stream_carries_chunks_iff (h : PassthroughHandler) (hs : SendsSucceed sends)
    (turns : List (List ReadResult)) :
    (∃ packets : List Packet, parseFrames headerCodec (h.drainTurns sends turns) = some packets ∧
      packets.flatMap Frame.payload = (turns.flatMap drainedChunks).flatMap Chunk.bytes) ↔
    ∀ chunk ∈ turns.flatMap drainedChunks, chunk.bytes.length < readBuf := by
  rw [h.drainTurns_parse_iff hs turns, flatMap_carried_eq_iff]
  exact forall₂_congr fun chunk _ => Nat.lt_succ_iff.symm

def zeroChunk (n : Nat) (hpos : 0 < n) (hle : n ≤ readBuf) : Chunk where
  bytes := List.replicate n 0
  nonempty := by rwa [List.length_replicate]
  fits := by rwa [List.length_replicate]

theorem stream_carries_one_request :
    ∃ packets : List Packet, parseFrames headerCodec
        ((⟨7, 5, 0, 0⟩ : PassthroughHandler).drainTurns [.count 3, .eintr, .eagain, .count 20]
          [[.data (zeroChunk 48 (by decide) (by decide)), .eagain]]) = some packets ∧
      packets.flatMap Frame.payload = List.replicate 48 0 := by
  have hs : SendsSucceed [.count 3, .eintr, .eagain, .count 20] := by
    intro r hr
    simp only [List.mem_cons, List.not_mem_nil, or_false] at hr
    rcases hr with rfl | rfl | rfl | rfl <;> simp [sendVerdict]
  have h := (stream_carries_chunks_iff ⟨7, 5, 0, 0⟩ hs
    [[.data (zeroChunk 48 (by decide) (by decide)), .eagain]]).mpr
  simpa [drainedChunks, zeroChunk, readBuf] using h

/-- A read that fills the buffer loses its last byte. -/
theorem full_read_loses_a_byte :
    ¬∃ packets : List Packet, parseFrames headerCodec
        ((⟨7, 5, 0, 0⟩ : PassthroughHandler).drainTurns []
          [[.data (zeroChunk 65536 (by decide) (by decide)), .eagain]]) = some packets ∧
      packets.flatMap Frame.payload =
        (zeroChunk 65536 (by decide) (by decide)).bytes := by
  have hs : SendsSucceed [] := fun r hr => absurd hr List.not_mem_nil
  have hlen : (zeroChunk 65536 (by decide) (by decide)).bytes.length = 65536 :=
    List.length_replicate
  generalize zeroChunk 65536 (by decide) (by decide) = full at hlen
  rw [drainTurns_parse_iff _ hs]
  intro h
  have hcarried : carried full = full.bytes := by simpa [drainedChunks] using h
  rw [carried_eq_iff, hlen] at hcarried
  exact absurd hcarried (by decide)

end PassthroughHandler
end WirelessHub

import WirelessHub.Daemon.Forwarding
import WirelessHub.Firmware.Replies

/-!
# USB/IP requests through the hub

The kernel writes requests as one byte stream, the daemon forwards whatever a `read` returns
as one packet, and the device reads one request from each payload. A request is served if a
payload starts where the request starts; nothing in the hub makes the two cuts agree.
-/

namespace WirelessHub.System

open Framework Firmware PassthroughHandler

def requestsAt (requests : List UsbipRequest) : List (Nat × UsbipRequest) :=
  withOffsets (fun r => r.bytes.length) 0 requests

def payloadsAt (calls : List Call) : List (Nat × Call) :=
  withOffsets (fun c => c.1.length) 0 calls

/-- Every request starts a payload that holds all of its header; a reply finds memory. -/
def StartsPayload (requests : List UsbipRequest) (calls : List Call) : Prop :=
  ∀ o r, (o, r) ∈ requestsAt requests → ∃ c, (o, c) ∈ payloadsAt calls ∧
    CmdSubmit.size ≤ c.1.length ∧ (r.header.command = usbipCmdSubmit → c.2.malloc = true)

/-- A payload that starts inside a request does not look like a request. -/
def NoMimic (requests : List UsbipRequest) (calls : List Call) : Prop :=
  ∀ o c, (o, c) ∈ payloadsAt calls → Answered c.1 c.2 → ∃ r, (o, r) ∈ requestsAt requests

section Cuts

variable {requests : List UsbipRequest} {calls : List Call}

private theorem decode_of_same_offset (hstream : calls.flatMap Prod.fst = requests.flatMap UsbipRequest.bytes)
    {o : Nat} {c : Call} {r : UsbipRequest} (hc : (o, c) ∈ payloadsAt calls)
    (hr : (o, r) ∈ requestsAt requests) (hlen : CmdSubmit.size ≤ c.1.length) :
    CmdSubmit.decode c.1 = r.header := by
  obtain ⟨s, t, hst⟩ := common_of_mem_withOffsets hstream hc hr
  have hpre : r.header.encode <+: c.1 ++ s := by
    rw [hst, UsbipRequest.bytes, Frame.bytes, List.append_assoc]
    exact List.prefix_append _ _
  obtain ⟨rest, hrest⟩ := List.prefix_of_prefix_length_le hpre (List.prefix_append c.1 s)
    (by rwa [CmdSubmit.length_encode])
  rw [← hrest, CmdSubmit.decode_encode]

def answersAt (calls : List Call) : List (Nat × UInt32) := (payloadsAt calls).filterMap answer

def seqnumsAt (requests : List UsbipRequest) : List (Nat × UInt32) :=
  (requestsAt requests).map fun x => (x.1, x.2.seqnum)

private theorem mem_answersAt {o : Nat} {n : UInt32} : (o, n) ∈ answersAt calls ↔
    ∃ c, (o, c) ∈ payloadsAt calls ∧ Answered c.1 c.2 ∧ (CmdSubmit.decode c.1).seqnum = n := by
  simp only [answersAt, List.mem_filterMap, answer, Prod.exists, Option.ite_none_right_eq_some,
    Option.some.injEq, Prod.mk.injEq]
  constructor
  · rintro ⟨o', raw, a, hmem, ha, rfl, hn⟩
    exact ⟨raw, a, hmem, ha, hn⟩
  · rintro ⟨raw, a, hmem, ha, hn⟩
    exact ⟨o, raw, a, hmem, ha, rfl, hn⟩

private theorem mem_seqnumsAt {o : Nat} {n : UInt32} :
    (o, n) ∈ seqnumsAt requests ↔ ∃ r, (o, r) ∈ requestsAt requests ∧ r.seqnum = n := by
  simp only [seqnumsAt, List.mem_map, Prod.exists, Prod.mk.injEq]
  constructor
  · rintro ⟨o', r, hmem, rfl, hn⟩
    exact ⟨r, hmem, hn⟩
  · rintro ⟨r, hmem, hn⟩
    exact ⟨o, r, hmem, rfl, hn⟩

private theorem seqnumsAt_map_snd (requests : List UsbipRequest) :
    (seqnumsAt requests).map Prod.snd = requests.map UsbipRequest.seqnum := by
  have hsnd : (requestsAt requests).map Prod.snd = requests := withOffsets_map_snd 0 requests
  rw [seqnumsAt, List.map_map, ← congrArg (List.map UsbipRequest.seqnum) hsnd, List.map_map]
  rfl

private theorem answersAt_pairwise (hpos : ∀ c ∈ calls, 0 < c.1.length) :
    (answersAt calls).Pairwise Before := by
  refine (withOffsets_pairwise hpos 0).filterMap _ fun x y hxy u hu v hv => ?_
  simp only [answer, Option.ite_none_right_eq_some, Option.some.injEq] at hu hv
  obtain ⟨-, rfl⟩ := hu
  obtain ⟨-, rfl⟩ := hv
  exact hxy

private theorem seqnumsAt_pairwise : (seqnumsAt requests).Pairwise Before := by
  have hpos : ∀ r ∈ requests, 0 < r.bytes.length := by
    intro r _
    rw [UsbipRequest.bytes, Frame.length_bytes]
    exact Nat.add_pos_left usbipCodec.size_pos _
  exact List.pairwise_map.mpr (withOffsets_pairwise hpos 0)

/-- One reply to each request and no other, exactly if the two cuts agree. -/
theorem answersAt_eq_iff (hstream : calls.flatMap Prod.fst = requests.flatMap UsbipRequest.bytes)
    (hpos : ∀ c ∈ calls, 0 < c.1.length) :
    answersAt calls = seqnumsAt requests ↔ StartsPayload requests calls ∧ NoMimic requests calls := by
  constructor
  · intro heq
    refine ⟨fun o r hr => ?_, fun o c hc ha => ?_⟩
    · have hmem := mem_seqnumsAt.mpr ⟨r, hr, rfl⟩
      rw [← heq, mem_answersAt] at hmem
      obtain ⟨c, hc, ⟨hlen, hcmd⟩, -⟩ := hmem
      rw [decode_of_same_offset hstream hc hr hlen] at hcmd
      refine ⟨c, hc, hlen, fun hsubmit => (hcmd.resolve_left ?_).2⟩
      rw [hsubmit]
      decide
    · have hmem := mem_answersAt.mpr ⟨c, hc, ha, rfl⟩
      rw [heq, mem_seqnumsAt] at hmem
      exact hmem.imp fun r hr => hr.1
  · rintro ⟨hstarts, hmimic⟩
    refine (answersAt_pairwise hpos).eq_of_mem_iff seqnumsAt_pairwise fun ⟨o, n⟩ => ?_
    rw [mem_answersAt, mem_seqnumsAt]
    constructor
    · rintro ⟨c, hc, ha, rfl⟩
      obtain ⟨r, hr⟩ := hmimic o c hc ha
      exact ⟨r, hr, by rw [decode_of_same_offset hstream hc hr ha.1]; rfl⟩
    · rintro ⟨r, hr, rfl⟩
      obtain ⟨c, hc, hlen, hm⟩ := hstarts o r hr
      have hdec := decode_of_same_offset hstream hc hr hlen
      refine ⟨c, hc, ⟨hlen, ?_⟩, by rw [hdec]; rfl⟩
      rw [hdec]
      exact r.isRequest.symm.imp_right fun hsubmit => ⟨hsubmit, hm hsubmit⟩

private theorem answersAt_snd_eq_iff (hstream : calls.flatMap Prod.fst = requests.flatMap UsbipRequest.bytes)
    (hpos : ∀ c ∈ calls, 0 < c.1.length) (hmimic : NoMimic requests calls) :
    (answersAt calls).map Prod.snd = (seqnumsAt requests).map Prod.snd ↔
      StartsPayload requests calls := by
  constructor
  · intro hsnd
    refine ((answersAt_eq_iff hstream hpos).mp ?_).1
    refine eq_of_before_of_subset (answersAt_pairwise hpos) seqnumsAt_pairwise ?_ hsnd
    intro o ho
    obtain ⟨⟨o', n⟩, hmem, rfl⟩ := List.mem_map.mp ho
    obtain ⟨c, hc, ha, -⟩ := mem_answersAt.mp hmem
    obtain ⟨r, hr⟩ := hmimic o' c hc ha
    exact List.mem_map.mpr ⟨(o', r.seqnum), mem_seqnumsAt.mpr ⟨r, hr, rfl⟩, rfl⟩
  · intro hstarts
    rw [(answersAt_eq_iff hstream hpos).mpr ⟨hstarts, hmimic⟩]

end Cuts

section Hub

variable {h : PassthroughHandler} {sends : List IoResult} {turns : List (List ReadResult)}
  {requests : List UsbipRequest} {packets : List Packet} {calls : List Call}

/-- What the device is handed is what the daemon read, chunk by chunk. -/
theorem calls_of_turns (hs : SendsSucceed sends)
    (hlen : ∀ chunk ∈ turns.flatMap drainedChunks, chunk.bytes.length ≤ 65535)
    (hparse : parseFrames headerCodec (h.drainTurns sends turns) = some packets)
    (hcalls : calls.map Prod.fst = packets.map Frame.payload) :
    calls.map Prod.fst = (turns.flatMap drainedChunks).map Chunk.bytes := by
  obtain ⟨packets', hparse', hpay⟩ := h.drainTurns_parse hs turns
  obtain rfl := Option.some.inj (hparse.symm.trans hparse')
  rw [hcalls, hpay]
  exact List.map_congr_left fun chunk hmem => (carried_eq_iff chunk).mpr (hlen chunk hmem)

/-- However the reads cut the kernel's stream into packets, each request gets its one reply
exactly if it starts a packet of its own and no other packet looks like a request. Where none
does, the sequence numbers of the replies are those of the requests exactly if every request
starts a packet. -/
theorem requests_served_once_iff (hs : SendsSucceed sends)
    (hlen : ∀ chunk ∈ turns.flatMap drainedChunks, chunk.bytes.length ≤ 65535)
    (hstream : (turns.flatMap drainedChunks).flatMap Chunk.bytes =
      requests.flatMap UsbipRequest.bytes)
    (hparse : parseFrames headerCodec (h.drainTurns sends turns) = some packets)
    (hcalls : calls.map Prod.fst = packets.map Frame.payload)
    {s : Session} {fd : Nat} (hsock : s.sock = some fd) (inBuf : List UInt8) :
    ((serve s inBuf 0 calls).map (fun x => (x.1, replySeqnum x.2)) = seqnumsAt requests ↔
      StartsPayload requests calls ∧ NoMimic requests calls) ∧
    (NoMimic requests calls →
      ((serve s inBuf 0 calls).map (fun x => replySeqnum x.2) = requests.map UsbipRequest.seqnum ↔
        StartsPayload requests calls)) := by
  have hchunks := calls_of_turns hs hlen hparse hcalls
  have hbytes : calls.flatMap Prod.fst = requests.flatMap UsbipRequest.bytes := by
    rw [← hstream, List.flatMap_def, hchunks, ← List.flatMap_def]
  have hpos : ∀ c ∈ calls, 0 < c.1.length := by
    intro c hc
    have hmem := List.mem_map_of_mem (f := Prod.fst) hc
    rw [hchunks] at hmem
    obtain ⟨chunk, -, heq⟩ := List.mem_map.mp hmem
    rw [← heq]
    exact chunk.nonempty
  have hserve : (serve s inBuf 0 calls).map (fun x => (x.1, replySeqnum x.2)) = answersAt calls :=
    serve_seqnums hsock inBuf 0 calls
  have hreplies : (serve s inBuf 0 calls).map (fun x => replySeqnum x.2) =
      (answersAt calls).map Prod.snd := by
    rw [← hserve, List.map_map]
    rfl
  refine ⟨hserve ▸ answersAt_eq_iff hbytes hpos, fun hmimic => ?_⟩
  rw [hreplies, ← seqnumsAt_map_snd]
  exact answersAt_snd_eq_iff hbytes hpos hmimic

end Hub

/-- `GET_DESCRIPTOR(DEVICE)`: a control transfer of 18 bytes to the host. -/
def getDescriptor (seqnum : UInt32) : UsbipRequest where
  header :=
    { command := usbipCmdSubmit, seqnum := seqnum, devid := 0x10001, direction := usbipDirIn, ep := 0
      transferFlags := 0, transferBufferLength := 18, startFrame := 0, numberOfPackets := 0xFFFFFFFF
      interval := 0, setup := #v[0x80, 6, 0, 1, 0, 0, 18, 0] }
  payload := []
  payload_length := rfl
  isRequest := .inl rfl

def chunkOf (r : UsbipRequest) (rest : List UsbipRequest)
    (hle : ((r :: rest).flatMap UsbipRequest.bytes).length ≤ readBuf) : Chunk where
  bytes := (r :: rest).flatMap UsbipRequest.bytes
  nonempty := by
    rw [List.flatMap_cons, List.length_append, UsbipRequest.bytes, Frame.length_bytes]
    exact Nat.add_pos_left (Nat.add_pos_left usbipCodec.size_pos _) _
  fits := hle

def usbSession : Session where
  cfg := ⟨0, 1, 0, 0, 0, true⟩
  sock := some 3
  daemonIp := 0
  seq := 0
  outTransferSeq := 0
  reasm := .zero

def oneEach : List Call := [((getDescriptor 1).bytes, {}), ((getDescriptor 2).bytes, {})]

theorem two_reads_served :
    (serve usbSession [] 0 oneEach).map (fun x => replySeqnum x.2) =
      [getDescriptor 1, getDescriptor 2].map UsbipRequest.seqnum := by
  have hs : SendsSucceed [] := fun r hr => absurd hr List.not_mem_nil
  obtain ⟨packets, hparse, hpay⟩ := (⟨7, 5, 0, 0⟩ : PassthroughHandler).drainTurns_parse hs
    [[.data (chunkOf (getDescriptor 1) [] (by decide)), .eagain],
      [.data (chunkOf (getDescriptor 2) [] (by decide)), .eagain]]
  have hcalls : oneEach.map Prod.fst = packets.map Frame.payload := hpay.symm
  have hstarts : StartsPayload [getDescriptor 1, getDescriptor 2] oneEach := by
    intro o r hr
    rcases List.mem_cons.mp hr with hr | hr
    · cases hr
      exact ⟨_, .head _, by decide, fun _ => rfl⟩
    · cases List.mem_singleton.mp hr
      exact ⟨_, .tail _ (.head _), by decide, fun _ => rfl⟩
  have hmimic : NoMimic [getDescriptor 1, getDescriptor 2] oneEach := by
    intro o c hc _
    rcases List.mem_cons.mp hc with hc | hc
    · cases hc
      exact ⟨_, .head _⟩
    · cases List.mem_singleton.mp hc
      exact ⟨_, .tail _ (.head _)⟩
  refine ((requests_served_once_iff hs ?_ rfl hparse hcalls rfl []).2 hmimic).mpr hstarts
  decide

/-- Two requests in one read: the second gets no reply. -/
theorem packed_request_unanswered :
    ∃ packets : List Packet, parseFrames headerCodec
        ((⟨7, 5, 0, 0⟩ : PassthroughHandler).drainTurns []
          [[.data (chunkOf (getDescriptor 1) [getDescriptor 2] (by decide)), .eagain]]) =
        some packets ∧
      packets.map Frame.payload = [(getDescriptor 1).bytes ++ (getDescriptor 2).bytes] ∧
      (serve usbSession [] 0 [((getDescriptor 1).bytes ++ (getDescriptor 2).bytes, {})]).map
        (fun x => replySeqnum x.2) = [1] ∧
      [getDescriptor 1, getDescriptor 2].map UsbipRequest.seqnum = [1, 2] := by
  have hs : SendsSucceed [] := fun r hr => absurd hr List.not_mem_nil
  obtain ⟨packets, hparse, hpay⟩ := (⟨7, 5, 0, 0⟩ : PassthroughHandler).drainTurns_parse hs
    [[.data (chunkOf (getDescriptor 1) [getDescriptor 2] (by decide)), .eagain]]
  exact ⟨packets, hparse, hpay, rfl, rfl⟩

end WirelessHub.System

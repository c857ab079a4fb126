import WirelessHub.Daemon.TcpSocket

/-!
# The passthrough handler

`PassthroughHandler` bridges one socketpair to one TCP connection. Chunks read from the
kernel leave as `RAW_DATA` packets, and `RAW_DATA` payloads are written to the kernel.
-/

namespace WirelessHub

open Framework

structure PassthroughHandler where
  vhciFd : Fd
  sock : Fd
  deviceId : UInt8
  seq : UInt8
  deriving DecidableEq, Repr

def readBuf : Nat := 65536

/-- What a successful `read` leaves in the buffer: at least one byte and at most `READ_BUF`. -/
structure Chunk where
  bytes : List UInt8
  nonempty : 0 < bytes.length
  fits : bytes.length ≤ readBuf

inductive ReadResult
  | data (chunk : Chunk)
  | eof | eagain | error

/-- The part of the chunk that fits the 16-bit `payload_len`. -/
def actualLen (len : Nat) : Nat := if len > 65535 then 65535 else len

def PassthroughHandler.rawDataHeader (h : PassthroughHandler) (len : Nat) : Header where
  cmdType := CmdType.rawData.toByte
  deviceId := h.deviceId
  endpoint := 0
  seq := h.seq
  payloadLen := UInt16.ofNat (actualLen len)

/-- The handler after some sends, the bytes the socket took, the unused send results, and
whether the last call has returned. -/
structure Sent where
  handler : PassthroughHandler
  bytes : List UInt8
  sends : List IoResult
  returned : Bool

/-- Send one `RAW_DATA` packet: the header, then the data. A failed header ends the call. -/
def PassthroughHandler.sendRawDataPacket (h : PassthroughHandler) (sends : List IoResult)
    (data : List UInt8) : Sent :=
  let hdr := h.rawDataHeader data.length
  let next := { h with seq := h.seq + 1 }
  let head := sendExactly sends hdr.encode
  if head.result = some true then
    let body := sendExactly head.rest (data.take (actualLen data.length))
    ⟨next, head.taken ++ body.taken, body.rest, body.result.isSome⟩
  else ⟨next, head.taken, head.rest, head.result.isSome⟩

/-- The outcome of draining the socketpair; `result` is absent while a `read` or a `send` has not
returned. -/
structure Drained where
  handler : PassthroughHandler
  bytes : List UInt8
  sends : List IoResult
  result : Option Bool

/-- Read and forward until the kernel side is drained, closed or failing. -/
def PassthroughHandler.onVhciReadable (h : PassthroughHandler) (sends : List IoResult) :
    List ReadResult → Drained
  | [] => ⟨h, [], sends, none⟩
  | .eof :: _ => ⟨h, [], sends, some false⟩
  | .eagain :: _ => ⟨h, [], sends, some true⟩
  | .error :: _ => ⟨h, [], sends, some false⟩
  | .data chunk :: reads =>
      let sent := h.sendRawDataPacket sends chunk.bytes
      if sent.returned then
        let rest := sent.handler.onVhciReadable sent.sends reads
        { rest with bytes := sent.bytes ++ rest.bytes }
      else ⟨sent.handler, sent.bytes, sent.sends, none⟩

/-- How a drain ends that no `send` holds up: it depends on the results of the reads alone. -/
def drainResult : List ReadResult → Option Bool
  | [] => none
  | .eof :: _ => some false
  | .eagain :: _ => some true
  | .error :: _ => some false
  | .data _ :: reads => drainResult reads

theorem PassthroughHandler.onVhciReadable_result (h : PassthroughHandler) (sends : List IoResult)
    (reads : List ReadResult) : (h.onVhciReadable sends reads).result = none ∨
      (h.onVhciReadable sends reads).result = drainResult reads := by
  induction reads generalizing h sends with
  | nil => exact .inl rfl
  | cons r reads ih =>
    cases r with
    | eof | eagain | error => exact .inr rfl
    | data chunk =>
      simp only [onVhciReadable, drainResult]
      split
      · exact ih _ _
      · exact .inl rfl

/-- No `send` is held up for good. -/
def SendsProgress (sends : List IoResult) : Prop := .stalled ∉ sends

private theorem SendsProgress.sendExactly {sends : List IoResult} (hs : SendsProgress sends)
    (data : List UInt8) : (sendExactly sends data).result.isSome = true ∧
      SendsProgress (sendExactly sends data).rest := by
  have hwait : ∀ r ∈ sends, sendVerdict r ≠ .wait := by
    intro r hr hv
    cases r with
    | stalled => exact hs hr
    | count n => cases n <;> cases hv
    | eintr | eagain | error => cases hv
  constructor
  · rw [Option.isSome_iff_ne_none]
    intro hnone
    exact not_stalls_of_no_wait hwait _ ((transferAll_result_eq_none_iff sends data).mp hnone)
  · rw [WirelessHub.sendExactly, transferAll_rest]
    intro hmem
    exact hs ((unused_suffix sends data.length).subset hmem)

private theorem SendsProgress.sendRawDataPacket {sends : List IoResult} (hs : SendsProgress sends)
    (h : PassthroughHandler) (data : List UInt8) :
    (h.sendRawDataPacket sends data).returned = true ∧
      SendsProgress (h.sendRawDataPacket sends data).sends := by
  simp only [PassthroughHandler.sendRawDataPacket]
  split
  · exact (hs.sendExactly _).2.sendExactly _
  · exact hs.sendExactly _

theorem PassthroughHandler.onVhciReadable_of_progress (h : PassthroughHandler)
    {sends : List IoResult} (hs : SendsProgress sends) (reads : List ReadResult) :
    (h.onVhciReadable sends reads).result = drainResult reads := by
  induction reads generalizing h sends with
  | nil => rfl
  | cons r reads ih =>
    cases r with
    | eof | eagain | error => rfl
    | data chunk =>
      obtain ⟨hreturned, hs'⟩ := hs.sendRawDataPacket h chunk.bytes
      simp only [onVhciReadable, hreturned, if_true]
      exact ih _ hs'

theorem PassthroughHandler.sendRawDataPacket_handler (h : PassthroughHandler)
    (sends : List IoResult) (data : List UInt8) :
    (h.sendRawDataPacket sends data).handler = { h with seq := h.seq + 1 } := by
  simp only [sendRawDataPacket]
  split <;> rfl

theorem PassthroughHandler.onVhciReadable_handler (h : PassthroughHandler) (sends : List IoResult)
    (reads : List ReadResult) : (h.onVhciReadable sends reads).handler =
      { h with seq := (h.onVhciReadable sends reads).handler.seq } := by
  induction reads generalizing h sends with
  | nil => rfl
  | cons r reads ih =>
    cases r with
    | eof | eagain | error => rfl
    | data chunk =>
      simp only [onVhciReadable]
      split
      · have hrest := ih (h.sendRawDataPacket sends chunk.bytes).handler
          (h.sendRawDataPacket sends chunk.bytes).sends
        rw [hrest, sendRawDataPacket_handler]
      · rw [sendRawDataPacket_handler]

/-- `writeToKernel` retries on `EINTR` only; a count of zero goes round the loop again. -/
def writeVerdict : IoResult → Verdict
  | .count n => .advance n
  | .eintr => .again
  | .eagain => .stop
  | .error => .stop
  | .stalled => .wait

def writeToKernel (writes : List IoResult) (data : List UInt8) : Transfer UInt8 IoResult :=
  transferAll writeVerdict writes data

/-- A complete `RAW_DATA` payload goes straight to the kernel. -/
def onDeviceData (writes : List IoResult) (payload : List UInt8) : Transfer UInt8 IoResult :=
  writeToKernel writes payload

end WirelessHub

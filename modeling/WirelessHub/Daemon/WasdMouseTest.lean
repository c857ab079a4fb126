import Mathlib.Algebra.BigOperators.Group.List.Basic
import Mathlib.Algebra.Group.Prod
import Mathlib.Data.List.Forall2
import Mathlib.Data.UInt
import WirelessHub.Protocol.Usbip

/-!
# The mouse of the test program

`tests/WasdMouseTest.cpp` stands in for a device with a mouse: it announces itself to the daemon,
answers the USB/IP requests that the daemon passes on, and takes its movements from the keyboard.
A key adds to a counter of eight bits; a poll of the interrupt endpoint reports the counters and
clears them. Whatever the order of keys and requests, no movement is lost or reported twice, and
each request has one answer.
-/

namespace WirelessHub

open Framework

/-- The globals of the program and, in order, the datagrams it has sent and the movements it has
reported. A counter of type `int8_t` is kept as its byte. -/
structure WasdMouse where
  deviceId : UInt8
  seq : UInt8
  dx : UInt8
  dy : UInt8
  buttons : UInt8
  running : Bool
  sent : List (List UInt8)
  reports : List (UInt8 × UInt8)

inductive MouseInput
  | datagram (bytes : List UInt8)
  | key (ch : UInt8)

namespace WasdMouse

def hidReportDesc : List UInt8 :=
  [0x05, 0x01, 0x09, 0x02, 0xA1, 0x01, 0x09, 0x01, 0xA1, 0x00,
    0x05, 0x09, 0x19, 0x01, 0x29, 0x03, 0x15, 0x00, 0x25, 0x01,
    0x95, 0x03, 0x75, 0x01, 0x81, 0x02,
    0x95, 0x01, 0x75, 0x05, 0x81, 0x03,
    0x05, 0x01, 0x09, 0x30, 0x09, 0x31, 0x09, 0x38,
    0x15, 0x81, 0x25, 0x7F, 0x75, 0x08, 0x95, 0x03, 0x81, 0x06,
    0xC0, 0xC0]

def deviceDesc : List UInt8 :=
  [0x12, 0x01, 0x00, 0x02, 0x00, 0x00, 0x00, 0x40, 0x34, 0x12, 0x78, 0x56,
    0x00, 0x01, 0x00, 0x00, 0x00, 0x01]

def configDesc : List UInt8 :=
  [0x09, 0x02, 0x22, 0x00, 0x01, 0x01, 0x00, 0xA0, 0x32,
    0x09, 0x04, 0x00, 0x00, 0x01, 0x03, 0x01, 0x02, 0x00,
    0x09, 0x21, 0x11, 0x01, 0x00, 0x01, 0x22, UInt8.ofNat hidReportDesc.length, 0x00,
    0x07, 0x05, 0x81, 0x03, 0x04, 0x00, 0x0A]

def stringLangDesc : List UInt8 := [0x04, 0x03, 0x09, 0x04]

def udpSend (m : WasdMouse) (payload : List UInt8) : WasdMouse :=
  { m with
    seq := m.seq + 1
    sent := m.sent ++ [Header.encode
      ⟨CmdType.rawData.toByte, m.deviceId, 0, m.seq, UInt16.ofNat payload.length⟩ ++ payload] }

/-- `sendRetSubmit`; the status `-32` is a stall. -/
def retSubmit (seqnum status : UInt32) (payload : List UInt8) : List UInt8 :=
  be32 usbipRetSubmit ++ (be32 seqnum ++ (List.replicate 12 0 ++ (be32 status ++
    (be32 (UInt32.ofNat payload.length) ++ (List.replicate 20 0 ++ payload)))))

def stall : UInt32 := 0xFFFFFFE0

def getWLength (setup : Vector UInt8 8) : Nat := (ofLe16 setup[6] setup[7]).toNat

/-- The descriptor that a `GET_DESCRIPTOR` asks for, if the mouse has it. -/
def descriptor (reqType descType descIdx : UInt8) : Option (List UInt8) :=
  if reqType = 0x80 then
    if descType = 0x01 then some deviceDesc
    else if descType = 0x02 then some configDesc
    else if descType = 0x03 ∧ descIdx = 0 then some stringLangDesc
    else none
  else if reqType = 0x81 ∧ descType = 0x22 then some hidReportDesc
  else none

/-- `handleControlIn`: the status and the data of the answer. -/
def handleControlIn (setup : Vector UInt8 8) : UInt32 × List UInt8 :=
  if setup[1] = 0x06 then
    (descriptor setup[0] setup[3] setup[2]).elim (stall, []) fun desc =>
      (0, desc.take (if getWLength setup < desc.length then getWLength setup else desc.length))
  else if setup[0] = 0x80 ∧ setup[1] = 0x08 then (0, [0x01])
  else if setup[0] = 0x81 ∧ setup[1] = 0x0A then (0, [0x00])
  else (stall, [])

def handleInterruptIn (m : WasdMouse) (seqnum : UInt32) : WasdMouse :=
  { m with dx := 0, dy := 0, reports := m.reports ++ [(m.dx, m.dy)] }.udpSend
    (retSubmit seqnum 0 [m.buttons, m.dx, m.dy, 0])

def dispatchUsbip (m : WasdMouse) (buf : List UInt8) : WasdMouse :=
  if buf.length < CmdSubmit.size then m
  else
    let cmd := CmdSubmit.decode buf
    if cmd.command = usbipCmdUnlink then m.udpSend (retUnlink cmd.seqnum)
    else if cmd.command ≠ usbipCmdSubmit then m
    else if cmd.ep = 0 then
      if cmd.direction = usbipDirIn then
        let (status, payload) := handleControlIn cmd.setup
        m.udpSend (retSubmit cmd.seqnum status payload)
      else m.udpSend (retSubmit cmd.seqnum 0 [])
    else if cmd.ep = 1 ∧ cmd.direction = usbipDirIn then m.handleInterruptIn cmd.seqnum
    else m.udpSend (retSubmit cmd.seqnum stall [])

/-- What the program takes for the data behind a header. It does not look at the command. -/
def extra (cmd : CmdSubmit) : Nat :=
  if cmd.direction = usbipDirOut then cmd.transferBufferLength.toNat else 0

/-- The loop over the requests in a datagram; an incomplete one ends it. -/
def process (m : WasdMouse) (payload : List UInt8) : WasdMouse :=
  if CmdSubmit.size ≤ payload.length then
    let pktSz := CmdSubmit.size + extra (CmdSubmit.decode payload)
    if payload.length < pktSz then m
    else process (m.dispatchUsbip (payload.take pktSz)) (payload.drop pktSz)
  else m
termination_by payload.length
decreasing_by
  rw [List.length_drop]
  simp only [CmdSubmit.size] at *
  omega

def onDatagram (m : WasdMouse) (bytes : List UInt8) : WasdMouse :=
  if bytes.length < Header.size then m
  else
    let hdr := Header.decode bytes
    if hdr.cmdType ≠ CmdType.rawData.toByte then m
    else if hdr.deviceId ≠ m.deviceId then m
    else m.process (bytes.drop Header.size)

/-- What a key adds to the counters: `W`, `S`, `A` and `D` in either case. -/
def keyMove (ch : UInt8) : UInt8 × UInt8 :=
  if ch = 119 ∨ ch = 87 then (0, -8)
  else if ch = 115 ∨ ch = 83 then (0, 8)
  else if ch = 97 ∨ ch = 65 then (-8, 0)
  else if ch = 100 ∨ ch = 68 then (8, 0)
  else (0, 0)

def onKey (m : WasdMouse) (ch : UInt8) : WasdMouse :=
  { m with
    dx := m.dx + (keyMove ch).1
    dy := m.dy + (keyMove ch).2
    running := m.running && !(ch = 113 || ch = 81 || ch = 3) }

def step (m : WasdMouse) : MouseInput → WasdMouse
  | .datagram bytes => m.onDatagram bytes
  | .key ch => m.onKey ch

/-- The program after it has announced the mouse. -/
def start (deviceId : UInt8) (replyPort : UInt16) : WasdMouse where
  deviceId
  seq := 1
  dx := 0
  dy := 0
  buttons := 0
  running := true
  sent := [Header.encode ⟨CmdType.deviceEvent.toByte, deviceId, 0, 0, 8⟩ ++
    DeviceEventPayload.encode ⟨deviceId, DeviceEvent.connect.toByte, 2, 3, 1, 2, replyPort⟩]
  reports := []

/-- The main loop over the batches of `epoll_wait`. A quit ends it behind the batch it is in. -/
def loop : WasdMouse → List (List MouseInput) → WasdMouse
  | m, [] => m
  | m, batch :: batches => if m.running then loop (batch.foldl step m) batches else m

def taken : WasdMouse → List (List MouseInput) → List MouseInput
  | _, [] => []
  | m, batch :: batches => if m.running then batch ++ taken (batch.foldl step m) batches else []

private theorem loop_eq (m : WasdMouse) (batches : List (List MouseInput)) :
    m.loop batches = (m.taken batches).foldl step m := by
  induction batches generalizing m with
  | nil => rfl
  | cons batch batches ih =>
    rw [loop, taken]
    split
    · rw [List.foldl_append, ih]
    · rfl

section Moves

/-- The reported movements and the one that is still to be reported. -/
def moved (m : WasdMouse) : UInt8 × UInt8 := m.reports.sum + (m.dx, m.dy)

/-- What an input asks for. -/
def move : MouseInput → UInt8 × UInt8
  | .datagram _ => 0
  | .key ch => keyMove ch

@[simp] theorem moved_udpSend (m : WasdMouse) (payload : List UInt8) :
    (m.udpSend payload).moved = m.moved := rfl

@[simp] theorem moved_handleInterruptIn (m : WasdMouse) (seqnum : UInt32) :
    (m.handleInterruptIn seqnum).moved = m.moved := by
  change (m.reports ++ [(m.dx, m.dy)]).sum + 0 = m.reports.sum + (m.dx, m.dy)
  rw [add_zero, List.sum_append, List.sum_singleton]

private theorem moved_dispatchUsbip (m : WasdMouse) (buf : List UInt8) :
    (m.dispatchUsbip buf).moved = m.moved := by
  unfold dispatchUsbip
  dsimp only
  split_ifs <;> simp

private theorem moved_process (m : WasdMouse) (payload : List UInt8) : (m.process payload).moved = m.moved := by
  fun_induction process m payload with
  | case1 => rfl
  | case2 m payload _ pktSz _ ih => rw [ih, moved_dispatchUsbip]
  | case3 => rfl

private theorem moved_step (m : WasdMouse) (i : MouseInput) :
    (m.step i).moved = m.moved + move i := by
  cases i with
  | datagram bytes =>
    have h : (m.onDatagram bytes).moved = m.moved := by
      unfold onDatagram
      dsimp only
      split_ifs <;> first | rfl | exact moved_process m _
    rw [step, h]
    exact (add_zero _).symm
  | key ch => exact (add_assoc m.reports.sum (m.dx, m.dy) (keyMove ch)).symm

private theorem moved_foldl (m : WasdMouse) (inputs : List MouseInput) :
    (inputs.foldl step m).moved = m.moved + (inputs.map move).sum := by
  induction inputs generalizing m with
  | nil => exact (add_zero _).symm
  | cons i inputs ih =>
    rw [List.foldl_cons, ih, moved_step, List.map_cons, List.sum_cons, add_assoc]

end Moves

section Answers

/-- One more answer has been sent, and the next number is due. -/
def Answers (m m' : WasdMouse) (command seqnum : UInt32) : Prop :=
  ∃ payload : List UInt8, payload.length < 65536 ∧ be32At payload 0 = command ∧
    be32At payload 4 = seqnum ∧ m'.sent = (m.udpSend payload).sent ∧ m'.seq = m.seq + 1 ∧
    m'.deviceId = m.deviceId

def retCommand (r : UsbipRequest) : UInt32 :=
  if r.header.command = usbipCmdUnlink then usbipRetUnlink else usbipRetSubmit

private theorem answers_retSubmit (m : WasdMouse) (seqnum status : UInt32) {data : List UInt8}
    (h : data.length ≤ 52) : Answers m (m.udpSend (retSubmit seqnum status data)) usbipRetSubmit seqnum := by
  refine ⟨retSubmit seqnum status data, ?_, be32At_head _ _, ?_, rfl, rfl, rfl⟩
  · simp only [retSubmit, List.length_append, List.length_replicate, be32, List.length_cons,
      List.length_nil]
    omega
  · rw [retSubmit, be32At_skip _ _ 0, be32At_head]

private theorem length_handleControlIn_le (setup : Vector UInt8 8) :
    (handleControlIn setup).2.length ≤ 52 := by
  have hdesc : ∀ a b c desc, descriptor a b c = some desc → desc.length ≤ 52 := by
    intro a b c desc h
    unfold descriptor at h
    split_ifs at h <;> cases h <;> decide
  unfold handleControlIn
  split_ifs
  · cases hsome : descriptor setup[0] setup[3] setup[2] with
    | none => exact Nat.zero_le 52
    | some desc => exact (List.length_take_le' _ _).trans (hdesc _ _ _ _ hsome)
  all_goals decide

private theorem answers_dispatchUsbip (m : WasdMouse) (r : UsbipRequest) :
    Answers m (m.dispatchUsbip r.bytes) (retCommand r) r.seqnum := by
  have hlen : ¬r.bytes.length < CmdSubmit.size := by
    have h := r.toFrame.length_bytes
    change r.bytes.length = CmdSubmit.size + _ at h
    omega
  have hdecode : CmdSubmit.decode r.bytes = r.header := CmdSubmit.decode_encode _ _
  unfold dispatchUsbip retCommand UsbipRequest.seqnum
  rw [if_neg hlen, hdecode]
  dsimp only
  by_cases hunlink : r.header.command = usbipCmdUnlink
  · rw [if_pos hunlink, if_pos hunlink]
    refine ⟨retUnlink r.header.seqnum, (by decide : 48 < 65536), ?_, ?_, rfl, rfl, rfl⟩
    · rw [retUnlink, List.append_assoc, be32At_head]
    · rw [retUnlink, List.append_assoc, be32At_skip _ _ 0, be32At_head]
  · have hsubmit : r.header.command = usbipCmdSubmit := r.isRequest.resolve_right hunlink
    rw [if_neg hunlink, if_neg (not_not.mpr hsubmit), if_neg hunlink]
    split_ifs
    · exact answers_retSubmit m _ _ (length_handleControlIn_le _)
    · exact answers_retSubmit m _ _ (by decide)
    · exact answers_retSubmit { m with dx := 0, dy := 0, reports := _ } _ _
        (by decide : 4 ≤ 52)
    · exact answers_retSubmit m _ _ (by decide)

/-- An unlink has zeros where a submit has the length of its buffer, which is all that the program
looks at. -/
def Padded (r : UsbipRequest) : Prop :=
  r.header.command = usbipCmdUnlink → r.header.transferBufferLength = 0

private theorem extra_header {r : UsbipRequest} (hr : Padded r) :
    extra r.header = r.header.dataLen := by
  unfold extra CmdSubmit.dataLen
  cases r.isRequest with
  | inl hsubmit => simp [hsubmit]
  | inr hunlink => simp [hr hunlink]

private theorem decode_bytes (r : UsbipRequest) {n : Nat} (hn : CmdSubmit.size ≤ n)
    (rest : List UInt8) : CmdSubmit.decode (r.bytes.take n ++ rest) = r.header := by
  change CmdSubmit.decode ((r.header.encode ++ r.payload).take n ++ rest) = r.header
  rw [List.take_append, List.take_of_length_le (by rwa [CmdSubmit.length_encode]),
    List.append_assoc, CmdSubmit.decode_encode]

private theorem process_bytes (m : WasdMouse) {r : UsbipRequest} (hr : Padded r)
    (rest : List UInt8) : m.process (r.bytes ++ rest) = (m.dispatchUsbip r.bytes).process rest := by
  have hlen : r.bytes.length = CmdSubmit.size + r.header.dataLen := r.toFrame.length_bytes
  have hdecode : CmdSubmit.decode (r.bytes ++ rest) = r.header := by
    have h := decode_bytes r (n := r.bytes.length) (by omega) rest
    rwa [List.take_length] at h
  rw [process, hdecode, extra_header hr, ← hlen, if_pos (by rw [List.length_append]; omega),
    if_neg (by rw [List.length_append]; omega), List.take_left, List.drop_left]

/-- Of a request that is not whole the loop takes nothing, wherever it is cut. -/
theorem process_started (m : WasdMouse) {r : UsbipRequest} (hr : Padded r) {rest : List UInt8}
    (hpre : rest <+: r.bytes) (hne : rest ≠ r.bytes) : m.process rest = m := by
  have hlen : r.bytes.length = CmdSubmit.size + r.header.dataLen := r.toFrame.length_bytes
  have hlt : rest.length < r.bytes.length := by
    refine lt_of_le_of_ne hpre.length_le fun heq => hne (hpre.eq_of_length heq)
  rw [process]
  split
  · rename_i hsize
    have hdecode : CmdSubmit.decode rest = r.header := by
      have h := decode_bytes r hsize []
      rwa [List.append_nil, ← List.prefix_iff_eq_take.mp hpre] at h
    rw [hdecode, extra_header hr, ← hlen, if_pos hlt]
  · rfl

/-- The datagrams that the mouse has sent: the announcement and one answer for each request, in
their order, numbered in eight bits. -/
structure Answered (m : WasdMouse) (deviceId : UInt8) (requests : List UsbipRequest) : Prop where
  device : m.deviceId = deviceId
  next : m.seq = UInt8.ofNat m.sent.length
  headers : ∀ k d, m.sent[k]? = some d → (Header.decode d).deviceId = deviceId ∧
    (Header.decode d).seq = UInt8.ofNat k ∧ (Header.decode d).payloadLen.toNat = d.length - 6
  answers : m.sent.tail.map (fun d => (be32At d 6, be32At d 10)) =
    requests.map fun r => (retCommand r, r.seqnum)
  announced : m.sent ≠ []

private theorem Answers.answered {m m' : WasdMouse} {r : UsbipRequest} (h : Answers m m' (retCommand r) r.seqnum)
    {deviceId : UInt8} {requests : List UsbipRequest} (hm : m.Answered deviceId requests) :
    m'.Answered deviceId (requests ++ [r]) := by
  obtain ⟨payload, hlen, hcommand, hseqnum, hsent, hseq, hdevice⟩ := h
  constructor
  · rw [hdevice, hm.device]
  · rw [hseq, hsent, hm.next, udpSend, List.length_append, List.length_singleton]
    exact (UInt8.ofNat_add _ _).symm
  · intro k d hk
    rw [hsent, udpSend] at hk
    dsimp only at hk
    rw [List.getElem?_append] at hk
    split at hk
    · exact hm.headers k d hk
    · rename_i hge
      rw [List.getElem?_singleton] at hk
      split at hk
      · have hk' : k = m.sent.length := by omega
        rw [← Option.some.inj hk, Header.decode_encode, hk', ← hm.next]
        refine ⟨hm.device, rfl, ?_⟩
        rw [List.length_append, Header.length_encode, Header.size, Nat.add_sub_cancel_left]
        exact Nat.mod_eq_of_lt hlen
      · cases hk
  · rw [hsent, udpSend]
    dsimp only
    rw [List.tail_append_of_ne_nil hm.announced, List.map_append, List.map_append, hm.answers]
    congr 1
    rw [List.map_singleton, List.map_singleton, ← hcommand, ← hseqnum]
    rfl
  · rw [hsent]
    exact List.append_ne_nil_of_left_ne_nil hm.announced _

private theorem answered_process {m : WasdMouse} {deviceId : UInt8}
    {before requests : List UsbipRequest} (hm : m.Answered deviceId before)
    (hpadded : ∀ r ∈ requests, Padded r) {next : UsbipRequest} (hnext : Padded next)
    {rest : List UInt8} (hpre : rest <+: next.bytes) (hne : rest ≠ next.bytes) :
    (m.process (requests.flatMap UsbipRequest.bytes ++ rest)).Answered deviceId (before ++ requests) := by
  induction requests generalizing m before with
  | nil =>
    rw [List.flatMap_nil, List.nil_append, List.append_nil, process_started m hnext hpre hne]
    exact hm
  | cons r requests ih =>
    rw [List.flatMap_cons, List.append_assoc, process_bytes m (hpadded r List.mem_cons_self),
      ← List.singleton_append, ← List.append_assoc before]
    exact ih ((answers_dispatchUsbip m r).answered hm) fun x hx => hpadded x (.tail r hx)

/-- A key, or a packet of the daemon for this device with whole requests in it and the beginning of
one more, which may be empty or end within the data of the request. -/
def Carries (deviceId : UInt8) : MouseInput → List UsbipRequest → Prop
  | .key _, requests => requests = []
  | .datagram bytes, requests => ∃ (hdr : Header) (rest : List UInt8) (next : UsbipRequest),
      bytes = hdr.encode ++ (requests.flatMap UsbipRequest.bytes ++ rest) ∧
      hdr.cmdType = CmdType.rawData.toByte ∧ hdr.deviceId = deviceId ∧
      rest <+: next.bytes ∧ rest ≠ next.bytes ∧ ∀ r ∈ next :: requests, Padded r

private theorem answered_step {m : WasdMouse} {deviceId : UInt8}
    {before requests : List UsbipRequest}
    (hm : m.Answered deviceId before) {i : MouseInput} (hi : Carries deviceId i requests) :
    (m.step i).Answered deviceId (before ++ requests) := by
  cases i with
  | key ch =>
    rw [show requests = [] from hi, List.append_nil]
    exact ⟨hm.device, hm.next, hm.headers, hm.answers, hm.announced⟩
  | datagram bytes =>
    obtain ⟨hdr, rest, next, rfl, hraw, hdevice, hpre, hne, hpadded⟩ := hi
    have hlen : ¬(hdr.encode ++ (requests.flatMap UsbipRequest.bytes ++ rest)).length < Header.size := by
      rw [List.length_append, Header.length_encode]
      omega
    rw [step, onDatagram, if_neg hlen, Header.decode_encode]
    dsimp only
    rw [if_neg (not_not.mpr hraw), if_neg (not_not.mpr (hdevice.trans hm.device.symm)),
      List.drop_left' hdr.length_encode]
    exact answered_process hm (fun r hr => hpadded r (.tail next hr)) (hpadded next List.mem_cons_self)
      hpre hne

private theorem answered_foldl {m : WasdMouse} {deviceId : UInt8} {before : List UsbipRequest}
    (hm : m.Answered deviceId before) {inputs : List MouseInput} {requests : List (List UsbipRequest)}
    (h : List.Forall₂ (Carries deviceId) inputs requests) :
    (inputs.foldl step m).Answered deviceId (before ++ requests.flatten) := by
  induction h generalizing m before with
  | nil =>
    rw [List.flatten_nil, List.append_nil]
    exact hm
  | cons hi _ ih =>
    rw [List.foldl_cons, List.flatten_cons, ← List.append_assoc]
    exact ih (answered_step hm hi)

/-- Behind the announcement the mouse sends one answer for each request, in the order of the
requests and with their sequence numbers, whatever keys come in between and however the requests
are packed. The datagrams are numbered in eight bits and carry the length of what is in them. -/
theorem answers_of_loop (deviceId : UInt8) (replyPort : UInt16) (batches : List (List MouseInput))
    {requests : List (List UsbipRequest)}
    (h : List.Forall₂ (Carries deviceId) ((start deviceId replyPort).taken batches) requests) :
    let m := (start deviceId replyPort).loop batches
    m.sent.tail.map (fun d => (be32At d 6, be32At d 10)) =
      requests.flatten.map (fun r => (retCommand r, r.seqnum)) ∧
    ∀ k d, m.sent[k]? = some d → (Header.decode d).deviceId = deviceId ∧
      (Header.decode d).seq = UInt8.ofNat k ∧ (Header.decode d).payloadLen.toNat = d.length - 6 := by
  have hstart : (start deviceId replyPort).Answered deviceId [] := by
    refine ⟨rfl, rfl, ?_, rfl, List.cons_ne_nil _ _⟩
    intro k d hk
    cases k with
    | zero =>
      rw [← Option.some.inj hk, Header.decode_encode]
      exact ⟨rfl, rfl, rfl⟩
    | succ k => cases hk
  have hm := answered_foldl hstart h
  rw [← loop_eq] at hm
  exact ⟨hm.answers, hm.headers⟩

def pollHeader (seqnum : UInt32) : CmdSubmit :=
  ⟨usbipCmdSubmit, seqnum, 0x10002, usbipDirIn, 1, 0, 4, 0, 0, 10, .replicate 8 0⟩

private theorem dataLen_pollHeader (seqnum : UInt32) : (pollHeader seqnum).dataLen = 0 := rfl

/-- A poll of the interrupt endpoint. -/
def poll (seqnum : UInt32) : UsbipRequest where
  header := pollHeader seqnum
  payload := []
  payload_length := (dataLen_pollHeader seqnum).symm
  isRequest := .inl rfl

def reportHeader : CmdSubmit :=
  ⟨usbipCmdSubmit, 7, 0x10002, usbipDirOut, 0, 0, 8, 0, 0, 0, .replicate 8 0⟩

private theorem dataLen_reportHeader : reportHeader.dataLen = 8 := rfl

/-- A control transfer with eight bytes of data. -/
def setReport : UsbipRequest where
  header := reportHeader
  payload := List.replicate 8 0
  payload_length := dataLen_reportHeader.symm
  isRequest := .inl rfl

/-- Two polls in one packet behind a key, and in front of a request that is cut within its data. -/
theorem answers_of_two_polls :
    let bytes := Header.encode ⟨CmdType.rawData.toByte, 1, 0, 0, 146⟩ ++
      ((poll 5).bytes ++ (poll 6).bytes ++ setReport.bytes.take 50)
    ((start 1 7790).loop [[.key 100, .datagram bytes]]).sent.tail.map
      (fun d => (be32At d 6, be32At d 10)) = [(3, 5), (3, 6)] := by
  intro bytes
  have hcarries : Carries 1 (.datagram bytes) [poll 5, poll 6] := by
    refine ⟨⟨CmdType.rawData.toByte, 1, 0, 0, 146⟩, _, setReport, ?_, rfl, rfl,
      List.take_prefix 50 _, fun h => ?_, ?_⟩
    · rw [List.flatMap_cons, List.flatMap_singleton]
    · exact absurd (congrArg List.length h) (by decide)
    · intro r hr hunlink
      rw [List.mem_cons, List.mem_pair] at hr
      rcases hr with h | h | h <;> subst h <;> cases hunlink
  exact (answers_of_loop 1 7790 [[.key 100, .datagram bytes]] (.cons rfl (.cons hcarries .nil))).1

end Answers
end WasdMouse
end WirelessHub

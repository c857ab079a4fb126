import WirelessHub.Firmware.DriverCalls
import WirelessHub.Firmware.Endpoints
import WirelessHub.Firmware.InFrames
import WirelessHub.Firmware.TransferResults

/-!
# Replies to submits

What the kernel learns from the reply to a request, with the driver behind the proxy. The
reply has the shape of the request and of the data that the driver copied, whatever the
length in the request says. How the transfer ended it tells only in part: a failure is not a
negative status, and the length of an OUT transfer is never reported.
-/

namespace WirelessHub.Firmware.Usb

def requestCall (raw : List UInt8) : UsbCall :=
  usbCall (CmdSubmit.decode raw) (raw.drop CmdSubmit.size)

/-- The answer is that of the driver in this state. -/
structure DriverState.Gives (d : DriverState) (f : Fate) (call : UsbCall) (u : UsbAnswer) : Prop where
  ret : u.ret = (d.perform f call).ret
  data : u.data = (d.perform f call).data

/-! ## Lengths and buffers -/

/-- The bytes that a call may write to its caller's buffer. -/
def inLen : UsbCall → Nat
  | .controlIn _ maxIn => maxIn
  | .recv maxLen => maxLen
  | _ => 0

/-- The bytes that a call may read from the data of the request. -/
def outLen : UsbCall → Nat
  | .controlOut _ data => data.length
  | .sendBlocking data => data.length
  | _ => 0

private theorem requestCall_cases {P : UsbCall → Prop} (raw : List UInt8)
    (hin : (CmdSubmit.decode raw).direction = usbipDirIn → ∀ n, n ≤ inBufSize →
      n ≤ (CmdSubmit.decode raw).transferBufferLength.toNat →
      P (.controlIn (CmdSubmit.decode raw).setup n) ∧ P (.recv n))
    (hout : (CmdSubmit.decode raw).direction ≠ usbipDirIn → ∀ data : List UInt8,
      data.length ≤ raw.length - CmdSubmit.size →
      P (.controlOut (CmdSubmit.decode raw).setup data) ∧ P (.sendBlocking data)) :
    P (requestCall raw) := by
  by_cases hdir : (CmdSubmit.decode raw).direction = usbipDirIn
  · let length := (CmdSubmit.decode raw).transferBufferLength.toNat
    have hle : (if length < inBufSize then length else inBufSize) ≤ inBufSize ∧
        (if length < inBufSize then length else inBufSize) ≤ length := by
      split <;> omega
    have hcalls := hin hdir _ hle.1 hle.2
    by_cases hep : (CmdSubmit.decode raw).ep = 0
    · rw [requestCall, usbCall, if_pos hep, if_pos hdir]
      exact hcalls.1
    · rw [requestCall, usbCall, if_neg hep, if_pos hdir]
      exact hcalls.2
  · have hle : ∀ n, ((raw.drop CmdSubmit.size).take n).length ≤ raw.length - CmdSubmit.size := by
      intro n
      rw [← List.length_drop]
      exact List.length_take_le' ..
    by_cases hep : (CmdSubmit.decode raw).ep = 0
    · rw [requestCall, usbCall, if_pos hep, if_neg hdir]
      exact (hout hdir _ (hle _)).1
    · rw [requestCall, usbCall, if_neg hep, if_neg hdir]
      exact (hout hdir _ (hle _)).2

private theorem inLen_requestCall (raw : List UInt8) : inLen (requestCall raw) ≤ inBufSize ∧
    inLen (requestCall raw) ≤ (CmdSubmit.decode raw).transferBufferLength.toNat := by
  apply requestCall_cases (P := fun call => inLen call ≤ inBufSize ∧
    inLen call ≤ (CmdSubmit.decode raw).transferBufferLength.toNat)
  · intro _ n hbuf hlen
    exact ⟨⟨hbuf, hlen⟩, ⟨hbuf, hlen⟩⟩
  · intro _ data _
    exact ⟨⟨Nat.zero_le _, Nat.zero_le _⟩, ⟨Nat.zero_le _, Nat.zero_le _⟩⟩

private theorem outLen_requestCall (raw : List UInt8) :
    outLen (requestCall raw) ≤ raw.length - CmdSubmit.size := by
  apply requestCall_cases (P := fun call => outLen call ≤ raw.length - CmdSubmit.size)
  · intro _ n _ _
    exact ⟨Nat.zero_le _, Nat.zero_le _⟩
  · intro _ data hlen
    exact ⟨hlen, hlen⟩

/-- The data stage of a control transfer. -/
def stageLen : Option (List UInt8) → Nat → Nat
  | some data, _ => data.length
  | none, maxIn => maxIn

section Control

variable {s : Calls} {x : Transfer} {setup : Vector UInt8 8} {outData : Option (List UInt8)}
  {maxIn : Nat} {f : Fate}

private theorem fillControl_numBytes (hok : (x.fillControl setup outData maxIn).2 = true) :
    (x.fillControl setup outData maxIn).1.numBytes = setupSize + stageLen outData maxIn ∧
      stageLen outData maxIn ≤ ctrlMax := by
  unfold Transfer.fillControl at hok ⊢
  cases outData with
  | some data =>
    dsimp only at hok ⊢
    split at hok
    · cases hok
    · rename_i hlen
      rw [if_neg hlen]
      exact ⟨rfl, Nat.not_lt.mp hlen⟩
  | none =>
    dsimp only at hok ⊢
    split at hok
    · cases hok
    · rename_i hlen
      rw [if_neg hlen]
      exact ⟨rfl, Nat.not_lt.mp hlen⟩

private theorem controlResult_le (inBuf : Bool) (maxIn actual : Nat) (buffer : List UInt8) :
    (controlResult inBuf maxIn actual buffer).1 ≤ actual := by
  unfold controlResult
  split
  · dsimp only
    split <;> omega
  · exact Int.le_refl _

private theorem toInt_nonneg (status : TransferStatus) : 0 ≤ status.toInt := by
  cases status <;> decide

/-- A call whose semaphore is clear returns no more than the data stage of its own transfer. -/
theorem drvControl_ret_le (hdone : s.done .ctrl = false)
    (hwithin : ∀ x c, s.filledControl setup outData maxIn = some x → f.completion = some c →
      c.actualNumBytes ≤ x.numBytes) (inBuf : Bool) :
    (s.drvControl setup outData inBuf maxIn f).ret ≤ stageLen outData maxIn ∧
      (s.drvControl setup outData inBuf maxIn f).ret ≤ ctrlMax := by
  by_cases hsub : ∃ x, s.filledControl setup outData maxIn = some x ∧ f.accepted = true ∧ x.inFlight = none
  · obtain ⟨x, hfilled, haccepted⟩ := hsub
    have hvalue := congrArg Prod.fst (Calls.drvControl_of_submitted hfilled haccepted inBuf)
    dsimp only at hvalue
    obtain ⟨y, -, -, hok, rfl⟩ := Calls.exists_of_filledControl hfilled
    have hnum := fillControl_numBytes hok
    rw [hvalue]
    cases hf : f.completion with
    | none =>
      simp only [Calls.ctrlAnswer, hf, hdone, Bool.false_eq_true, if_false, Calls.controlReturn]
      omega
    | some c =>
      have hle := hwithin _ c hfilled hf
      have hres := controlResult_le inBuf maxIn (c.actualNumBytes - setupSize) c.buffer
      have hst := toInt_nonneg c.status
      simp only [Calls.ctrlAnswer, hf, Calls.controlReturn]
      split
      · dsimp only
        omega
      · omega
  · have hno : ∀ x, s.filledControl setup outData maxIn = some x →
        ¬(f.accepted = true ∧ x.inFlight = none) :=
      fun x hfilled haccepted => hsub ⟨x, hfilled, haccepted⟩
    rw [(Calls.drvControl_of_not_submitted hno inBuf).1]
    omega

private theorem length_controlReturn_le (inBuf : Bool) (maxIn : Nat)
    (answer : Option (TransferStatus × Nat × List UInt8)) :
    (Calls.controlReturn inBuf maxIn answer).2.length ≤ maxIn := by
  cases answer with
  | none => exact Nat.zero_le _
  | some answer =>
    obtain ⟨status, actual, buffer⟩ := answer
    simp only [Calls.controlReturn, controlResult]
    split
    · exact Nat.zero_le _
    · split
      · apply (List.length_take_le ..).trans
        split <;> omega
      · exact Nat.zero_le _

private theorem recvReturn_le (maxLen : Nat) (queue : List UsbFrame) :
    (InPipe.recvReturn maxLen queue).1 ≤ maxLen ∧
      (InPipe.recvReturn maxLen queue).2.length ≤ maxLen := by
  cases queue with
  | nil => exact ⟨by simp only [InPipe.recvReturn]; omega, Nat.zero_le _⟩
  | cons frame rest =>
    have hcopy : (if frame.len.toNat < maxLen then frame.len.toNat else maxLen) ≤ maxLen := by
      split <;> omega
    simp only [InPipe.recvReturn]
    split
    · exact ⟨by dsimp only; omega, Nat.zero_le _⟩
    · exact ⟨Int.ofNat_le.mpr hcopy, (List.length_take_le ..).trans hcopy⟩

end Control

namespace DriverState

variable {d : DriverState} {f : Fate} {call : UsbCall}

/-- No completion of an earlier submit is left for the call to take. -/
def OwnCompletion (d : DriverState) : UsbCall → Prop
  | .controlIn _ _ => d.calls.done .ctrl = false
  | .controlOut _ _ => d.calls.done .ctrl = false
  | .recv _ => d.pipe.rxQueue = []
  | .sendBlocking _ => d.calls.done .out = false

/-- The controller moves no more than the transfer asks for. -/
def Within (d : DriverState) (f : Fate) (call : UsbCall) : Prop :=
  ∀ x c, d.filled call = some x → f.completion = some c → c.actualNumBytes ≤ x.numBytes

private theorem length_data_le (d : DriverState) (f : Fate) (call : UsbCall) :
    (d.perform f call).data.length ≤ inLen call := by
  apply perform_cases (P := fun _ data => data.length ≤ inLen call)
  · intro x _
    cases call with
    | controlIn setup maxIn => exact length_controlReturn_le ..
    | controlOut setup data => exact length_controlReturn_le ..
    | recv maxLen => exact (recvReturn_le ..).2
    | sendBlocking data => exact Nat.zero_le _
  · exact Nat.zero_le _
  · exact fun _ _ => Nat.zero_le _

private theorem ret_recv_le (d : DriverState) (f : Fate) (maxLen : Nat) :
    (d.perform f (.recv maxLen)).ret ≤ maxLen := by
  apply perform_cases (P := fun ret _ => ret ≤ maxLen)
  · exact fun x _ => (recvReturn_le ..).1
  · omega
  · intro data hcall
    cases hcall

private theorem ret_sendBlocking_le (d : DriverState) (f : Fate) (data : List UInt8) :
    (d.perform f (.sendBlocking data)).ret ≤ espErrTimeout := by
  apply perform_cases (P := fun ret _ => ret ≤ espErrTimeout)
  · intro x _
    rw [settledReturn]
    cases d.calls.outAnswer f with
    | none => exact Int.le_refl _
    | some status => cases status <;> decide
  · decide
  · exact fun _ _ => by decide

private theorem ret_le (hown : d.OwnCompletion call) (hwithin : d.Within f call)
    (hin : inLen call ≤ inBufSize) : (d.perform f call).ret ≤ inBufSize := by
  cases call with
  | controlIn setup maxIn =>
    have hret := (drvControl_ret_le hown hwithin true).1
    exact hret.trans (Int.ofNat_le.mpr hin)
  | controlOut setup data =>
    have hret := (drvControl_ret_le hown hwithin false).2
    exact hret.trans (by decide)
  | recv maxLen => exact (ret_recv_le d f maxLen).trans (Int.ofNat_le.mpr hin)
  | sendBlocking data => exact (ret_sendBlocking_le d f data).trans (by decide)

private theorem exists_gives (hown : d.OwnCompletion call) (hwithin : d.Within f call)
    (hin : inLen call ≤ inBufSize) : ∃ u, d.Gives f call u :=
  ⟨⟨_, _, ret_le hown hwithin hin, (d.length_data_le f call).trans hin⟩, rfl, rfl⟩

private theorem actual_le (hown : d.OwnCompletion call) (hwithin : d.Within f call) :
    (usbOutcome (d.perform f call).ret call).1 ≤ inLen call := by
  cases call with
  | controlIn setup maxIn =>
    have hret := (drvControl_ret_le hown hwithin true).1
    simp only [usbOutcome, inLen]
    split
    · exact Nat.zero_le _
    · exact Int.toNat_le.mpr hret
  | controlOut setup data =>
    simp only [usbOutcome]
    split <;> exact Nat.zero_le _
  | recv maxLen =>
    have hret := ret_recv_le d f maxLen
    simp only [usbOutcome, inLen]
    split
    · exact Nat.zero_le _
    · exact Int.toNat_le.mpr hret
  | sendBlocking data =>
    simp only [usbOutcome]
    split <;> exact Nat.zero_le _

end DriverState

/-- The access stays in its buffer, for buffers of these sizes. -/
def Access.Fits (size : Region → Nat) (a : Access) : Prop := a.offset + a.len ≤ size a.region

section Accesses

variable {size : Region → Nat} {f : Fate}

private theorem fillAccesses_fit (hctrl : setupSize + ctrlMax ≤ size .ctrlBuffer) {n : Nat}
    (hdata : n ≤ size .data) : ∀ a ∈ Calls.fillAccesses n, a.Fits size := by
  intro a ha
  simp only [setupSize] at hctrl
  rcases List.mem_cons.mp ha with rfl | ha
  · show 0 + 8 ≤ size .ctrlBuffer
    omega
  · split at ha
    · rename_i hn
      rcases List.mem_cons.mp ha with rfl | ha
      · show 0 + n ≤ size .data
        omega
      · rw [List.mem_singleton.mp ha]
        show 8 + n ≤ size .ctrlBuffer
        omega
    · cases ha

private theorem drvControl_accesses_fit (s : Calls) (setup : Vector UInt8 8)
    {outData : Option (List UInt8)}
    {inBuf : Bool} {maxIn : Nat} (hctrl : setupSize + ctrlMax ≤ size .ctrlBuffer)
    (hdata : (outData.getD []).length ≤ size .data)
    (hin : inBuf = true → outData = none ∧ maxIn ≤ size .inBuf) :
    ∀ a ∈ (s.drvControl setup outData inBuf maxIn f).accesses, a.Fits size := by
  have hfill := fillAccesses_fit hctrl hdata
  unfold Calls.drvControl
  split
  · rename_i x hdev hx
    dsimp only
    split
    · rename_i hsub
      split
      · exact hfill
      · split
        · exact hfill
        · split
          · rename_i status actual buffer hanswer hst hcopy
            -- the data stage is that of an IN transfer, and it was checked before the submit
            obtain ⟨rfl, hmax⟩ := hin hcopy.1
            have hstage : maxIn ≤ ctrlMax := (fillControl_numBytes hsub.1).2
            have hle : (if actual < maxIn then actual else maxIn) ≤ maxIn := by split <;> omega
            intro a ha
            rcases List.mem_append.mp ha with ha | ha
            · exact hfill a ha
            rcases List.mem_cons.mp ha with rfl | ha
            · exact (Nat.add_le_add_left (hle.trans hstage) setupSize).trans hctrl
            · rw [List.mem_singleton.mp ha]
              exact (Nat.zero_add _).trans_le (hle.trans hmax)
          · exact hfill
    · exact hfill
  · intro a ha
    cases ha

private theorem perform_accesses_fit (d : DriverState) {call : UsbCall}
    (hctrl : setupSize + ctrlMax ≤ size .ctrlBuffer) (hdata : outLen call ≤ size .data)
    (hin : inLen call ≤ size .inBuf) : ∀ a ∈ (d.perform f call).accesses, a.Fits size := by
  cases call with
  | controlIn setup maxIn =>
    exact drvControl_accesses_fit d.calls setup hctrl (Nat.zero_le _) fun _ => ⟨rfl, hin⟩
  | controlOut setup data =>
    exact drvControl_accesses_fit d.calls setup hctrl hdata fun h => Bool.noConfusion h
  | recv maxLen =>
    intro a ha
    simp only [DriverState.perform, InPipe.drvRecvFrame] at ha
    split at ha
    · split at ha
      · split at ha
        · cases ha
        · rename_i frame rest hqueue
          split at ha
          · cases ha
          · rw [List.mem_singleton.mp ha]
            have hle : (if frame.len.toNat < maxLen then frame.len.toNat else maxLen) ≤ maxLen := by
              split <;> omega
            exact (Nat.zero_add _).trans_le (hle.trans hin)
      · cases ha
    · cases ha
  | sendBlocking data =>
    intro a ha
    simp only [DriverState.perform, Calls.drvSendBlocking] at ha
    split at ha
    · rw [List.mem_singleton.mp ha]
      have hle : (if data.length > d.calls.outMps then d.calls.outMps else data.length) ≤ data.length := by
        split <;> omega
      exact (Nat.zero_add _).trans_le (hle.trans hdata)
    · cases ha

end Accesses

def bufferSize (raw : List UInt8) : Region → Nat
  | .request => raw.length
  | .data => raw.length - CmdSubmit.size
  | .inBuf => inBufSize
  | .ctrlBuffer => setupSize + ctrlMax

/-- The accesses of `usb_handle_submit` to the payload and to `in_buf`, with those of the
driver call that it makes. -/
def handleAccesses (d : DriverState) (f : Fate) (raw : List UInt8) : List Access :=
  if raw.length < CmdSubmit.size then []
  else
    let cmd := CmdSubmit.decode raw
    ⟨.request, 0, CmdSubmit.size⟩ ::
      if cmd.command = usbipCmdUnlink then [⟨.request, 4, 4⟩]
      else if cmd.command ≠ usbipCmdSubmit then []
      else
        let r := d.perform f (requestCall raw)
        let actual := (usbOutcome r.ret (requestCall raw)).1
        r.accesses ++ [⟨.inBuf, 0, if cmd.direction = usbipDirIn ∧ 0 < actual then actual else 0⟩]

private theorem handleAccesses_fit {d : DriverState} {f : Fate} {raw : List UInt8}
    (hown : d.OwnCompletion (requestCall raw)) (hwithin : d.Within f (requestCall raw)) :
    ∀ a ∈ handleAccesses d f raw, a.Fits (bufferSize raw) := by
  have hin := inLen_requestCall raw
  intro a ha
  unfold handleAccesses at ha
  split at ha
  · cases ha
  rename_i hlen
  have hlen' : CmdSubmit.size ≤ raw.length := Nat.not_lt.mp hlen
  rcases List.mem_cons.mp ha with rfl | ha
  · exact (Nat.zero_add _).trans_le hlen'
  split at ha
  · rw [List.mem_singleton.mp ha]
    exact le_trans (by decide) hlen'
  split at ha
  · cases ha
  rcases List.mem_append.mp ha with ha | ha
  · exact perform_accesses_fit d (Nat.le_refl _) (outLen_requestCall raw) hin.1 a ha
  · rw [List.mem_singleton.mp ha]
    have hactual := (DriverState.actual_le hown hwithin).trans hin.1
    apply (Nat.zero_add _).trans_le
    dsimp only
    split
    · exact hactual
    · exact Nat.zero_le _

/-! ## The shape of a reply -/

/-- The reply to a submit, as it is on the wire. -/
structure SubmitReply (raw reply : List UInt8) : Prop where
  command : be32At reply 0 = usbipRetSubmit
  seqnum : (reply.drop 4).take 4 = (raw.drop 4).take 4
  direction : (reply.drop 12).take 4 = (raw.drop 12).take 4
  ep : (reply.drop 16).take 4 = (raw.drop 16).take 4
  length : reply.length = 48 +
    if (CmdSubmit.decode raw).direction = usbipDirIn then (be32At reply 24).toNat else 0
  actual_le : (be32At reply 24).toNat ≤ (CmdSubmit.decode raw).transferBufferLength.toNat

private theorem retSubmit_actual (cmd : CmdSubmit) (inBuf : List UInt8) {actual : Nat} (h : actual ≤ inBufSize)
    (status : UInt32) : (be32At (retSubmit cmd inBuf actual status) 24).toNat = actual := by
  have hword : be32At (retSubmit cmd inBuf actual status) 24 = UInt32.ofNat actual := by
    simp only [retSubmit, RetSubmit.encode, List.append_assoc, be32At_skip, be32At_head]
  rw [hword, UInt32.toNat_ofNat']
  rw [inBufSize] at h
  omega

private theorem length_usbFill {inBuf : List UInt8} (hbuf : inBuf.length = inBufSize)
    (u : UsbAnswer) (call : UsbCall) : (usbFill inBuf u call).length = inBufSize := by
  have hfits := u.data_fits
  cases call <;> simp only [usbFill, List.length_append, List.length_drop] <;> omega

private theorem retSubmit_shape {raw inBuf : List UInt8} (hlen : CmdSubmit.size ≤ raw.length)
    (hbuf : inBuf.length = inBufSize) {actual : Nat} (hactual : actual ≤ inBufSize)
    (hle : actual ≤ (CmdSubmit.decode raw).transferBufferLength.toNat) (status : UInt32) :
    SubmitReply raw (retSubmit (CmdSubmit.decode raw) inBuf actual status) := by
  have hword := retSubmit_actual (CmdSubmit.decode raw) inBuf hactual status
  have hbytes : ∀ i, i + 4 ≤ CmdSubmit.size → be32 (be32At raw i) = (raw.drop i).take 4 :=
    fun i hi => be32_be32At (hi.trans hlen)
  constructor
  case command => simp only [retSubmit, RetSubmit.encode, List.append_assoc, be32At_head]
  case seqnum =>
    rw [← hbytes 4 (by decide)]
    simp only [retSubmit, RetSubmit.encode, List.append_assoc, drop_be32, List.drop_zero, take_be32,
      CmdSubmit.decode]
  case direction =>
    rw [← hbytes 12 (by decide)]
    simp only [retSubmit, RetSubmit.encode, List.append_assoc, drop_be32, List.drop_zero, take_be32,
      CmdSubmit.decode]
  case ep =>
    rw [← hbytes 16 (by decide)]
    simp only [retSubmit, RetSubmit.encode, List.append_assoc, drop_be32, List.drop_zero, take_be32,
      CmdSubmit.decode]
  case length =>
    have hheader : ∀ r : RetSubmit, r.encode.length = 48 := fun r => by simp [RetSubmit.encode, be32]
    have hdata : (if (CmdSubmit.decode raw).direction = usbipDirIn ∧ 0 < actual then actual else 0) =
        if (CmdSubmit.decode raw).direction = usbipDirIn then actual else 0 := by
      by_cases hdir : (CmdSubmit.decode raw).direction = usbipDirIn
      · rw [if_pos hdir]
        split
        · rfl
        · rename_i hnot
          have hzero : ¬ 0 < actual := fun hpos => hnot ⟨hdir, hpos⟩
          omega
      · rw [if_neg hdir, if_neg fun h => hdir h.1]
    have hfits : (if (CmdSubmit.decode raw).direction = usbipDirIn then actual else 0) ≤ inBuf.length := by
      split <;> omega
    rw [hword, retSubmit, List.length_append, hheader, hdata, List.length_take_of_le hfits]
  case actual_le => exact hword.trans_le hle

/-- The payload is a request that is answered. -/
def IsRequest (raw : List UInt8) : Prop :=
  CmdSubmit.size ≤ raw.length ∧ ((CmdSubmit.decode raw).command = usbipCmdSubmit ∨
    (CmdSubmit.decode raw).command = usbipCmdUnlink)

instance (raw : List UInt8) : Decidable (IsRequest raw) := inferInstanceAs (Decidable (_ ∧ _))

section Shape

variable {s : Session} {fd : Nat} {inBuf : List UInt8} {d : DriverState} {f : Fate}

/-- With the driver behind it, the proxy keeps to its buffers and answers a request with one
datagram, which echoes the request and is as long as it says. -/
theorem submit_reply_shape (hsock : s.sock = some fd) (hbuf : inBuf.length = inBufSize)
    (raw : List UInt8) (hown : d.OwnCompletion (requestCall raw))
    (hwithin : d.Within f (requestCall raw)) :
    (∃ u, d.Gives f (requestCall raw) u) ∧
    (∀ a ∈ handleAccesses d f raw, a.Fits (bufferSize raw)) ∧
    ∀ a : Answers, a.malloc = true → d.Gives f (requestCall raw) a.usb →
      ∃ replies : List (List UInt8),
        (usbHandleSubmit s inBuf raw a).effects.filterMap Effect.datagram =
          replies.map (fun reply => (s.rawHeader reply.length).encode ++ reply) ∧
        replies.length = (if IsRequest raw then 1 else 0) ∧
        ∀ reply ∈ replies, reply.length ≤ mtuPayload ∧
          ((CmdSubmit.decode raw).command = usbipCmdSubmit → SubmitReply raw reply) := by
  have hin := inLen_requestCall raw
  have hactual := DriverState.actual_le hown hwithin
  refine ⟨DriverState.exists_gives hown hwithin hin.1, handleAccesses_fit hown hwithin, ?_⟩
  intro a hm hgives
  have hanswered : Answered raw a ↔ IsRequest raw := by
    simp only [Answered, IsRequest, hm, and_true, or_comm]
  refine ⟨(usbReply inBuf raw a).toList, usbHandleSubmit_datagrams hsock inBuf raw a, ?_, ?_⟩
  · by_cases hreq : IsRequest raw
    · rw [if_pos hreq, usbReply, if_pos (hanswered.mpr hreq)]
      split <;> rfl
    · rw [if_neg hreq, usbReply, if_neg fun h => hreq (hanswered.mp h)]
      rfl
  · intro reply hreply
    have hreply' : usbReply inBuf raw a = some reply := Option.mem_toList.mp hreply
    refine ⟨length_usbReply_le hreply', fun hcmd => ?_⟩
    have hlen : CmdSubmit.size ≤ raw.length := by
      by_contra hshort
      rw [usbReply, if_neg fun h : Answered raw a => hshort h.1] at hreply'
      cases hreply'
    rw [usbReply_submit inBuf hlen hcmd hm, Option.some.injEq] at hreply'
    rw [← hreply', hgives.ret]
    exact retSubmit_shape hlen (length_usbFill hbuf a.usb _) (hactual.trans hin.1) (hactual.trans hin.2) _

end Shape

/-- An attached device before the first call. -/
def attachedDriver : DriverState := ⟨Calls.attached, InPipe.attached, rfl⟩

def submitOf (ep direction length : UInt32) (data : List UInt8) : List UInt8 :=
  be32 usbipCmdSubmit ++ be32 7 ++ be32 0 ++ be32 direction ++ be32 ep ++ be32 0 ++ be32 length ++
    List.replicate 20 0 ++ data

def descriptorSubmit : List UInt8 := submitOf 0 usbipDirIn 2 []

private theorem requestCall_descriptor :
    requestCall descriptorSubmit = .controlIn (Vector.replicate 8 0) 2 := by
  decide

def descriptorRead : Fate := ⟨true, some (Calls.descriptor 1)⟩

def descriptorAnswer : Answers := { usb := ⟨2, [18, 1], by decide, by decide⟩ }

private theorem descriptorRead_gives :
    attachedDriver.Gives descriptorRead (requestCall descriptorSubmit) descriptorAnswer.usb := by
  rw [requestCall_descriptor]
  exact ⟨rfl, rfl⟩

theorem submit_reply_shape_descriptor :
    (∀ a ∈ handleAccesses attachedDriver descriptorRead descriptorSubmit,
      a.Fits (bufferSize descriptorSubmit)) ∧
    ∃ reply, (usbHandleSubmit activeSession (List.replicate inBufSize 0) descriptorSubmit
        descriptorAnswer).effects.filterMap Effect.datagram =
          [(activeSession.rawHeader reply.length).encode ++ reply] ∧
      SubmitReply descriptorSubmit reply := by
  have hown : attachedDriver.OwnCompletion (requestCall descriptorSubmit) := by
    rw [requestCall_descriptor]
    rfl
  have hwithin : attachedDriver.Within descriptorRead (requestCall descriptorSubmit) := by
    rw [requestCall_descriptor]
    intro x c hx hc
    cases hx
    cases hc
    decide
  have hshape := @submit_reply_shape activeSession 3 (List.replicate inBufSize 0) attachedDriver
    descriptorRead rfl List.length_replicate descriptorSubmit hown hwithin
  obtain ⟨replies, hsent, hone, hreplies⟩ := hshape.2.2 descriptorAnswer rfl descriptorRead_gives
  rw [if_pos (by decide)] at hone
  obtain ⟨reply, rfl⟩ := List.length_eq_one_iff.mp hone
  exact ⟨hshape.2.1, reply, hsent, (hreplies reply (List.mem_singleton_self reply)).2 (by decide)⟩

/-! ## The outcome in a reply -/

/-- The data bytes that a transfer moved. -/
def moved : UsbCall → Completion → Nat
  | .controlIn _ _, c => c.actualNumBytes - setupSize
  | .controlOut _ _, c => c.actualNumBytes - setupSize
  | .recv _, c => c.actualNumBytes
  | .sendBlocking _, c => c.actualNumBytes

/-- The data bytes that an OUT transfer took from its buffer. -/
def sent (call : UsbCall) (x : Transfer) (c : Completion) : List UInt8 :=
  match call with
  | .controlOut _ _ => (x.dataBuffer.drop setupSize).take (moved call c)
  | _ => x.dataBuffer.take (moved call c)

/-- The transfer of the call was made and ended well while the call waited. -/
structure DriverState.Completes (d : DriverState) (f : Fate) (call : UsbCall) (x : Transfer)
    (c : Completion) : Prop extends d.Submits f call x where
  completion : f.completion = some c
  status : c.status = .completed

def replyActual (datagram : List UInt8) : UInt32 := be32At (datagram.drop Header.size) 24

/-- The reply tells how the transfer of its request ended: a success with the bytes that were
moved, which for OUT are all the bytes of the request, and a failure by a negative status. -/
structure TellsOutcome (d : DriverState) (f : Fate) (raw datagram : List UInt8) : Prop where
  success : replyStatus datagram = 0 → ∃ x c, d.Completes f (requestCall raw) x c ∧
    (replyActual datagram).toNat = moved (requestCall raw) c ∧
    ((CmdSubmit.decode raw).direction ≠ usbipDirIn →
      moved (requestCall raw) c = (CmdSubmit.decode raw).transferBufferLength.toNat ∧
      sent (requestCall raw) x c =
        (raw.drop CmdSubmit.size).take (CmdSubmit.decode raw).transferBufferLength.toNat)
  failure : (¬∃ x c, d.Completes f (requestCall raw) x c) →
    (replyStatus datagram).toBitVec.toInt < 0

/-- The bytes that a transfer moved are those that the reply counts: an IN transfer is not cut
to the request, to a frame or to a frame that was left in the queue, and an OUT transfer
has no data. -/
def DriverState.Counted (d : DriverState) (length : Nat) (c : Completion) : UsbCall → Prop
  | .controlIn _ maxIn => maxIn = 0 ∨ c.actualNumBytes - setupSize ≤ maxIn
  | .controlOut _ _ => length = 0 ∧ c.actualNumBytes - setupSize = 0
  | .recv maxLen => match d.pipe.rxQueue with
    | [] => c.actualNumBytes ≤ frameMax ∧ c.actualNumBytes ≤ maxLen
    | frame :: _ => frame.len = 0xFFFF ∨ min frame.len.toNat maxLen = c.actualNumBytes
  | .sendBlocking _ => length = 0 ∧ c.actualNumBytes = 0

section Outcome

variable {d : DriverState} {f : Fate} {call : UsbCall} {x : Transfer} {c : Completion}

def isOut : UsbCall → Bool
  | .controlIn _ _ => false
  | .controlOut _ _ => true
  | .recv _ => false
  | .sendBlocking _ => true

private theorem usbOutcome_status (ret : Int) (call : UsbCall) :
    (usbOutcome ret call).2 = 0 ∨ (usbOutcome ret call).2 = 1 := by
  cases call <;> simp only [usbOutcome] <;> split <;> simp

private theorem usbOutcome_out (ret : Int) (hout : isOut call = true) :
    (usbOutcome ret call).1 = 0 := by
  cases call with
  | controlIn => cases hout
  | controlOut => simp only [usbOutcome]; split <;> rfl
  | recv => cases hout
  | sendBlocking => simp only [usbOutcome]; split <;> rfl

private theorem usbOutcome_in (n : Nat) (hin : isOut call = false) : usbOutcome n call =
    (n, 0) := by
  have hnat : ¬(n : Int) < 0 := by omega
  cases call with
  | controlIn => rw [usbOutcome, if_neg hnat, Int.toNat_natCast]
  | controlOut => cases hin
  | recv => rw [usbOutcome, if_neg hnat, Int.toNat_natCast]
  | sendBlocking => cases hin

private theorem ctrlAnswer_completed (s : Calls) (buffer : List UInt8) (hf : f.completion = some c)
    (hst : c.status = .completed) (inBuf : Bool) (maxIn : Nat) :
    Calls.controlReturn inBuf maxIn (s.ctrlAnswer buffer f) =
      controlResult inBuf maxIn (c.actualNumBytes - setupSize) c.buffer := by
  simp only [Calls.ctrlAnswer, hf, Calls.controlReturn, hst, ne_eq, not_true, if_false]

private theorem controlResult_in (maxIn actual : Nat) (buffer : List UInt8) :
    ∃ n : Nat, (controlResult true maxIn actual buffer).1 = n ∧
      (n = actual ↔ maxIn = 0 ∨ actual ≤ maxIn) := by
  unfold controlResult
  split
  · exact ⟨if actual < maxIn then actual else maxIn, rfl, by split <;> omega⟩
  · rename_i hno
    have hzero : ¬(0 < maxIn ∧ 0 < actual) := fun hpos => hno ⟨rfl, hpos⟩
    exact ⟨actual, rfl, by omega⟩

private theorem settledQueue_cons {s : InPipe} {frame : UsbFrame} {rest : List UsbFrame}
    (hq : s.rxQueue = frame :: rest) (f : Fate) : ∃ rest', s.settledQueue f = frame :: rest' := by
  have hsend : ∀ frame', ∃ rest', (s.queueSend frame').rxQueue = frame :: rest' := by
    intro frame'
    unfold InPipe.queueSend
    split
    · exact ⟨rest ++ [frame'], by rw [hq]; rfl⟩
    · exact ⟨rest, hq⟩
  unfold InPipe.settledQueue
  split
  · unfold InPipe.inTransferCb
    split
    · exact hsend _
    · exact ⟨rest, hq⟩
    · exact hsend _
  · exact ⟨rest, hq⟩

private theorem settledQueue_nil {s : InPipe} (hq : s.rxQueue = []) (hf : f.completion = some c)
    (hst : c.status = .completed) :
    ∃ frame, s.settledQueue f = [frame] ∧ frame.len.toNat = min c.actualNumBytes frameMax := by
  simp only [InPipe.settledQueue, hf, InPipe.inTransferCb, hst, InPipe.queueSend, hq, List.length_nil,
    rxQueueDepth, Nat.zero_lt_succ, if_true, List.nil_append]
  refine ⟨_, rfl, ?_⟩
  have hlt : (if c.actualNumBytes < frameMax then c.actualNumBytes else frameMax) =
      min c.actualNumBytes frameMax := by
    split <;> omega
  rw [hlt, UInt16.toNat_ofNat', frameMax]
  omega

private theorem recvReturn_failed (maxLen : Nat) {frame : UsbFrame} (h : frame.len = 0xFFFF)
    (rest : List UsbFrame) : (InPipe.recvReturn maxLen (frame :: rest)).1 = -1 := by
  rw [InPipe.recvReturn, if_pos h]

private theorem recvReturn_frame (maxLen : Nat) {frame : UsbFrame} (h : frame.len ≠ 0xFFFF)
    (rest : List UsbFrame) :
    (InPipe.recvReturn maxLen (frame :: rest)).1 = (min frame.len.toNat maxLen : Nat) := by
  have hmin : (if frame.len.toNat < maxLen then frame.len.toNat else maxLen) =
      min frame.len.toNat maxLen := by
    split <;> omega
  rw [InPipe.recvReturn, if_neg h]
  exact congrArg Int.ofNat hmin

private theorem recvReturn_counted (s : InPipe) (hf : f.completion = some c)
    (hst : c.status = .completed) (maxLen : Nat) :
    ((usbOutcome (InPipe.recvReturn maxLen (s.settledQueue f)).1 (.recv maxLen)).2 = 0 →
      (usbOutcome (InPipe.recvReturn maxLen (s.settledQueue f)).1 (.recv maxLen)).1 = c.actualNumBytes) ↔
    match s.rxQueue with
    | [] => c.actualNumBytes ≤ frameMax ∧ c.actualNumBytes ≤ maxLen
    | frame :: _ => frame.len = 0xFFFF ∨ min frame.len.toNat maxLen = c.actualNumBytes := by
  cases hq : s.rxQueue with
  | nil =>
    obtain ⟨frame, hframe, hlen⟩ := settledQueue_nil hq hf hst
    have hok : frame.len ≠ 0xFFFF := by
      intro hfailed
      rw [hfailed] at hlen
      have : min c.actualNumBytes frameMax ≤ 512 := Nat.min_le_right ..
      rw [← hlen] at this
      exact absurd this (by decide)
    rw [hframe, recvReturn_frame maxLen hok, usbOutcome_in _ rfl, hlen]
    simp only [forall_const]
    omega
  | cons frame rest =>
    obtain ⟨rest', hframe⟩ := settledQueue_cons hq f
    rw [hframe]
    by_cases hfailed : frame.len = 0xFFFF
    · rw [recvReturn_failed maxLen hfailed]
      simp [usbOutcome, hfailed]
    · rw [recvReturn_frame maxLen hfailed, usbOutcome_in _ rfl]
      simp [hfailed]

private theorem counted_iff (h : d.Completes f call x c) (length : Nat) :
    ((usbOutcome (d.perform f call).ret call).2 = 0 →
      (usbOutcome (d.perform f call).ret call).1 = moved call c ∧
        (isOut call = true → moved call c = length)) ↔ d.Counted length c call := by
  have hret := congrArg Prod.fst (DriverState.perform_of_submits h.toSubmits)
  dsimp only at hret
  rw [hret]
  cases call with
  | controlIn setup maxIn =>
    obtain ⟨n, hn, hiff⟩ := controlResult_in maxIn (c.actualNumBytes - setupSize) c.buffer
    rw [DriverState.settledReturn, ctrlAnswer_completed _ _ h.completion h.status, hn, usbOutcome_in n rfl]
    simpa [isOut, moved, DriverState.Counted] using hiff
  | controlOut setup data =>
    rw [DriverState.settledReturn, ctrlAnswer_completed _ _ h.completion h.status]
    have hout : usbOutcome (controlResult false 0 (c.actualNumBytes - setupSize) c.buffer).1
        (.controlOut setup data) = (0, 0) := by
      simp [controlResult, usbOutcome]
    rw [hout]
    simp only [moved, isOut, DriverState.Counted, forall_const]
    omega
  | recv maxLen =>
    have hiff := recvReturn_counted d.pipe h.completion h.status maxLen
    simpa [isOut, moved, DriverState.Counted, DriverState.settledReturn] using hiff
  | sendBlocking data =>
    have hout : usbOutcome (Calls.sendReturn (d.calls.outAnswer f)) (.sendBlocking data) = (0, 0) := by
      simp [Calls.outAnswer, h.completion, h.status, Calls.sendReturn, TransferStatus.toInt, usbOutcome]
    rw [DriverState.settledReturn, hout]
    simp only [moved, isOut, DriverState.Counted, forall_const]
    omega

private theorem isOut_requestCall (raw : List UInt8) :
    isOut (requestCall raw) = true ↔ (CmdSubmit.decode raw).direction ≠ usbipDirIn := by
  apply requestCall_cases (P := fun call => isOut call = true ↔ (CmdSubmit.decode raw).direction ≠ usbipDirIn)
  · intro hdir n _ _
    have hno : false = true ↔ (CmdSubmit.decode raw).direction ≠ usbipDirIn :=
      iff_of_false Bool.false_ne_true (not_not_intro hdir)
    exact ⟨hno, hno⟩
  · intro hdir data _
    exact ⟨iff_of_true rfl hdir, iff_of_true rfl hdir⟩

private theorem sent_of_none (x : Transfer) (h : moved call c = 0) : sent call x c = [] := by
  unfold sent
  split <;> rw [h, List.take_zero]

private theorem tellsOutcome_iff {raw datagram : List UInt8}
    (hstatus : replyStatus datagram =
      (usbOutcome (d.perform f (requestCall raw)).ret (requestCall raw)).2)
    (hactual : (replyActual datagram).toNat =
      (usbOutcome (d.perform f (requestCall raw)).ret (requestCall raw)).1) :
    TellsOutcome d f raw datagram ↔ ∃ x c, d.Completes f (requestCall raw) x c ∧
      d.Counted (CmdSubmit.decode raw).transferBufferLength.toNat c (requestCall raw) := by
  constructor
  · intro h
    by_cases hcompletes : ∃ x c, d.Completes f (requestCall raw) x c
    · obtain ⟨x, c, hc⟩ := hcompletes
      refine ⟨x, c, hc, (counted_iff hc _).mp fun hzero => ?_⟩
      obtain ⟨x', c', hc', hmoved, hout⟩ := h.success (hstatus.trans hzero)
      have hsame : c' = c := Option.some.inj (hc'.completion.symm.trans hc.completion)
      subst hsame
      exact ⟨hactual.symm.trans hmoved, fun hisOut => (hout ((isOut_requestCall raw).mp hisOut)).1⟩
    · -- the status is 0 or 1, also where there was no transfer or it failed
      have hneg := h.failure hcompletes
      rw [hstatus] at hneg
      rcases usbOutcome_status (d.perform f (requestCall raw)).ret (requestCall raw) with hs | hs
      · rw [hs] at hneg
        exact absurd hneg (by decide)
      · rw [hs] at hneg
        exact absurd hneg (by decide)
  · intro h
    obtain ⟨x, c, hc, hcounted⟩ := h
    constructor
    · intro hzero
      obtain ⟨hmoved, hlength⟩ := (counted_iff hc _).mpr hcounted (hstatus.symm.trans hzero)
      refine ⟨x, c, hc, hactual.trans hmoved, fun hdir => ?_⟩
      have hisOut := (isOut_requestCall raw).mpr hdir
      have hnone : moved (requestCall raw) c = 0 := hmoved.symm.trans (usbOutcome_out _ hisOut)
      have hlen := hlength hisOut
      rw [sent_of_none x hnone, ← hlen, hnone, List.take_zero]
      exact ⟨rfl, rfl⟩
    · intro hno
      exact absurd ⟨x, c, hc⟩ hno

variable {s : Session} {fd : Nat} {raw : List UInt8} {a : Answers}

/-- A reply tells how the transfer of its request ended exactly if the transfer was made, ended
well and moved just the bytes that the reply counts. -/
theorem reply_tells_outcome_iff (hsock : s.sock = some fd) (inBuf : List UInt8)
    (hlen : CmdSubmit.size ≤ raw.length) (hcmd : (CmdSubmit.decode raw).command = usbipCmdSubmit)
    (hm : a.malloc = true) (hgives : d.Gives f (requestCall raw) a.usb) :
    (∀ datagram ∈ (usbHandleSubmit s inBuf raw a).effects.filterMap Effect.datagram,
      TellsOutcome d f raw datagram) ↔
    ∃ x c, d.Completes f (requestCall raw) x c ∧
      d.Counted (CmdSubmit.decode raw).transferBufferLength.toNat c (requestCall raw) := by
  have hle := usbOutcome_le a.usb (requestCall raw)
  have hreply := usbReply_submit inBuf hlen hcmd hm
  rw [← requestCall, hgives.ret] at hreply
  rw [hgives.ret] at hle
  rw [usbHandleSubmit_datagrams hsock, hreply, Option.toList_some, List.map_singleton,
    List.forall_mem_singleton]
  apply tellsOutcome_iff
  · exact retSubmit_status _ _ _ _
  · exact retSubmit_actual _ _ hle _

end Outcome

theorem reply_tells_outcome_descriptor :
    ∃ reply, (usbHandleSubmit activeSession [] descriptorSubmit
        descriptorAnswer).effects.filterMap Effect.datagram = [reply] ∧
      replyStatus reply = 0 ∧ replyActual reply = 2 ∧
      TellsOutcome attachedDriver descriptorRead descriptorSubmit reply := by
  refine ⟨_, rfl, rfl, rfl, ?_⟩
  apply (@reply_tells_outcome_iff attachedDriver descriptorRead activeSession 3 descriptorSubmit
    descriptorAnswer rfl [] (by decide) (by decide) rfl descriptorRead_gives).mpr
  · rw [requestCall_descriptor]
    exact ⟨_, _, ⟨⟨rfl, rfl, rfl⟩, rfl, rfl⟩, .inr (by decide)⟩
  · exact List.mem_singleton_self _

def unplugged : DriverState :=
  ⟨{ Calls.attached with dev := false }, { InPipe.attached with dev := false }, rfl⟩

def byteSubmit : List UInt8 := submitOf 2 usbipDirOut 1 [0x55]

private theorem requestCall_byte : requestCall byteSubmit = .sendBlocking [0x55] := by
  decide

def byteWritten : Fate := ⟨true, some ⟨.completed, 1, [0x55], by decide⟩⟩
def stalled : Fate := ⟨true, some ⟨.stall, 8, List.replicate 8 0, by decide⟩⟩

def stallAnswer : Answers := { usb := ⟨-4, [], by decide, Nat.zero_le inBufSize⟩ }

/-- Without a device a write is reported as done; a stalled transfer has the status 1; and a
byte that was written is not counted. -/
theorem reply_hides_outcome :
    (unplugged.Gives byteWritten (requestCall byteSubmit) ({} : Answers).usb ∧
      ∃ reply, (usbHandleSubmit activeSession [] byteSubmit {}).effects.filterMap Effect.datagram = [reply] ∧
        replyStatus reply = 0 ∧ ¬TellsOutcome unplugged byteWritten byteSubmit reply) ∧
    (attachedDriver.Gives stalled (requestCall descriptorSubmit) stallAnswer.usb ∧
      ∃ reply, (usbHandleSubmit activeSession [] descriptorSubmit
          stallAnswer).effects.filterMap Effect.datagram = [reply] ∧
        replyStatus reply = 1 ∧ ¬TellsOutcome attachedDriver stalled descriptorSubmit reply) ∧
    (attachedDriver.Gives byteWritten (requestCall byteSubmit) ({} : Answers).usb ∧
      ∃ reply, (usbHandleSubmit activeSession [] byteSubmit {}).effects.filterMap Effect.datagram = [reply] ∧
        replyStatus reply = 0 ∧ replyActual reply = 0 ∧
        ¬TellsOutcome attachedDriver byteWritten byteSubmit reply) := by
  refine ⟨⟨?_, _, rfl, rfl, ?_⟩, ⟨?_, _, rfl, rfl, ?_⟩, ⟨?_, _, rfl, rfl, rfl, ?_⟩⟩
  · rw [requestCall_byte]
    exact ⟨rfl, rfl⟩
  · intro h
    obtain ⟨x, c, hc, -⟩ := h.success rfl
    rw [requestCall_byte] at hc
    cases hc.filled
  · rw [requestCall_descriptor]
    exact ⟨rfl, rfl⟩
  · intro h
    have hneg := h.failure fun hcompletes => by
      obtain ⟨x, c, hc⟩ := hcompletes
      cases hc.completion
      cases hc.status
    exact absurd hneg (by decide)
  · rw [requestCall_byte]
    exact ⟨rfl, rfl⟩
  · intro h
    obtain ⟨x, c, hc, hmoved, -⟩ := h.success rfl
    rw [requestCall_byte] at hc hmoved
    cases hc.completion
    exact absurd hmoved (by decide)

end WirelessHub.Firmware.Usb

import WirelessHub.Firmware.Replies
import WirelessHub.Firmware.UsbHost

/-!
# Endpoints of requests

`open_pipes` sets up one IN and one OUT pipe for a device; `usb_handle_submit` then looks at
the endpoint number of a request only to tell control transfers from the others. So a request
runs on the endpoint it names exactly where that endpoint is the one that was set up.
-/

namespace WirelessHub.Firmware.Usb

def endpointNumber (address : UInt8) : Nat := (address &&& 0x0F).toNat

def Descriptor.inAddress : Descriptor → Option UInt8
  | endpoint a attributes _ => if isIn a ∧ isIntOrBulk attributes then some a else none
  | _ => none

/-- An OUT endpoint with the address 0 is passed over. -/
def Descriptor.outAddress : Descriptor → Option UInt8
  | endpoint a attributes _ => if a ≠ 0 ∧ ¬ isIn a ∧ isIntOrBulk attributes then some a else none
  | _ => none

/-- The endpoint of the IN pipe that a configuration gets. -/
def inPipe (config : List Descriptor) : Option UInt8 :=
  if config.findSome? Descriptor.interfaceNumber = none then none
  else config.findSome? Descriptor.inAddress

/-- The endpoint of the OUT pipe; without an IN pipe there is none. -/
def outPipe (config : List Descriptor) : Option UInt8 :=
  if inPipe config = none then none else config.findSome? Descriptor.outAddress

namespace Driver

/-- The driver call up to its submit: the value it returns at once, or the pipe on which a
transfer is started. -/
def startTransfer (s : Driver) (call : UsbCall) (accepted : Bool) : Except Int Pipe :=
  match call with
  | .controlIn _ maxIn => match s.dev, s.ctrlXfer with
    | some _, some x => if maxIn > 1024 then .error (-1) else if accepted then .ok x else .error (-1)
    | _, _ => .error (-1)
  | .controlOut _ data => match s.dev, s.ctrlXfer with
    | some _, some x =>
        if data.length > 1024 then .error (-1) else if accepted then .ok x else .error (-1)
    | _, _ => .error (-1)
  | .recv _ => match s.dev, s.inXfer with
    | some _, some x => if accepted then .ok x else .error (-1)
    | _, _ => .error (-1)
  | .sendBlocking _ => match s.dev, s.outXfer with
    | some _, some x => if accepted then .ok x else .error (-1)
    | _, _ => .error 0

private theorem startTransfer_control (s : Driver) {cmd : CmdSubmit} (hep : cmd.ep = 0)
    (data : List UInt8) (accepted : Bool) :
    s.startTransfer (usbCall cmd data) accepted = .error (-1) ∨
      ∃ x, s.ctrlXfer = some x ∧ s.startTransfer (usbCall cmd data) accepted = .ok x := by
  simp only [usbCall, hep, if_pos]
  split <;> simp only [startTransfer] <;> split <;> grind

private theorem foldl_first {field : Driver → UInt8} {pick : Descriptor → Option UInt8}
    (hstep : ∀ s d, field (considerEndpoint s d) = if field s = 0 then (pick d).getD 0 else field s)
    (hpick : ∀ d a, pick d = some a → a ≠ 0) (s : Driver) (config : List Descriptor) :
    field (config.foldl considerEndpoint s) =
      if field s = 0 then (config.findSome? pick).getD 0 else field s := by
  induction config generalizing s with
  | nil =>
    by_cases hs : field s = 0
    · simp [hs]
    · simp [hs]
  | cons d config ih =>
    rw [List.foldl_cons, ih, hstep, List.findSome?_cons]
    by_cases hs : field s = 0
    · cases hd : pick d with
      | none => simp [hs]
      | some a => simp [hs, hpick d a hd]
    · simp [hs]

private theorem isIn_ne_zero {a : UInt8} (h : isIn a = true) : a ≠ 0 := by
  intro ha
  rw [ha] at h
  revert h
  decide

private theorem inAddress_eq_some {d : Descriptor} {a : UInt8} (h : d.inAddress = some a) :
    d.address = some a ∧ isIn a = true := by
  cases d with
  | endpoint b attributes mps =>
    rw [Descriptor.inAddress, Option.ite_none_right_eq_some] at h
    obtain ⟨hb, hba⟩ := h
    cases hba
    exact ⟨rfl, hb.1⟩
  | interface n => cases h
  | other => cases h

private theorem outAddress_eq_some {d : Descriptor} {a : UInt8} (h : d.outAddress = some a) :
    d.address = some a ∧ isIn a = false ∧ a ≠ 0 := by
  cases d with
  | endpoint b attributes mps =>
    rw [Descriptor.outAddress, Option.ite_none_right_eq_some] at h
    obtain ⟨hb, hba⟩ := h
    cases hba
    exact ⟨rfl, Bool.eq_false_iff.mpr hb.2.1, hb.1⟩
  | interface n => cases h
  | other => cases h

theorem inAddress_ne_zero {d : Descriptor} {a : UInt8} (h : d.inAddress = some a) : a ≠ 0 :=
  isIn_ne_zero (inAddress_eq_some h).2

theorem outAddress_ne_zero {d : Descriptor} {a : UInt8} (h : d.outAddress = some a) : a ≠ 0 :=
  (outAddress_eq_some h).2.2

theorem foldl_inEp (s : Driver) (config : List Descriptor) :
    (config.foldl considerEndpoint s).inEp =
      if s.inEp = 0 then (config.findSome? Descriptor.inAddress).getD 0 else s.inEp := by
  apply foldl_first
  · intro s d
    cases d with
    | endpoint a attributes mps =>
      simp only [considerEndpoint, Descriptor.inAddress]
      grind
    | interface n => simp [considerEndpoint, Descriptor.inAddress]
    | other => simp [considerEndpoint, Descriptor.inAddress]
  · intro d a ha
    exact inAddress_ne_zero ha

theorem foldl_outEp (s : Driver) (config : List Descriptor) :
    (config.foldl considerEndpoint s).outEp =
      if s.outEp = 0 then (config.findSome? Descriptor.outAddress).getD 0 else s.outEp := by
  apply foldl_first
  · intro s d
    cases d with
    | endpoint a attributes mps =>
      simp only [considerEndpoint, Descriptor.outAddress]
      grind
    | interface n => simp [considerEndpoint, Descriptor.outAddress]
    | other => simp [considerEndpoint, Descriptor.outAddress]
  · intro d a ha
    exact outAddress_ne_zero ha

variable {s : Driver} {handle : Nat} {config : List Descriptor}

/-- The pipes of the driver are those that the configuration of its device gets. -/
structure Piped (s : Driver) (handle : Nat) (config : List Descriptor) : Prop where
  inXfer : ∃ mps, s.inXfer = (inPipe config).map (⟨handle, ·, mps⟩)
  outXfer : ∃ mps, s.outXfer = (outPipe config).map (⟨handle, ·, mps⟩)
  ctrlXfer : s.ctrlXfer = (inPipe config).map fun _ => ⟨handle, 0, 8 + 1024⟩
  dev : inPipe config ≠ none → s.dev = some handle

private theorem Fresh.piped (hs : s.Fresh) (hdev : s.dev = some handle) :
    (s.openPipes handle config).Piped handle config := by
  by_cases hintf : config.findSome? Descriptor.interfaceNumber = none
  · rw [openPipes_of_none hintf]
    have hnone : inPipe config = none := if_pos hintf
    constructor <;> simp [hs.inXfer, hs.outXfer, hs.ctrlXfer, hnone, outPipe]
  · obtain ⟨n, hn⟩ := Option.ne_none_iff_exists'.mp hintf
    have hframe := foldl_considerEndpoint_frame { s with intfNum := n } config
    have hin := foldl_inEp { s with intfNum := n } config
    have hout := foldl_outEp { s with intfNum := n } config
    rw [if_pos hs.inEp] at hin
    rw [if_pos hs.outEp] at hout
    have hinPipe : inPipe config = config.findSome? Descriptor.inAddress := if_neg hintf
    have hdev' := hdev ▸ @openPipes_dev s handle config hintf
    simp only [Driver.openPipes, hn] at hdev' ⊢
    generalize config.foldl considerEndpoint { s with intfNum := n } = s' at hframe hin hout hdev'
    simp only [hs.inXfer, hs.outXfer, hs.ctrlXfer] at hframe
    cases hfirst : config.findSome? Descriptor.inAddress with
    | none =>
      rw [hfirst] at hinPipe hin
      constructor <;> simp [hin, hframe, hinPipe, outPipe]
    | some a =>
      rw [hfirst] at hinPipe hin
      obtain ⟨d, -, hd⟩ := List.exists_of_findSome?_eq_some hfirst
      have hne : a ≠ 0 := inAddress_ne_zero hd
      have hout' : (if s'.outEp ≠ 0 then some (Pipe.mk handle s'.outEp s'.outMps.toNat) else s'.outXfer) =
          (outPipe config).map (⟨handle, ·, s'.outMps.toNat⟩) := by
        cases hsecond : config.findSome? Descriptor.outAddress with
        | none =>
          rw [hsecond] at hout
          simp [hout, hinPipe, outPipe, hsecond, hframe]
        | some b =>
          rw [hsecond] at hout
          obtain ⟨e, -, he⟩ := List.exists_of_findSome?_eq_some hsecond
          simp [hout, hinPipe, outPipe, hsecond, outAddress_ne_zero he]
      have hpos : ¬ s'.inEp = 0 := by simpa [hin] using hne
      rw [if_neg hpos] at hdev' ⊢
      constructor
      · exact ⟨s'.inMps.toNat, by simp [hin, hinPipe]⟩
      · exact ⟨s'.outMps.toNat, hout'⟩
      · simp [hinPipe]
      · exact fun _ => hdev'

end Driver

/-- The endpoint number and the direction that a request asks for. -/
def OnEndpoint (handle : Nat) (d : Device) (cmd : CmdSubmit) (p : Pipe) : Prop :=
  p.deviceHandle = handle ∧ endpointNumber p.endpointAddress = cmd.ep.toNat ∧
    (cmd.ep ≠ 0 → p.endpointAddress ∈ d.config.filterMap Descriptor.address ∧
      (isIn p.endpointAddress = true ↔ cmd.direction = usbipDirIn))

def HasPipe (s : Driver) (cmd : CmdSubmit) : Prop :=
  if cmd.ep = 0 then s.ctrlXfer ≠ none
  else if cmd.direction = usbipDirIn then
    ∃ x, s.inXfer = some x ∧ endpointNumber x.endpointAddress = cmd.ep.toNat
  else ∃ x, s.outXfer = some x ∧ endpointNumber x.endpointAddress = cmd.ep.toNat

/-- The request is for the endpoint that the configuration gets a pipe for. An IN request
fails properly also where there is no IN pipe at all. -/
def ForPipe (config : List Descriptor) (cmd : CmdSubmit) : Prop :=
  cmd.ep = 0 ∨
  cmd.direction = usbipDirIn ∧ (∀ a, inPipe config = some a → endpointNumber a = cmd.ep.toNat) ∨
  cmd.direction ≠ usbipDirIn ∧ ∃ a, outPipe config = some a ∧ endpointNumber a = cmd.ep.toNat

def replyStatus (datagram : List UInt8) : UInt32 := be32At (datagram.drop Header.size) 20

theorem retSubmit_status (cmd : CmdSubmit) (inBuf : List UInt8) (actual : Nat) (status : UInt32) :
    be32At (retSubmit cmd inBuf actual status) 20 = status := by
  simp only [retSubmit, RetSubmit.encode, List.append_assoc, be32At_skip, be32At_head]

private theorem usbHandleSubmit_status {s : Session} {fd : Nat} (hsock : s.sock = some fd)
    (inBuf : List UInt8) {raw : List UInt8} (hlen : CmdSubmit.size ≤ raw.length)
    (hcmd : (CmdSubmit.decode raw).command = usbipCmdSubmit) (a : Answers) :
    ((usbHandleSubmit s inBuf raw a).effects.filterMap Effect.datagram).map replyStatus =
      if a.malloc then
        [(usbOutcome a.usb.ret (usbCall (CmdSubmit.decode raw) (raw.drop CmdSubmit.size))).2]
      else [] := by
  rw [usbHandleSubmit_datagrams hsock]
  by_cases hm : a.malloc = true
  · rw [usbReply_submit inBuf hlen hcmd hm, if_pos hm]
    exact congrArg (fun status => [status]) (retSubmit_status _ _ _ _)
  · have hunlink : (CmdSubmit.decode raw).command ≠ usbipCmdUnlink := by
      rw [hcmd]
      decide
    rw [usbReply, if_neg fun h : Answered raw a => hm (h.2.resolve_left hunlink).2, if_neg hm]
    rfl

private theorem inPipe_mem {config : List Descriptor} {a : UInt8} (h : inPipe config = some a) :
    a ∈ config.filterMap Descriptor.address ∧ isIn a = true := by
  have hfirst : config.findSome? Descriptor.inAddress = some a := by
    unfold inPipe at h
    grind
  obtain ⟨d, hmem, hd⟩ := List.exists_of_findSome?_eq_some hfirst
  obtain ⟨haddress, hin⟩ := Driver.inAddress_eq_some hd
  exact ⟨List.mem_filterMap.mpr ⟨d, hmem, haddress⟩, hin⟩

private theorem outPipe_mem {config : List Descriptor} {a : UInt8} (h : outPipe config = some a) :
    a ∈ config.filterMap Descriptor.address ∧ isIn a = false := by
  have hfirst : config.findSome? Descriptor.outAddress = some a := by
    unfold outPipe at h
    grind
  obtain ⟨d, hmem, hd⟩ := List.exists_of_findSome?_eq_some hfirst
  obtain ⟨haddress, hout, -⟩ := Driver.outAddress_eq_some hd
  exact ⟨List.mem_filterMap.mpr ⟨d, hmem, haddress⟩, hout⟩

/-- The transfer that a request starts is on the endpoint it names, and the reply to a request
for an endpoint without a pipe reports an error, whatever the host library and the device do. -/
def RunsAsAsked (driver : Driver) (handle : Nat) (d : Device) (s : Session) (inBuf raw : List UInt8) :
    Prop :=
  let cmd := CmdSubmit.decode raw
  let call := usbCall cmd (raw.drop CmdSubmit.size)
  ∀ (accepted : Bool) (a : Answers),
    (∀ v, driver.startTransfer call accepted = .error v → a.usb.ret = v) →
    (∀ p, driver.startTransfer call accepted = .ok p → OnEndpoint handle d cmd p) ∧
    (¬ HasPipe driver cmd →
      ∀ reply ∈ (usbHandleSubmit s inBuf raw a).effects.filterMap Effect.datagram, replyStatus reply ≠ 0)

section Requests

variable {driver : Driver} {handle : Nat} {d : Device} {s : Session} {fd : Nat} {raw : List UInt8}

private theorem replyStatus_ne_zero (hsock : s.sock = some fd) (inBuf : List UInt8)
    (hlen : CmdSubmit.size ≤ raw.length) (hcmd : (CmdSubmit.decode raw).command = usbipCmdSubmit)
    {a : Answers}
    (hstatus : (usbOutcome a.usb.ret (usbCall (CmdSubmit.decode raw) (raw.drop CmdSubmit.size))).2 ≠ 0) :
    ∀ reply ∈ (usbHandleSubmit s inBuf raw a).effects.filterMap Effect.datagram, replyStatus reply ≠ 0 := by
  intro reply hreply
  have hmem := List.mem_map_of_mem (f := replyStatus) hreply
  rw [usbHandleSubmit_status hsock inBuf hlen hcmd a] at hmem
  split at hmem
  · rw [List.mem_singleton.mp hmem]
    exact hstatus
  · cases hmem

private theorem runsAsAsked_control (hpiped : driver.Piped handle d.config)
    (hsock : s.sock = some fd) (inBuf : List UInt8) (hlen : CmdSubmit.size ≤ raw.length)
    (hcmd : (CmdSubmit.decode raw).command = usbipCmdSubmit) (hep : (CmdSubmit.decode raw).ep = 0) :
    RunsAsAsked driver handle d s inBuf raw := by
  have hstart := driver.startTransfer_control hep (raw.drop CmdSubmit.size)
  intro accepted a hret
  constructor
  · intro p hp
    rcases hstart accepted with hstart | hstart
    · rw [hstart] at hp
      cases hp
    · obtain ⟨x, hx, hok⟩ := hstart
      rw [hok] at hp
      cases hp
      rw [hpiped.ctrlXfer] at hx
      obtain ⟨_, -, rfl⟩ := Option.map_eq_some_iff.mp hx
      exact ⟨rfl, by simp [endpointNumber, hep], fun hne => absurd hep hne⟩
  · intro hno
    have hnone : driver.ctrlXfer = none := by simpa [HasPipe, hep] using hno
    apply replyStatus_ne_zero hsock inBuf hlen hcmd
    rcases hstart accepted with hstart | hstart
    · rw [hret (-1) hstart]
      simp only [usbCall, hep, if_pos]
      split <;> simp [usbOutcome]
    · obtain ⟨x, hx, -⟩ := hstart
      rw [hnone] at hx
      cases hx

private theorem runsAsAsked_in_iff (hpiped : driver.Piped handle d.config)
    (hsock : s.sock = some fd) (inBuf : List UInt8) (hlen : CmdSubmit.size ≤ raw.length)
    (hcmd : (CmdSubmit.decode raw).command = usbipCmdSubmit) (hep : (CmdSubmit.decode raw).ep ≠ 0)
    (hdir : (CmdSubmit.decode raw).direction = usbipDirIn) :
    RunsAsAsked driver handle d s inBuf raw ↔
      ∀ a, inPipe d.config = some a → endpointNumber a = (CmdSubmit.decode raw).ep.toNat := by
  obtain ⟨mps, hin⟩ := hpiped.inXfer
  have hcall : ∃ n, usbCall (CmdSubmit.decode raw) (raw.drop CmdSubmit.size) = .recv n := by
    simp [usbCall, hep, hdir]
  obtain ⟨n, hcall⟩ := hcall
  have hpipe : HasPipe driver (CmdSubmit.decode raw) ↔ ∃ x, driver.inXfer = some x ∧
      endpointNumber x.endpointAddress = (CmdSubmit.decode raw).ep.toNat := by
    simp [HasPipe, hep, hdir]
  simp only [RunsAsAsked, hcall, hpipe]
  cases hfirst : inPipe d.config with
  | none =>
    rw [hfirst] at hin
    constructor
    · intro _ a ha
      cases ha
    · intro _ accepted a hret
      simp only [Driver.startTransfer, hin, Option.map_none] at hret ⊢
      refine ⟨by simp, fun _ => ?_⟩
      apply replyStatus_ne_zero hsock inBuf hlen hcmd
      rw [hcall, hret (-1) (by simp)]
      simp [usbOutcome]
  | some a =>
    rw [hfirst] at hin
    have hdev := hpiped.dev (by simp [hfirst])
    constructor
    · intro h b hb
      cases hb
      have := (h true {} (by simp [Driver.startTransfer, hdev, hin])).1 ⟨handle, a, mps⟩
        (by simp [Driver.startTransfer, hdev, hin])
      exact this.2.1
    · intro h accepted ans hret
      have ha := h a rfl
      constructor
      · intro p hp
        simp only [Driver.startTransfer, hdev, hin, Option.map_some] at hp
        split at hp
        · cases hp
          have hmem := inPipe_mem hfirst
          exact ⟨rfl, ha, fun _ => ⟨hmem.1, by simp [hmem.2, hdir]⟩⟩
        · cases hp
      · intro hno
        exact absurd ⟨_, hin, ha⟩ hno

private theorem runsAsAsked_out_iff (hpiped : driver.Piped handle d.config)
    (hsock : s.sock = some fd) (inBuf : List UInt8) (hlen : CmdSubmit.size ≤ raw.length)
    (hcmd : (CmdSubmit.decode raw).command = usbipCmdSubmit) (hep : (CmdSubmit.decode raw).ep ≠ 0)
    (hdir : (CmdSubmit.decode raw).direction ≠ usbipDirIn) :
    RunsAsAsked driver handle d s inBuf raw ↔
      ∃ a, outPipe d.config = some a ∧ endpointNumber a = (CmdSubmit.decode raw).ep.toNat := by
  obtain ⟨mps, hout⟩ := hpiped.outXfer
  have hcall : ∃ data, usbCall (CmdSubmit.decode raw) (raw.drop CmdSubmit.size) = .sendBlocking data := by
    simp [usbCall, hep, hdir]
  obtain ⟨data, hcall⟩ := hcall
  have hpipe : HasPipe driver (CmdSubmit.decode raw) ↔ ∃ x, driver.outXfer = some x ∧
      endpointNumber x.endpointAddress = (CmdSubmit.decode raw).ep.toNat := by
    simp [HasPipe, hep, hdir]
  simp only [RunsAsAsked, hcall, hpipe]
  cases hfirst : outPipe d.config with
  | none =>
    rw [hfirst] at hout
    constructor
    · intro h
      -- the call drops the data and reports success
      have hreply := (h true {} (by simp [Driver.startTransfer, hout])).2 (by simp [hout])
      have hstatus := usbHandleSubmit_status hsock inBuf hlen hcmd {}
      rw [hcall] at hstatus
      have hzero : (0 : UInt32) ∈ List.map replyStatus
          ((usbHandleSubmit s inBuf raw {}).effects.filterMap Effect.datagram) := by
        rw [hstatus]
        exact List.mem_singleton_self _
      obtain ⟨reply, hmem, hreply0⟩ := List.mem_map.mp hzero
      exact absurd hreply0 (hreply reply hmem)
    · intro h
      obtain ⟨a, ha, -⟩ := h
      cases ha
  | some a =>
    rw [hfirst] at hout
    have hdev : driver.dev = some handle := by
      apply hpiped.dev
      intro hnone
      simp [outPipe, hnone] at hfirst
    constructor
    · intro h
      have := (h true {} (by simp [Driver.startTransfer, hdev, hout])).1 ⟨handle, a, mps⟩
        (by simp [Driver.startTransfer, hdev, hout])
      exact ⟨a, rfl, this.2.1⟩
    · intro h accepted ans hret
      obtain ⟨b, hb, hnum⟩ := h
      cases hb
      constructor
      · intro p hp
        simp only [Driver.startTransfer, hdev, hout, Option.map_some] at hp
        split at hp
        · cases hp
          have hmem := outPipe_mem hfirst
          exact ⟨rfl, hnum, fun _ => ⟨hmem.1, by simp [hmem.2, hdir]⟩⟩
        · cases hp
      · intro hno
        exact absurd ⟨_, hout, hnum⟩ hno

/-- A request runs on the endpoint that it names exactly if `open_pipes` has set up that
endpoint for the device. -/
theorem submit_runs_as_asked_iff (hfresh : driver.Fresh) (handle : Nat) (d : Device)
    (hhub : d.isHub = false) (hsock : s.sock = some fd) (inBuf : List UInt8)
    (hlen : CmdSubmit.size ≤ raw.length) (hcmd : (CmdSubmit.decode raw).command = usbipCmdSubmit) :
    RunsAsAsked (driver.onNewDev handle d) handle d s inBuf raw ↔
      ForPipe d.config (CmdSubmit.decode raw) := by
  have hpiped : (driver.onNewDev handle d).Piped handle d.config := by
    rw [Driver.onNewDev, if_neg (by simp [hhub])]
    exact Driver.Fresh.piped { hfresh with } rfl
  by_cases hep : (CmdSubmit.decode raw).ep = 0
  · have h := runsAsAsked_control hpiped hsock inBuf hlen hcmd hep
    simp [h, ForPipe, hep]
  · by_cases hdir : (CmdSubmit.decode raw).direction = usbipDirIn
    · rw [runsAsAsked_in_iff hpiped hsock inBuf hlen hcmd hep hdir]
      simp [ForPipe, hep, hdir]
    · rw [runsAsAsked_out_iff hpiped hsock inBuf hlen hcmd hep hdir]
      simp [ForPipe, hep, hdir]

end Requests

/-- A keyboard with a second interface for its media keys. -/
def compositeKeyboard : Device where
  deviceClass := 0
  config := [.interface 0, .endpoint 0x81 0x03 8, .interface 1, .endpoint 0x82 0x03 8]
  opened := true

/-- A request for an endpoint of a device, without data. -/
def requestFor (ep : UInt32) (direction : UInt32) : List UInt8 :=
  be32 usbipCmdSubmit ++ be32 0 ++ be32 0 ++ be32 direction ++ be32 ep ++ List.replicate 28 0

def activeSession : Session where
  cfg := ⟨1, 0, 0, 0, 0, true⟩
  sock := some 3
  daemonIp := 0
  seq := 0
  outTransferSeq := 0
  reasm := .zero

theorem submit_runs_as_asked_first_endpoint :
    Driver.boot.Fresh ∧ compositeKeyboard.isHub = false ∧
      CmdSubmit.size ≤ (requestFor 1 usbipDirIn).length ∧
      (CmdSubmit.decode (requestFor 1 usbipDirIn)).command = usbipCmdSubmit ∧
      RunsAsAsked (Driver.boot.onNewDev 0 compositeKeyboard) 0 compositeKeyboard activeSession []
        (requestFor 1 usbipDirIn) := by
  have hfresh : Driver.boot.Fresh := ⟨rfl, rfl, rfl, rfl, rfl⟩
  refine ⟨hfresh, by decide, by decide, by decide, ?_⟩
  refine (submit_runs_as_asked_iff hfresh 0 compositeKeyboard (by decide) rfl [] (by decide)
    (by decide)).mpr (.inr (.inl ⟨by decide, ?_⟩))
  intro a ha
  cases (show some 0x81 = some a from ha)
  decide

/-- The second keyboard interface is polled on the endpoint of the first, and an OUT request
for a device without an OUT endpoint is reported as done. -/
theorem submit_on_other_endpoint :
    (Driver.boot.onNewDev 0 compositeKeyboard).startTransfer
        (usbCall (CmdSubmit.decode (requestFor 2 usbipDirIn)) []) true = .ok ⟨0, 0x81, 8⟩ ∧
      endpointNumber 0x81 = 1 ∧
      ¬ RunsAsAsked (Driver.boot.onNewDev 0 compositeKeyboard) 0 compositeKeyboard activeSession []
        (requestFor 2 usbipDirIn) ∧
      (Driver.boot.onNewDev 0 compositeKeyboard).startTransfer
        (usbCall (CmdSubmit.decode (requestFor 2 usbipDirOut)) []) true = .error 0 ∧
      ((usbHandleSubmit activeSession [] (requestFor 2 usbipDirOut) {}).effects.filterMap
        Effect.datagram).map replyStatus = [0] := by
  refine ⟨rfl, by decide, ?_, rfl, by decide⟩
  intro h
  have hon := (h true {} (fun v hv => by cases hv)).1 ⟨0, 0x81, 8⟩ rfl
  exact absurd hon.2.1 (by decide)

end WirelessHub.Firmware.Usb

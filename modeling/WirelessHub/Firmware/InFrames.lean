import WirelessHub.Firmware.UsbDriver
import WirelessHub.Framework.Run

/-!
# IN frames

A call of `usb_drv_recv` that gives up leaves its transfer in flight, and the frame of that
transfer goes to a later call, which submits again. So the queue holds frames of calls that
are over; but a call waits only after a submit of its own, and leaves with a frame if there
is one. Between two calls at most one frame is in the queue or on its way.
-/

namespace WirelessHub.Firmware.Usb

open Framework

/-- The data of a frame, unless it reports a failure. -/
def UsbFrame.content (f : UsbFrame) : Option (List UInt8) :=
  if f.len = 0xFFFF then none else some f.data

/-- A frame as the callback builds it. -/
def UsbFrame.Built (f : UsbFrame) : Prop :=
  f = .failed ∨ f.len.toNat = f.data.length ∧ f.data.length ≤ frameMax

/-- The data that a successful call returned. -/
def InEvent.returnedFrame : InEvent → Option (List UInt8)
  | .received ret data => if 0 ≤ ret then some data else none
  | _ => none

private theorem returnedFrame_received (n : Nat) (data : List UInt8) :
    (InEvent.received n data).returnedFrame = some data := by
  rw [InEvent.returnedFrame, if_pos (Int.natCast_nonneg n)]

/-- The data of a transfer that completed, cut to the size of a frame. -/
def InEvent.completedFrame : InEvent → Option (List UInt8)
  | .completed _ c => if c.status = .completed then some (c.data.take frameMax) else none
  | _ => none

def InInput.Wide : InInput → Prop
  | .recv maxLen _ => frameMax ≤ maxLen
  | _ => True

namespace InPipe

variable {s s' : InPipe}

/-- Nothing is queued or in flight, and no call waits. -/
structure Fresh (s : InPipe) : Prop where
  idle : ∀ x, s.xfer = some x → x.inFlight = none
  rxQueue : s.rxQueue = []
  recv : s.recv = none
  trace : s.trace = []

def inFlight (s : InPipe) : Nat := if (s.xfer.bind Transfer.inFlight).isSome then 1 else 0

def returnedFrames (s : InPipe) : List (List UInt8) := s.trace.filterMap InEvent.returnedFrame

def completedFrames (s : InPipe) : List (List UInt8) := s.trace.filterMap InEvent.completedFrame

def queuedFrames (s : InPipe) : List (List UInt8) := s.rxQueue.filterMap UsbFrame.content

@[simp] theorem returnedFrames_emit (s : InPipe) (e : InEvent) :
    (s.emit e).returnedFrames = s.returnedFrames ++ e.returnedFrame.toList := by
  simp only [returnedFrames, emit, List.filterMap_append]
  cases h : e.returnedFrame <;> simp [h]

@[simp] theorem completedFrames_emit (s : InPipe) (e : InEvent) :
    (s.emit e).completedFrames = s.completedFrames ++ e.completedFrame.toList := by
  simp only [completedFrames, emit, List.filterMap_append]
  cases h : e.completedFrame <;> simp [h]

/-- Every completed frame was returned or is still queued, and there is room for more. -/
structure Accounted (s : InPipe) : Prop where
  room : s.rxQueue.length + s.inFlight ≤ if s.recv.isSome then 2 else 1
  wide : ∀ maxLen, s.recv = some maxLen → frameMax ≤ maxLen
  built : ∀ f ∈ s.rxQueue, f.Built
  kept : ∀ f, .dropped f ∉ s.trace
  order : s.returnedFrames ++ s.queuedFrames = s.completedFrames

private theorem Fresh.accounted (h : Fresh s) : Accounted s where
  room := by
    have hfly : s.xfer.bind Transfer.inFlight = none := by
      cases hx : s.xfer with
      | none => rfl
      | some x => exact h.idle x hx
    simp [inFlight, hfly, h.rxQueue, h.recv]
  wide := by simp [h.recv]
  built := by simp [h.rxQueue]
  kept := by simp [h.trace]
  order := by simp [returnedFrames, queuedFrames, completedFrames, h.trace, h.rxQueue]

private theorem Accounted.leaves (h : Accounted s) {rest : List UsbFrame} {ret : Int}
    {data : List UInt8} (hroom : rest.length + s.inFlight ≤ 1) (hbuilt : ∀ f ∈ rest, f.Built)
    (horder : s.returnedFrames ++ (InEvent.received ret data).returnedFrame.toList ++
      rest.filterMap UsbFrame.content = s.completedFrames) :
    Accounted ({ s with rxQueue := rest, recv := none }.emit (.received ret data)) where
  room := hroom
  wide _ hm := by cases hm
  built := hbuilt
  kept := by simpa [emit] using h.kept
  order := by
    rw [returnedFrames_emit, completedFrames_emit]
    exact horder.trans (List.append_nil _).symm

private theorem Accounted.failed (h : Accounted s) (hroom : s.rxQueue.length + s.inFlight ≤ 1) :
    Accounted ({ s with recv := none }.emit (.received (-1) [])) :=
  h.leaves hroom h.built (by simpa [InEvent.returnedFrame, queuedFrames] using h.order)

private theorem Accounted.drvRecv (h : Accounted s) (hidle : s.recv = none) {maxLen : Nat}
    (hwide : frameMax ≤ maxLen) (accepted : Bool) : Accounted (s.drvRecv maxLen accepted) := by
  have hroom : s.rxQueue.length + s.inFlight ≤ 1 := by simpa [hidle] using h.room
  have hfail : Accounted (s.emit (.received (-1) [])) := by simpa [← hidle] using h.failed hroom
  unfold InPipe.drvRecv
  split
  case h_1 x _ hx =>
    split
    case isTrue hok =>
      refine ⟨?_, ?_, h.built, h.kept, h.order⟩
      · simp only [inFlight] at hroom ⊢
        simp only [Option.bind_some, Option.isSome_some, if_true]
        omega
      · rintro m ⟨⟩
        exact hwide
    case isFalse => exact hfail
  case h_2 => exact hfail

private theorem Accounted.drvReceived (h : Accounted s) {maxLen : Nat} {frame : UsbFrame}
    {rest : List UsbFrame} (hrecv : s.recv = some maxLen) (hqueue : s.rxQueue = frame :: rest) :
    Accounted ({ s with rxQueue := rest }.drvReceived maxLen frame) := by
  have hroom : rest.length + s.inFlight ≤ 1 := by
    have hle := h.room
    simp only [hqueue, hrecv, List.length_cons, Option.isSome_some, if_true] at hle
    omega
  have hbuilt : ∀ f ∈ rest, f.Built := fun f hf => h.built f (hqueue ▸ .tail frame hf)
  have horder := h.order
  rw [queuedFrames, hqueue] at horder
  unfold InPipe.drvReceived
  split
  case isTrue hlen =>
    have hnone : frame.content = none := if_pos hlen
    refine h.leaves hroom hbuilt ?_
    simpa [InEvent.returnedFrame, hnone] using horder
  case isFalse hlen =>
    have hsome : frame.content = some frame.data := if_neg hlen
    -- the frame is shorter than the caller's buffer, so all of it is returned
    have hdata : frame.len.toNat = frame.data.length ∧ frame.data.length ≤ frameMax :=
      (h.built frame (by simp [hqueue])).resolve_left fun hf => hlen (by rw [hf]; rfl)
    have hcopy : frame.data.take (if frame.len.toNat < maxLen then frame.len.toNat else maxLen) =
        frame.data := by
      have hwide := h.wide maxLen hrecv
      refine List.take_of_length_le ?_
      split <;> omega
    refine h.leaves hroom hbuilt ?_
    rw [returnedFrame_received, hcopy]
    simpa [hsome] using horder

private theorem Accounted.completes {n : Nat} {x : Transfer} (h : Accounted s)
    (hx : s.xfer = some x) (hfly : x.inFlight = some n) {c : Completion} (frames : List UsbFrame)
    (hlen : frames.length ≤ 1) (hbuilt : ∀ f ∈ frames, f.Built)
    (hcontent : (InEvent.completed n c).completedFrame.toList = frames.filterMap UsbFrame.content) :
    Accounted { s.land x n c with rxQueue := s.rxQueue ++ frames } where
  room := by
    have hle := h.room
    rw [inFlight, hx, Option.bind_some, hfly] at hle
    rw [List.length_append]
    exact Nat.le_trans (Nat.add_le_add_left hlen _) hle
  wide := h.wide
  built f hf := (List.mem_append.mp hf).elim (h.built f) (hbuilt f)
  kept := by simpa [land, emit] using h.kept
  order := by
    have hreturned : (s.land x n c).returnedFrames = s.returnedFrames := by
      rw [land, returnedFrames_emit]
      exact List.append_nil _
    have hcompleted : (s.land x n c).completedFrames =
        s.completedFrames ++ frames.filterMap UsbFrame.content := by
      rw [land, completedFrames_emit, hcontent]
      rfl
    change (s.land x n c).returnedFrames ++ (s.rxQueue ++ frames).filterMap UsbFrame.content =
      (s.land x n c).completedFrames
    rw [hreturned, hcompleted, List.filterMap_append, ← List.append_assoc, ← h.order]
    rfl

private theorem queueSend_of_room (f : UsbFrame) (h : s.rxQueue.length < rxQueueDepth) :
    s.queueSend f = { s with rxQueue := s.rxQueue ++ [f] } :=
  if_pos h

private theorem built_completed (c : Completion) :
    let copy := if c.actualNumBytes < frameMax then c.actualNumBytes else frameMax
    let f : UsbFrame := ⟨c.buffer.take copy, UInt16.ofNat copy⟩
    f.Built ∧ f.content = some (c.data.take frameMax) := by
  intro copy f
  have hcopy : copy = min frameMax c.actualNumBytes := by
    simp only [copy]
    split <;> omega
  have hmax : copy ≤ frameMax := hcopy ▸ Nat.min_le_left _ _
  have hlen : (UInt16.ofNat copy).toNat = copy := by
    rw [UInt16.toNat_ofNat']
    exact Nat.mod_eq_of_lt (Nat.lt_of_le_of_lt hmax (by decide))
  have hdata : f.data.length = copy := by
    have hfits := c.fits
    simp only [f, List.length_take]
    omega
  refine ⟨.inr ⟨hlen.trans hdata.symm, hdata ▸ hmax⟩, ?_⟩
  have hne : f.len ≠ 0xFFFF := fun heq => by
    have htoNat := congrArg UInt16.toNat heq
    simp only [f, hlen] at htoNat
    exact absurd (htoNat ▸ hmax) (by decide)
  rw [UsbFrame.content, if_neg hne, Completion.data, List.take_take, ← hcopy]

private theorem Accounted.inTransferCb {n : Nat} {x : Transfer} (h : Accounted s)
    (hx : s.xfer = some x)
    (hfly : x.inFlight = some n) (c : Completion) : Accounted ((s.land x n c).inTransferCb c) := by
  have hroom : (s.land x n c).rxQueue.length < rxQueueDepth := by
    have hle := h.room
    have htwo : (if s.recv.isSome then 2 else 1) ≤ 2 := by split <;> decide
    simp only [rxQueueDepth, land, emit]
    omega
  unfold InPipe.inTransferCb
  split
  case h_1 hst =>
    obtain ⟨hbuilt, hcontent⟩ := built_completed c
    rw [queueSend_of_room _ hroom]
    refine h.completes hx hfly [_] (by simp) (by simpa using hbuilt) ?_
    simp [InEvent.completedFrame, hst, hcontent]
  case h_2 hst =>
    have hnone := h.completes hx hfly (c := c) [] (by simp) (by simp)
      (by simp [InEvent.completedFrame, hst])
    rwa [List.append_nil] at hnone
  case h_3 hne hne' =>
    have hst : c.status ≠ .completed := hne
    rw [queueSend_of_room _ hroom]
    refine h.completes hx hfly [.failed] (by simp) (by simp [UsbFrame.Built]) ?_
    simp [InEvent.completedFrame, hst, UsbFrame.content, UsbFrame.failed]

private theorem Accounted.step {i : InInput} (h : Accounted s) (hi : i.Wide)
    (hstep : s.step i = .ok s') : Accounted s' := by
  unfold InPipe.step at hstep
  split at hstep
  case h_1 maxLen accepted =>
    split at hstep
    case h_1 hidle =>
      cases hstep
      exact h.drvRecv hidle hi accepted
    case h_2 => cases hstep
  case h_2 =>
    split at hstep
    case h_1 maxLen frame rest hrecv hqueue =>
      cases hstep
      exact h.drvReceived hrecv hqueue
    case h_2 => cases hstep
  case h_3 =>
    split at hstep
    case h_1 maxLen hrecv hqueue =>
      cases hstep
      refine h.failed ?_
      rw [hqueue, inFlight]
      split <;> simp
    case h_2 => cases hstep
  case h_4 c =>
    split at hstep
    case h_1 x hx =>
      split at hstep
      case h_1 n hfly =>
        cases hstep
        exact h.inTransferCb hx hfly c
      case h_2 => cases hstep
    case h_2 => cases hstep

/-- Over a run of calls, timeouts and completions, the queue is never found full, and what
the successful calls returned, followed by what is still queued, is the data of the completed
transfers in their order. -/
theorem frames_returned_in_order (s t : InPipe) (hs : Fresh s) (is : List InInput)
    (hwide : ∀ i ∈ is, i.Wide) (hr : run InPipe.step s is = .ok t) :
    (∀ f, .dropped f ∉ t.trace) ∧ t.returnedFrames ++ t.queuedFrames = t.completedFrames := by
  have h := run_invariant (fun s i s' (h : Accounted s) hi hstep => h.step hi hstep) hs.accounted
    (runAll_of_forall hwide s) hr
  exact ⟨h.kept, h.order⟩

/-- An attached device before the first call. -/
def attached : InPipe := ⟨true, some ⟨List.replicate 64 0, 64, none⟩, [], none, 0, []⟩

def report : Completion := ⟨.completed, 3, [1, 2, 3, 0], by decide⟩

/-- The first call gives up, its frame arrives, and the second call returns it. -/
theorem late_frame_returned :
    ∃ t, run InPipe.step attached [.recv 512 true, .recvTimeout, .complete report, .recv 512 true,
        .recvTake] = .ok t ∧ t.returnedFrames = [[1, 2, 3]] ∧ (∀ f, .dropped f ∉ t.trace) ∧
      t.returnedFrames ++ t.queuedFrames = t.completedFrames :=
  ⟨_, rfl, rfl, frames_returned_in_order attached _ ⟨by rintro x ⟨⟩; rfl, rfl, rfl, rfl⟩
    [.recv 512 true, .recvTimeout, .complete report, .recv 512 true, .recvTake]
    (by simp [InInput.Wide, frameMax]) rfl⟩

end InPipe
end WirelessHub.Firmware.Usb

import WirelessHub.Firmware.DeviceSession
import WirelessHub.Framework.Offsets

/-!
# Replies of the USB/IP proxy

`usb_handle_submit` reads one request from the front of a payload and answers it with one
datagram; the rest of the payload is at most the data of that request. So the replies to a
sequence of payloads are decided by the first 48 bytes of each.
-/

namespace WirelessHub.Firmware

open Framework

namespace Session

variable {s : Session} {fd : Nat}

theorem sendRaw_sock (s : Session) (data : List UInt8) : (s.sendRaw data).1.sock = s.sock := by
  unfold sendRaw
  split
  · rfl
  · split
    · rfl
    · dsimp only
      split <;> rfl

theorem sendRaw_of_short (hsock : s.sock = some fd) {data : List UInt8}
    (hlen : data.length ≤ mtuPayload) : (s.sendRaw data).2 =
      [.sendto s.dest ((s.rawHeader data.length).encode ++ data)] := by
  simp only [sendRaw, hsock, hlen, if_true]

end Session

def Effect.datagram : Effect → Option (List UInt8)
  | .sendto _ bytes => some bytes
  | _ => none

def replySeqnum (datagram : List UInt8) : UInt32 := be32At (datagram.drop Header.size) 4

theorem usbOutcome_le (answer : UsbAnswer) (call : UsbCall) :
    (usbOutcome answer.ret call).1 ≤ inBufSize := by
  have hfits := answer.ret_fits
  cases call <;> simp only [usbOutcome] <;> split <;> simp only [inBufSize] at hfits ⊢ <;> omega

private theorem length_retSubmit_le (cmd : CmdSubmit) (inBuf : List UInt8) {actual : Nat}
    (status : UInt32)
    (hle : actual ≤ inBufSize) : (retSubmit cmd inBuf actual status).length ≤ mtuPayload := by
  have htake : ∀ n ≤ inBufSize, (inBuf.take n).length ≤ inBufSize :=
    fun n hn => (List.length_take_le n inBuf).trans hn
  rw [retSubmit, List.length_append]
  have := htake (if cmd.direction = usbipDirIn ∧ 0 < actual then actual else 0) (by split <;> omega)
  simp only [RetSubmit.encode, be32, List.length_append, List.length_cons, List.length_nil,
    List.length_replicate, inBufSize, mtuPayload] at this ⊢
  omega

/-- The payload begins with a request and, for a submit, there is memory for the reply. -/
def Answered (raw : List UInt8) (a : Answers) : Prop :=
  CmdSubmit.size ≤ raw.length ∧ ((CmdSubmit.decode raw).command = usbipCmdUnlink ∨
    (CmdSubmit.decode raw).command = usbipCmdSubmit ∧ a.malloc = true)

instance (raw : List UInt8) (a : Answers) : Decidable (Answered raw a) :=
  inferInstanceAs (Decidable (_ ∧ _))

section Submit

variable {s : Session} {fd : Nat} {raw : List UInt8} {a : Answers}

theorem usbHandleSubmit_sock (s : Session) (inBuf raw : List UInt8) (a : Answers) :
    (usbHandleSubmit s inBuf raw a).session.sock = s.sock := by
  simp only [usbHandleSubmit]
  split_ifs <;> first | rfl | exact s.sendRaw_sock _

private theorem retUnlink_seqnum (seqnum : UInt32) : be32At (retUnlink seqnum) 4 = seqnum := by
  rw [retUnlink, List.append_assoc, be32At_skip, be32At_head]

private theorem retSubmit_seqnum (cmd : CmdSubmit) (inBuf : List UInt8) (actual : Nat)
    (status : UInt32) : be32At (retSubmit cmd inBuf actual status) 4 = cmd.seqnum := by
  simp only [retSubmit, RetSubmit.encode, List.append_assoc, be32At_skip, be32At_head]

def usbReply (inBuf raw : List UInt8) (a : Answers) : Option (List UInt8) :=
  let cmd := CmdSubmit.decode raw
  let call := usbCall cmd (raw.drop CmdSubmit.size)
  let outcome := usbOutcome a.usb.ret call
  if Answered raw a then
    if cmd.command = usbipCmdUnlink then some (retUnlink cmd.seqnum)
    else some (retSubmit cmd (usbFill inBuf a.usb call) outcome.1 outcome.2)
  else none

theorem usbReply_submit (inBuf : List UInt8) (hlen : CmdSubmit.size ≤ raw.length)
    (hcmd : (CmdSubmit.decode raw).command = usbipCmdSubmit) (hm : a.malloc = true) :
    usbReply inBuf raw a =
      let call := usbCall (CmdSubmit.decode raw) (raw.drop CmdSubmit.size)
      some (retSubmit (CmdSubmit.decode raw) (usbFill inBuf a.usb call) (usbOutcome a.usb.ret call).1
        (usbOutcome a.usb.ret call).2) := by
  have hunlink : (CmdSubmit.decode raw).command ≠ usbipCmdUnlink := by
    rw [hcmd]
    decide
  rw [usbReply, if_pos (show Answered raw a from ⟨hlen, .inr ⟨hcmd, hm⟩⟩), if_neg hunlink]

theorem length_usbReply_le {inBuf reply : List UInt8} (h : usbReply inBuf raw a = some reply) :
    reply.length ≤ mtuPayload := by
  simp only [usbReply] at h
  split at h
  · split at h
    · rw [← Option.some.inj h]
      simp [retUnlink, be32, mtuPayload]
    · rw [← Option.some.inj h]
      exact length_retSubmit_le _ _ _ (usbOutcome_le ..)
  · cases h

theorem usbHandleSubmit_datagrams (hsock : s.sock = some fd) (inBuf raw : List UInt8) (a : Answers) :
    (usbHandleSubmit s inBuf raw a).effects.filterMap Effect.datagram =
      (usbReply inBuf raw a).toList.map fun reply => (s.rawHeader reply.length).encode ++ reply := by
  by_cases hlen : raw.length < CmdSubmit.size
  · rw [usbReply, if_neg fun h : Answered raw a => absurd h.1 (Nat.not_le.mpr hlen)]
    simp only [usbHandleSubmit, if_pos hlen, List.filterMap_nil, Option.toList_none, List.map_nil]
  have hlen' : CmdSubmit.size ≤ raw.length := Nat.not_lt.mp hlen
  by_cases hunlink : (CmdSubmit.decode raw).command = usbipCmdUnlink
  · have hreply : usbReply inBuf raw a = some (retUnlink (CmdSubmit.decode raw).seqnum) := by
      rw [usbReply, if_pos (show Answered raw a from ⟨hlen', .inl hunlink⟩), if_pos hunlink]
    simp only [usbHandleSubmit, if_neg hlen, if_pos hunlink, hreply,
      s.sendRaw_of_short hsock (length_usbReply_le hreply)]
    rfl
  by_cases hsubmit : (CmdSubmit.decode raw).command = usbipCmdSubmit
  · by_cases hm : a.malloc = true
    · have hreply := usbReply_submit inBuf hlen' hsubmit hm
      simp only [usbHandleSubmit, if_neg hlen, if_neg hunlink, if_neg (not_not_intro hsubmit),
        if_pos hm, hreply, s.sendRaw_of_short hsock (length_usbReply_le hreply)]
      rfl
    · rw [usbReply, if_neg fun h : Answered raw a => hm (h.2.resolve_left hunlink).2]
      simp only [usbHandleSubmit, if_neg hlen, if_neg hunlink, if_neg (not_not_intro hsubmit),
        if_neg hm]
      rfl
  · rw [usbReply, if_neg fun h : Answered raw a => hsubmit (h.2.resolve_left hunlink).1]
    simp only [usbHandleSubmit, if_neg hlen, if_neg hunlink, if_pos hsubmit, List.filterMap_nil,
      Option.toList_none, List.map_nil]

/-- One reply with the sequence number at the front of the payload, or none. -/
theorem usbHandleSubmit_replies (hsock : s.sock = some fd) (inBuf raw : List UInt8) (a : Answers) :
    ((usbHandleSubmit s inBuf raw a).effects.filterMap Effect.datagram).map replySeqnum =
      if Answered raw a then [(CmdSubmit.decode raw).seqnum] else [] := by
  rw [usbHandleSubmit_datagrams hsock]
  by_cases ha : Answered raw a
  · by_cases hunlink : (CmdSubmit.decode raw).command = usbipCmdUnlink
    · rw [usbReply, if_pos ha, if_pos ha, if_pos hunlink]
      exact congrArg (fun w => [w]) (retUnlink_seqnum _)
    · rw [usbReply, if_pos ha, if_pos ha, if_neg hunlink]
      exact congrArg (fun w => [w]) (retSubmit_seqnum _ _ _ _)
  · rw [usbReply, if_neg ha, if_neg ha]
    rfl

/-- A payload handed to the proxy, with the answers it meets. -/
abbrev Call := List UInt8 × Answers

/-- The reply datagrams to a sequence of payloads, each with the offset of its payload in the
concatenation of all of them. -/
def serve (s : Session) (inBuf : List UInt8) : Nat → List Call → List (Nat × List UInt8)
  | _, [] => []
  | o, c :: calls =>
      let r := usbHandleSubmit s inBuf c.1 c.2
      (r.effects.filterMap Effect.datagram).map (o, ·) ++
        serve r.session r.inBuf (o + c.1.length) calls

/-- The offset and the sequence number of the payloads that are answered. -/
def answer (x : Nat × Call) : Option (Nat × UInt32) :=
  if Answered x.2.1 x.2.2 then some (x.1, (CmdSubmit.decode x.2.1).seqnum) else none

theorem serve_seqnums (hsock : s.sock = some fd) (inBuf : List UInt8) (o : Nat) (calls : List Call) :
    (serve s inBuf o calls).map (fun x => (x.1, replySeqnum x.2)) =
      (withOffsets (fun c : Call => c.1.length) o calls).filterMap answer := by
  induction calls generalizing s inBuf o with
  | nil => rfl
  | cons c calls ih =>
    have hone := usbHandleSubmit_replies hsock inBuf c.1 c.2
    have hrest := ih ((usbHandleSubmit_sock s inBuf c.1 c.2).trans hsock)
      (usbHandleSubmit s inBuf c.1 c.2).inBuf (o + c.1.length)
    rw [serve, List.map_append, hrest, withOffsets, List.map_map]
    have htag : ∀ ds : List (List UInt8),
        ds.map ((fun x => (x.1, replySeqnum x.2)) ∘ (o, ·)) = (ds.map replySeqnum).map (o, ·) := by
      intro ds
      rw [List.map_map]
      rfl
    rw [htag, hone, List.filterMap_cons, answer]
    by_cases ha : Answered c.1 c.2
    · rw [if_pos ha, if_pos ha]
      rfl
    · rw [if_neg ha, if_neg ha]
      rfl

end Submit

end WirelessHub.Firmware

import WirelessHub.Daemon.Forwarding
import WirelessHub.Daemon.Runs

/-!
# Draining the kernel side

The drain loop of a session reads its socketpair until a read reports that nothing is left.
Both places that make the socketpair ask for a descriptor in blocking mode, on which such a
read does not return while the kernel holds its end open. A `send` to a client that has stopped
reading does not return either.
-/

namespace WirelessHub

open Framework

def emptyReads : Option FdMode → Bool → List ReadResult
  | none, _ => [.error]
  | some _, true => [.eof]
  | some .nonblocking, false => [.eagain]
  | some .blocking, false => []

/-- What successive reads return while `queue` is waiting in the descriptor. -/
def kernelReads (mode : Option FdMode) (closed : Bool) (queue : List Chunk) : List ReadResult :=
  queue.map .data ++ emptyReads mode closed

private theorem drainResult_append (queue : List Chunk) (rest : List ReadResult) :
    drainResult (queue.map .data ++ rest) = drainResult rest := by
  induction queue with
  | nil => rfl
  | cons chunk queue ih => exact ih

private theorem drainedChunks_append (queue : List Chunk) (rest : List ReadResult) :
    PassthroughHandler.drainedChunks (queue.map .data ++ rest) =
      queue ++ PassthroughHandler.drainedChunks rest := by
  induction queue with
  | nil => rfl
  | cons chunk queue ih =>
    rw [List.map_cons, List.cons_append, PassthroughHandler.drainedChunks, ih, List.cons_append]

private theorem drainedChunks_kernelReads (mode : Option FdMode) (closed : Bool)
    (queue : List Chunk) :
    PassthroughHandler.drainedChunks (kernelReads mode closed queue) = queue := by
  rw [kernelReads, drainedChunks_append]
  rcases mode with _ | _ | _ <;> cases closed <;> exact List.append_nil queue

private theorem drainResult_blocking (closed : Bool) (queue : List Chunk) :
    drainResult (kernelReads (some .blocking) closed queue) =
      if closed then some false else none := by
  rw [kernelReads, drainResult_append]
  cases closed <;> rfl

namespace Daemon

variable {st : Daemon} {i : Input} {p : SessionPtr} {closed : Bool} {queue : List Chunk}

private theorem step_of_kernelReads (hs : Sound st) (hroute : st.hub.route i.fd = .vhci p)
    (hh : i.evts.hangup = false) (hin : i.evts.epollin = true)
    (hreads : i.sys.reads = kernelReads (st.os.fds i.fd) closed queue) :
    (closed = false → step st i = .error .waiting) ∧
      (closed = true → SendsProgress i.sys.sends → ∃ st', step st i = .ok st') := by
  obtain ⟨s, hp, hfd⟩ := (hs.wf.vhciMap _ _).mp (HubServer.route_vhci hroute)
  obtain ⟨sock, h, -, hhandler, -⟩ := hs.wf.usable p s hp
  have hmode : st.os.fds i.fd = some .blocking := hfd ▸ hs.wf.blocking p s hp
  have hdrain : drainResult i.sys.reads = if closed then some false else none := by
    rw [hreads, hmode, drainResult_blocking]
  rw [step_of_drain hroute hp hh hin, vhciReadable, hhandler]
  constructor
  · rintro rfl
    have hresult : (h.onVhciReadable i.sys.sends i.sys.reads).result = none :=
      (h.onVhciReadable_result i.sys.sends i.sys.reads).elim id fun he => he.trans hdrain
    simp only [hresult]
  · rintro rfl hprogress
    have hresult := (h.onVhciReadable_of_progress hprogress i.sys.reads).trans hdrain
    simp only [hresult, if_true]
    exact ⟨_, rfl⟩

variable {udpFd tcpServerFd : Fd} {inherited : Fd → Option FdMode} {is : List Input}

/-- In every state of every run, what a session has to drain is all that is queued. While the kernel
holds its end open the drain does not return; where no `send` to the client is held up for good, it
returns exactly if the kernel has closed its end. -/
theorem drain_returns_iff_closed (hr : run step (boot udpFd tcpServerFd inherited) is = .ok st)
    (hroute : st.hub.route i.fd = .vhci p) (hh : i.evts.hangup = false)
    (hin : i.evts.epollin = true)
    (hreads : i.sys.reads = kernelReads (st.os.fds i.fd) closed queue) :
    PassthroughHandler.drainedChunks i.sys.reads = queue ∧
    (closed = false → step st i = .error .waiting) ∧
    (SendsProgress i.sys.sends →
      ((∃ st', step st i = .ok st') ↔ closed = true) ∧
      (step st i = .error .waiting ↔ closed = false)) := by
  obtain ⟨hopen, hclosed⟩ := step_of_kernelReads (run_sound hr) hroute hh hin hreads
  refine ⟨by rw [hreads, drainedChunks_kernelReads], hopen, fun hprogress => ?_⟩
  cases closed with
  | false => simp [hopen rfl]
  | true =>
    obtain ⟨st', hok⟩ := hclosed rfl hprogress
    simp [hok]

/-- Kernel data on the socketpair of the session that `connectInput` made. -/
def kernelDataInput (mode : Option FdMode) (closed : Bool) (queue : List Chunk) : Input where
  fd := 7
  evts := { epollin := true }
  sys := { reads := kernelReads mode closed queue }

theorem drain_returns_once_closed :
    ∃ st, run step (boot 3 4 fun _ => none) connectedRun = .ok st ∧
      ∃ st', step st (kernelDataInput (st.os.fds 7) true
        [PassthroughHandler.zeroChunk 48 (by decide) (by decide)]) = .ok st' := by
  obtain ⟨st, hr, hroute⟩ : ∃ st, run step (boot 3 4 fun _ => none) connectedRun = .ok st ∧
      st.hub.route 7 = .vhci 0 := ⟨_, rfl, rfl⟩
  refine ⟨st, hr, ?_⟩
  have hdrain := drain_returns_iff_closed hr (i := kernelDataInput (st.os.fds 7) true
    [PassthroughHandler.zeroChunk 48 (by decide) (by decide)]) hroute rfl rfl rfl
  exact (hdrain.2.2 List.not_mem_nil).1.mpr rfl

/-- One request of 48 bytes is queued and the kernel waits for its answer: the loop hangs. -/
theorem drain_blocks_on_open_socketpair :
    ∃ st, run step (boot 3 4 fun _ => none) connectedRun = .ok st ∧
      st.os.fds 7 = some .blocking ∧
      step st (kernelDataInput (st.os.fds 7) false
        [PassthroughHandler.zeroChunk 48 (by decide) (by decide)]) = .error .waiting := by
  obtain ⟨st, hr, hroute, hmode⟩ : ∃ st, run step (boot 3 4 fun _ => none) connectedRun = .ok st ∧
      st.hub.route 7 = .vhci 0 ∧ st.os.fds 7 = some .blocking := ⟨_, rfl, rfl, rfl⟩
  exact ⟨st, hr, hmode, (step_of_kernelReads (i := kernelDataInput (st.os.fds 7) false _)
    (run_sound hr) hroute rfl rfl rfl).1 rfl⟩

end Daemon
end WirelessHub

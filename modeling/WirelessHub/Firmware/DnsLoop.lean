import WirelessHub.Firmware.DnsName
import WirelessHub.Firmware.DnsServer

/-!
# The receive loop of the DNS server

`dns_server_task` from one `recvfrom` to the next, while the socket stays open. A datagram
shorter than a header ends the loop, as a closed socket does. A write outside a buffer
leaves nothing to be said about the task, so it counts as the end of the run. A run of this loop is
a run of the tasks and callers in which the task comes back to its `recvfrom` each time.
-/

namespace WirelessHub.Firmware.DnsTask

open Framework

/-- Why the loop does not come back to its `recvfrom`. -/
inductive Stop
  | left | overrun
  deriving DecidableEq, Repr

/-- The static buffers, and the messages that were sent. -/
structure Serving where
  buf : List UInt8
  resp : List UInt8
  sent : List (List UInt8)

def Serving.boot : Serving := ⟨List.replicate bufSize 0, List.replicate bufSize 0, []⟩

/-- The buffers behind a turn of the loop, with the reply that was sent. -/
def Serving.after (v : Serving) (r : Received) : Serving :=
  match (handle r).reply with
  | none => { v with buf := r.buf }
  | some p => ⟨r.buf, p.apply v.resp, v.sent ++ [p.message v.resp]⟩

def serve (v : Serving) (d : List UInt8) : Except Stop Serving :=
  let r := receive v.buf d
  if r.len < 12 then .error .left
  else if ∃ i ∈ ((renderLoop r).run .start).close.writes, qnameSize ≤ i then .error .overrun
  else if ∃ p ∈ (handle r).reply, ∃ i ∈ p.writes, bufSize ≤ i then .error .overrun
  else .ok (v.after r)

/-- A datagram that is long enough, and whose question, as far as it is received, fits into the
buffers. -/
structure Harmless (d : List UInt8) : Prop where
  header : 12 ≤ d.length
  name : NameFits (d.take (bufSize - 1))
  question : QuestionFits (d.take (bufSize - 1))

section Serve

variable {v v' : Serving} {d : List UInt8}

private theorem len_receive_lt_iff (buf d : List UInt8) :
    (receive buf d).len < 12 ↔ d.length < 12 := by
  have hlen : (receive buf d).len = min (bufSize - 1) d.length := List.length_take
  rw [hlen, bufSize]
  omega

private theorem serve_of_lt (h : d.length < 12) : serve v d = .error .left :=
  if_pos ((len_receive_lt_iff v.buf d).mpr h)

private theorem not_name_overrun_iff (r : Received) :
    (¬∃ i ∈ ((renderLoop r).run .start).close.writes, qnameSize ≤ i) ↔ NameFits r.text := by
  rw [← writes_name_iff]
  simp

private theorem not_reply_overrun_iff (r : Received) :
    (¬∃ p ∈ (handle r).reply, ∃ i ∈ p.writes, bufSize ≤ i) ↔ QuestionFits r.text := by
  rw [← writes_reply_iff]
  simp

private theorem serve_of_harmless (h : Harmless d) : serve v d = .ok
    (v.after (receive v.buf d)) := by
  have hlong : ¬(receive v.buf d).len < 12 :=
    mt (len_receive_lt_iff v.buf d).mp (Nat.not_lt.mpr h.header)
  have hname := (not_name_overrun_iff (receive v.buf d)).mpr (text_receive v.buf d ▸ h.name)
  have hreply := (not_reply_overrun_iff (receive v.buf d)).mpr (text_receive v.buf d ▸ h.question)
  rw [serve, if_neg hlong, if_neg hname, if_neg hreply]

private theorem harmless_of_serve (h : serve v d = .ok v') : Harmless d := by
  rw [serve] at h
  split at h
  case isTrue => cases h
  case isFalse hlong =>
    split at h
    case isTrue => cases h
    case isFalse hname =>
      split at h
      case isTrue => cases h
      case isFalse hreply =>
        rw [not_name_overrun_iff, text_receive] at hname
        rw [not_reply_overrun_iff, text_receive] at hreply
        exact ⟨Nat.not_lt.mp (mt (len_receive_lt_iff v.buf d).mpr hlong), hname, hreply⟩

private theorem exists_serve_iff (v : Serving) (d : List UInt8) :
    (∃ v', serve v d = .ok v') ↔ Harmless d := by
  constructor
  · rintro ⟨v', h⟩
    exact harmless_of_serve h
  · intro h
    exact ⟨_, serve_of_harmless h⟩

private theorem harmless_query_iff {q : DnsQuery} (hsize : q.encode.length ≤ bufSize - 1) :
    Harmless q.encode ↔ NameFits q.encode := by
  have htake := List.take_of_length_le hsize
  constructor
  · intro h
    exact htake ▸ h.name
  · intro h
    refine ⟨?_, htake.symm ▸ h, htake.symm ▸ questionFits_query q⟩
    rw [q.length_encode]
    omega

private theorem sent_of_serve_query {q : DnsQuery} (hsize : q.encode.length ≤ bufSize - 1)
    (h : serve v q.encode = .ok v') :
    v'.sent = v.sent ++ [q.answer 0x8180 3 [4, 3, 2, 1]] := by
  obtain ⟨p, hreply, hmessage⟩ := exists_reply_query v.buf v.resp hsize
  rw [serve_of_harmless (harmless_of_serve h)] at h
  obtain rfl := Except.ok.inj h
  simp only [Serving.after, hreply, hmessage]

end Serve

section Lifecycle

variable {s : Dns} {t fd : Nat}

/-- The steps of a task that take in a datagram: it loads the socket and receives. -/
def taskInputs (t : Nat) (d : List UInt8) : List DnsInput :=
  [.task t {}, .task t { len := (d.take (bufSize - 1)).length }]

private theorem setTask_setTask (s : Dns) (t : Nat) (pc pc' : DnsPc) :
    (s.setTask t pc).setTask t pc' = s.setTask t pc' := by
  simp only [Dns.setTask, Dns.mk.injEq, true_and, and_true]
  funext t'
  split <;> rfl

private theorem setTask_self {pc : DnsPc} (h : s.pcs t = pc) : s.setTask t pc = s := by
  have hpcs : (fun t' => if t' = t then pc else s.pcs t') = s.pcs := by
    funext t'
    split
    case isTrue heq => rw [heq, h]
    case isFalse => rfl
  rw [Dns.setTask, hpcs]

/-- A task with an open socket comes back to its `recvfrom` unless the datagram is short. -/
theorem run_taskInputs (hpc : s.pcs t = .recvLoad) (hsock : s.sock = some fd)
    (hopen : s.isOpen (some fd) = true) (d : List UInt8) :
    run Dns.step s (taskInputs t d) =
      .ok (s.setTask t (if d.length < 12 then .closeLoad else .recvLoad)) := by
  have hload : s.step (.task t {}) = .ok (s.setTask t (.receiving (some fd))) := by
    simp only [Dns.step, Dns.taskStep, hpc, hsock]
  have hlen : (12 : Int) ≤ (d.take (bufSize - 1)).length ↔ ¬d.length < 12 := by
    rw [List.length_take, bufSize]
    omega
  have hrecv : (s.setTask t (.receiving (some fd))).step
      (.task t { len := (d.take (bufSize - 1)).length }) =
      .ok (s.setTask t (if d.length < 12 then .closeLoad else .recvLoad)) := by
    have hpc' : (s.setTask t (.receiving (some fd))).pcs t = .receiving (some fd) := if_pos rfl
    have hopen' : (s.setTask t (.receiving (some fd))).isOpen (some fd) = true := hopen
    simp only [Dns.step, Dns.taskStep, hpc', hopen', hlen, and_true, setTask_setTask, ite_not]
  rw [taskInputs, run_cons_of_ok _ hload, run_cons_of_ok _ hrecv, run_nil]

/-- A run of the loop is a run of the lifecycle that leaves the task at its `recvfrom`. -/
theorem run_lifecycle_of_serve (hpc : s.pcs t = .recvLoad) (hsock : s.sock = some fd)
    (hopen : s.isOpen (some fd) = true) {v v' : Serving} {ds : List (List UInt8)}
    (h : run serve v ds = .ok v') : run Dns.step s (ds.flatMap (taskInputs t)) = .ok s := by
  induction ds generalizing v with
  | nil => rfl
  | cons d ds ih =>
    obtain ⟨u, hserve, hrest⟩ := run_cons_eq_ok.mp h
    have hturn := run_taskInputs hpc hsock hopen d
    rw [if_neg (Nat.not_lt.mpr (harmless_of_serve hserve).header), setTask_self hpc] at hturn
    rw [List.flatMap_cons, run_append _ hturn]
    exact ih hrest

end Lifecycle

/-- The task is in its loop after some datagrams, and answers a query that comes next, exactly
if none of them is short or overruns a buffer and the name of the query fits into `qname`. -/
theorem still_answers_iff (v : Serving) (ds : List (List UInt8)) (q : DnsQuery)
    (hsize : q.encode.length ≤ bufSize - 1) :
    (∃ t u, run serve v ds = .ok t ∧ serve t q.encode = .ok u ∧
      u.sent = t.sent ++ [q.answer 0x8180 3 [4, 3, 2, 1]]) ↔
    (∀ d ∈ ds, Harmless d) ∧ NameFits q.encode := by
  rw [← exists_run_ok_iff exists_serve_iff v ds, ← harmless_query_iff hsize]
  constructor
  · rintro ⟨t, u, hrun, hserve, -⟩
    exact ⟨⟨t, hrun⟩, harmless_of_serve hserve⟩
  · rintro ⟨⟨t, hrun⟩, hq⟩
    obtain ⟨u, hu⟩ := (exists_serve_iff t q.encode).mpr hq
    exact ⟨t, u, hrun, hu, sent_of_serve_query hsize hu⟩

theorem still_answers_iff_sampleQuery :
    sampleQuery.encode.length ≤ bufSize - 1 ∧
    ((∃ t u, run serve .boot [sampleQuery.encode] = .ok t ∧ serve t sampleQuery.encode = .ok u ∧
      u.sent = t.sent ++ [sampleQuery.answer 0x8180 3 [4, 3, 2, 1]]) ↔
    (∀ d ∈ [sampleQuery.encode], Harmless d) ∧ NameFits sampleQuery.encode) :=
  ⟨by decide, still_answers_iff .boot [sampleQuery.encode] sampleQuery (by decide)⟩

/-- An empty datagram ends the loop. -/
theorem empty_datagram_stops :
    sampleQuery.encode.length ≤ bufSize - 1 ∧
    ¬∃ t u, run serve .boot [[]] = .ok t ∧ serve t sampleQuery.encode = .ok u ∧
      u.sent = t.sent ++ [sampleQuery.answer 0x8180 3 [4, 3, 2, 1]] := by
  refine ⟨by decide, ?_⟩
  rintro ⟨t, u, hrun, -⟩
  obtain ⟨s, hs, -⟩ := run_cons_eq_ok.mp hrun
  rw [serve_of_lt (by decide)] at hs
  cases hs

end WirelessHub.Firmware.DnsTask

import Mathlib.Tactic.Common
import WirelessHub.Framework.Pieces
import WirelessHub.Framework.Run
import WirelessHub.Protocol.Wire

/-!
# The log forwarder

`log_forwarder.c` hands log lines from the hook `log_forwarder_vprintf`, which any task may be
in, to `log_sender_task` by a queue of pointers, and the sender writes each of them as one
`CMD_LOG` packet. A line has the number of its entry, counted over all allocations, and the
entry and the packet that are made of a line carry it along. Beside the state of the code the
lines that went into the queue, the entries that were freed and the `send` calls are kept.
-/

namespace WirelessHub.Firmware

open Framework

def logMsgMax : Nat := 256
def logQueueLen : Nat := 256

/-- Where `detect_level` is in an escape sequence. -/
inductive AnsiScan
  | outside | escaped | params

/-- The loop of `detect_level` that skips `ESC [ … m`. The end of the list is the end of the
string, and so is a zero byte. -/
def skipAnsi : AnsiScan → List UInt8 → List UInt8
  | _, [] => []
  | .outside, b :: s => if b = 0x1B then skipAnsi .escaped s else b :: s
  | .escaped, b :: s =>
      if b = 0x5B then skipAnsi .params s
      else if b = 0x1B then skipAnsi .escaped s
      else b :: s
  | .params, b :: s =>
      if b = 0 then b :: s
      else if b = 0x6D then skipAnsi .outside s
      else skipAnsi .params s

def levelOf : Option UInt8 → LogLevel
  | some 0x45 => .error
  | some 0x57 => .warn
  | some 0x49 => .info
  | some 0x44 => .debug
  | some 0x56 => .verbose
  | _ => .info

def detectLevel (s : List UInt8) : LogLevel := levelOf (skipAnsi .outside s).head?

/-- `log_entry_t`; `msg` is the string without its zero byte. -/
structure LogEntry where
  level : UInt8
  len : UInt16
  msg : List UInt8
  deriving DecidableEq, Repr

def renderEntry (line : List UInt8) : LogEntry where
  level := (detectLevel (line.take (logMsgMax - 1))).toByte
  len := UInt16.ofNat (if line.length < logMsgMax then line.length else logMsgMax - 1)
  msg := line.take (logMsgMax - 1)

def logPacket (e : LogEntry) : List UInt8 :=
  Header.encode ⟨CmdType.log.toByte, 0, 0, 0, UInt16.ofNat (1 + e.len.toNat)⟩ ++
    e.level :: e.msg.take e.len.toNat

/-- A line on its way, with the number of its entry. -/
structure LogLine where
  id : Nat
  text : List UInt8
  deriving DecidableEq, Repr

/-- A call of the hook with the entry it has allocated, which it may have filled in. -/
structure HookCall where
  line : LogLine
  entry : Option LogEntry
  rendered : ∀ e, entry = some e → e = renderEntry line.text

def HookCall.entered (line : LogLine) : HookCall := ⟨line, none, by simp⟩

def HookCall.filled (line : LogLine) : HookCall := ⟨line, some (renderEntry line.text), by simp⟩

structure LogItem where
  line : LogLine
  entry : LogEntry
  rendered : entry = renderEntry line.text

structure LogFrame where
  line : LogLine
  pkt : List UInt8
  built : pkt = logPacket (renderEntry line.text)

/-- A `send` of the sender: the connection, the packet and the result. -/
structure LogSend where
  conn : Option Nat
  frame : LogFrame
  sent : Option Nat

def LogSend.piece (x : LogSend) : Piece UInt8 where
  whole := x.frame.pkt
  taken := x.frame.pkt.take (x.sent.getD 0)
  leads := List.take_prefix _ _

/-- Where the sender is in its loop. -/
inductive SenderStage
  | idle
  | receiving
  | holding (item : LogItem)
  | sending (frame : LogFrame)

namespace SenderStage

/-- The line that the sender works on. -/
def line : SenderStage → List LogLine
  | .idle | .receiving => []
  | .holding item => [item.line]
  | .sending frame => [frame.line]

def held : SenderStage → List Nat
  | .idle | .receiving | .sending _ => []
  | .holding item => [item.line.id]

end SenderStage

/-- The answers to a step of the sender. -/
structure SenderAnswers where
  found : Bool := true
  socket : Bool := true
  connect : Bool := true
  sent : Option Nat := none

inductive LogInput
  | call (text : List UInt8) (malloc : Bool)
  | fill (k : Nat)
  | enqueue (k : Nat)
  | sender (a : SenderAnswers)

/-- Calls of the hook under way, the queue, the sender and its socket. Connections are
numbered in the order in which they are made. -/
structure LogForwarder where
  hooks : List HookCall
  queue : List LogItem
  sender : SenderStage
  sock : Option Nat
  connected : Bool
  nextConn : Nat
  nextId : Nat
  freed : List Nat
  enqueued : List LogLine
  log : List LogSend

namespace LogForwarder

def init : LogForwarder where
  hooks := []
  queue := []
  sender := .idle
  sock := none
  connected := false
  nextConn := 0
  nextId := 0
  freed := []
  enqueued := []
  log := []

/-- The hook is entered; without memory it returns at once. -/
def call (s : LogForwarder) (text : List UInt8) (malloc : Bool) : LogForwarder :=
  if malloc then
    { s with
      hooks := s.hooks ++ [.entered ⟨s.nextId, text⟩]
      nextId := s.nextId + 1 }
  else s

def freeHook (s : LogForwarder) (k : Nat) (id : Nat) : LogForwarder :=
  { s with hooks := s.hooks.eraseIdx k, freed := s.freed ++ [id] }

/-- The hook renders its line into the entry; an empty line is dropped. -/
def fill (s : LogForwarder) (k : Nat) : Except Unit LogForwarder :=
  match s.hooks[k]? with
  | some ⟨line, none, _⟩ =>
      if line.text.length = 0 then .ok (s.freeHook k line.id)
      else .ok { s with hooks := s.hooks.set k (.filled line) }
  | _ => .error ()

/-- `xQueueSend` without waiting; a full queue drops the entry. -/
def enqueue (s : LogForwarder) (k : Nat) : Except Unit LogForwarder :=
  match s.hooks[k]? with
  | some ⟨line, some e, h⟩ =>
      if s.queue.length < logQueueLen then
        .ok { s with
          hooks := s.hooks.eraseIdx k
          queue := s.queue ++ [⟨line, e, h e rfl⟩]
          enqueued := s.enqueued ++ [line] }
      else .ok (s.freeHook k line.id)
  | _ => .error ()

/-- One turn of the loop that makes the connection. -/
def reconnect (s : LogForwarder) (a : SenderAnswers) : LogForwarder :=
  if a.socket && a.connect then
    { s with sock := some s.nextConn, connected := true, nextConn := s.nextConn + 1 }
  else { s with sock := none, connected := false }

/-- `send`; only an error closes the connection. -/
def send (s : LogForwarder) (frame : LogFrame) (a : SenderAnswers) : LogForwarder :=
  let sent := if s.sock.isSome then a.sent else none
  let s := { s with sender := .idle, log := s.log ++ [⟨s.sock, frame, sent⟩] }
  if sent = none then { s with sock := none, connected := false } else s

def senderStep (s : LogForwarder) (a : SenderAnswers) : Except Unit LogForwarder :=
  match s.sender with
  | .idle => .ok (if a.found then { s with sender := .receiving } else s)
  | .receiving => match s.queue with
    | [] => .error ()
    | item :: queue => .ok { s with sender := .holding item, queue := queue }
  | .holding item =>
      if s.sock.isSome && s.connected then
        .ok { s with
          sender := .sending ⟨item.line, logPacket item.entry, by rw [item.rendered]⟩
          freed := s.freed ++ [item.line.id] }
      else .ok (s.reconnect a)
  | .sending frame => .ok (s.send frame a)

def step (s : LogForwarder) : LogInput → Except Unit LogForwarder
  | .call text malloc => .ok (s.call text malloc)
  | .fill k => s.fill k
  | .enqueue k => s.enqueue k
  | .sender a => s.senderStep a

/-- The entries place by place: with the hook, in the queue, with the sender, freed. -/
def places (s : LogForwarder) : List Nat :=
  s.hooks.map (·.line.id) ++ s.queue.map (·.line.id) ++ s.sender.held ++ s.freed

def sendsOn (s : LogForwarder) (c : Nat) : List LogSend := s.log.filter fun x => x.conn = some c

def written (s : LogForwarder) (c : Nat) : List UInt8 := stream ((s.sendsOn c).map LogSend.piece)

/-- Lines leave the queue in the order in which they entered it, each one once, and no entry
is lost or in two places. -/
structure Kept (s : LogForwarder) : Prop where
  order : s.enqueued = s.log.map (·.frame.line) ++ s.sender.line ++ s.queue.map (·.line)
  custody : s.places.Perm (List.range s.nextId)
  once : (s.hooks.map (·.line.id) ++ s.enqueued.map (·.id)).Nodup
  known : ∀ line ∈ s.enqueued, line.id < s.nextId

variable {s s' : LogForwarder} {i : LogInput} {k : Nat} {a : SenderAnswers}

private theorem kept_init : init.Kept := ⟨rfl, .refl _, List.nodup_nil, fun _ h => absurd h List.not_mem_nil⟩

private theorem Kept.hook_lt (h : s.Kept) {x : HookCall} (hx : x ∈ s.hooks) :
    x.line.id < s.nextId := by
  rw [← List.mem_range, ← h.custody.mem_iff, places]
  simp only [List.append_assoc, List.mem_append]
  exact .inl (List.mem_map.mpr ⟨x, hx, rfl⟩)

private theorem Kept.call (h : s.Kept) (text : List UInt8) (malloc : Bool) :
    (s.call text malloc).Kept := by
  cases malloc with
  | false => exact h
  | true =>
    constructor
    case order => exact h.order
    case custody =>
      rw [List.perm_iff_count]
      intro n
      have hn := h.custody.count_eq n
      simp only [places, LogForwarder.call, if_true, List.map_append, List.count_append, List.range_succ,
        List.map_cons, List.map_nil, HookCall.entered] at hn ⊢
      omega
    case once =>
      have hnew : s.nextId ∉ s.hooks.map (·.line.id) ++ s.enqueued.map (·.id) := by
        intro hmem
        cases List.mem_append.mp hmem with
        | inl hhook =>
          obtain ⟨x, hx, heq⟩ := List.mem_map.mp hhook
          exact absurd (h.hook_lt hx) (by omega)
        | inr hline =>
          obtain ⟨line, hline, heq⟩ := List.mem_map.mp hline
          exact absurd (h.known line hline) (by omega)
      apply List.Perm.nodup _ (List.nodup_cons.mpr ⟨hnew, h.once⟩)
      simp only [LogForwarder.call, if_true, List.map_append, List.append_assoc]
      exact List.perm_middle.symm
    case known =>
      intro line hline
      exact Nat.lt_succ_of_lt (h.known line hline)

private theorem perm_cons_eraseIdx {α : Type*} {l : List α} {k : Nat} {x : α} (h : l[k]? = some x) :
    l.Perm (x :: l.eraseIdx k) := by
  induction l generalizing k with
  | nil => cases h
  | cons a l ih =>
    cases k with
    | zero =>
      cases h
      exact .refl _
    | succ k => exact ((ih h).cons a).trans (.swap _ _ _)

private theorem hooks_perm {x : HookCall} (hk : s.hooks[k]? = some x) :
    (s.hooks.map (·.line.id)).Perm (x.line.id :: (s.hooks.eraseIdx k).map (·.line.id)) :=
  (perm_cons_eraseIdx hk).map _

private theorem Kept.freeHook (h : s.Kept) {x : HookCall} (hk : s.hooks[k]? = some x) :
    (s.freeHook k x.line.id).Kept := by
  have hperm := hooks_perm hk
  constructor
  case order => exact h.order
  case custody =>
    rw [List.perm_iff_count]
    intro n
    have hn := h.custody.count_eq n
    have hx := hperm.count_eq n
    simp only [places, LogForwarder.freeHook, List.count_append, List.count_cons, List.count_nil] at hn hx ⊢
    omega
  case once =>
    have honce := (hperm.append_right _).nodup h.once
    rw [List.cons_append, List.nodup_cons] at honce
    exact honce.2
  case known => exact h.known

private theorem Kept.fill (h : s.Kept) (hs : s.fill k = .ok s') : s'.Kept := by
  unfold LogForwarder.fill at hs
  split at hs
  · rename_i line hr hk
    split at hs
    · cases hs
      exact h.freeHook hk
    · cases hs
      have hids : (s.hooks.set k (.filled line)).map (·.line.id) = s.hooks.map (·.line.id) := by
        apply List.ext_getElem?
        intro n
        rw [List.getElem?_map, List.getElem?_map, List.getElem?_set]
        split
        · rename_i hn
          rw [← hn, hk]
          simp [HookCall.filled, (List.getElem?_eq_some_iff.mp hk).1]
        · rfl
      constructor
      case order => exact h.order
      case custody =>
        simp only [places, hids]
        exact h.custody
      case once =>
        simp only [hids]
        exact h.once
      case known => exact h.known
  · cases hs

private theorem Kept.enqueue (h : s.Kept) (hs : s.enqueue k = .ok s') : s'.Kept := by
  unfold LogForwarder.enqueue at hs
  split at hs
  · rename_i line e hr hk
    have hperm := hooks_perm hk
    split at hs
    · cases hs
      constructor
      case order =>
        rw [h.order]
        simp
      case custody =>
        rw [List.perm_iff_count]
        intro n
        have hn := h.custody.count_eq n
        have hx := hperm.count_eq n
        simp only [places, List.map_append, List.map_cons, List.map_nil, List.count_append,
          List.count_cons, List.count_nil] at hn hx ⊢
        omega
      case once =>
        have honce := (hperm.append_right (s.enqueued.map (·.id))).nodup h.once
        apply List.Perm.nodup _ honce
        simp only [List.map_append, List.map_cons, List.map_nil, ← List.append_assoc]
        exact (List.perm_append_singleton _ _).symm
      case known =>
        intro l hl
        cases List.mem_append.mp hl with
        | inl hold => exact h.known l hold
        | inr hnew =>
          rw [List.mem_singleton.mp hnew]
          exact h.hook_lt (List.mem_of_getElem? hk)
    · cases hs
      exact h.freeHook hk
  · cases hs

private theorem Kept.reconnect (h : s.Kept) (a : SenderAnswers) : (s.reconnect a).Kept := by
  unfold LogForwarder.reconnect
  split
  · exact ⟨h.order, h.custody, h.once, h.known⟩
  · exact ⟨h.order, h.custody, h.once, h.known⟩

private theorem Kept.send (h : s.Kept) {frame : LogFrame} (hsender : s.sender = .sending frame) (a : SenderAnswers) :
    (s.send frame a).Kept := by
  have horder := h.order
  have hcustody := h.custody
  rw [places, hsender] at hcustody
  rw [hsender] at horder
  unfold LogForwarder.send
  generalize (if s.sock.isSome then a.sent else none) = sent
  simp only
  split
  all_goals
    constructor
    case order =>
      simp only [horder]
      simp [SenderStage.line]
    case custody => exact hcustody
    case once => exact h.once
    case known => exact h.known

private theorem Kept.senderStep (h : s.Kept) (hs : s.senderStep a = .ok s') : s'.Kept := by
  have horder := h.order
  have hcustody := h.custody
  rw [places] at hcustody
  unfold LogForwarder.senderStep at hs
  split at hs
  case h_1 hsender =>
    rw [hsender] at horder hcustody
    cases hs
    split
    · exact ⟨horder, hcustody, h.once, h.known⟩
    · exact h
  case h_2 hsender =>
    rw [hsender] at horder hcustody
    split at hs
    · cases hs
    · rename_i item queue hqueue
      cases hs
      rw [hqueue] at horder hcustody
      constructor
      case order => exact horder.trans (by simp [SenderStage.line])
      case custody =>
        apply List.Perm.trans _ hcustody
        simp only [places, SenderStage.held, List.append_assoc, List.map_cons, List.cons_append,
          List.nil_append]
        exact List.perm_middle.append_left _
      case once => exact h.once
      case known => exact h.known
  case h_3 item hsender =>
    rw [hsender] at horder hcustody
    split at hs
    · cases hs
      constructor
      case order => exact horder
      case custody =>
        apply List.Perm.trans _ hcustody
        simp only [places, SenderStage.held, List.append_assoc, List.cons_append, List.nil_append]
        exact ((List.perm_append_singleton _ _).append_left _).append_left _
      case once => exact h.once
      case known => exact h.known
    · cases hs
      exact h.reconnect a
  case h_4 frame hsender =>
    cases hs
    exact h.send hsender a

private theorem step_kept (h : s.Kept) (hs : s.step i = .ok s') : s'.Kept := by
  cases i with
  | call text malloc =>
    cases hs
    exact h.call text malloc
  | fill k => exact h.fill hs
  | enqueue k => exact h.enqueue hs
  | sender a => exact h.senderStep hs

theorem run_kept {is : List LogInput} (hr : run step init is = .ok s) : s.Kept :=
  run_invariant_of_step (fun _ _ _ => step_kept) kept_init hr

/-- What a step does to the connection and to the log of `send` calls. -/
inductive LinkStep (s : LogForwarder) (i : LogInput) (s' : LogForwarder) : Prop
  | keep (log : s'.log = s.log) (sock : s'.sock = s.sock) (next : s'.nextConn = s.nextConn)
  | drop (log : s'.log = s.log) (sock : s'.sock = none) (next : s'.nextConn = s.nextConn)
  | connect (log : s'.log = s.log) (sock : s'.sock = some s.nextConn)
      (next : s'.nextConn = s.nextConn + 1)
  | send (frame : LogFrame) (a : SenderAnswers) (x : LogSend) (sender : s.sender = .sending frame)
      (input : i = .sender a) (call : x = ⟨s.sock, frame, if s.sock.isSome then a.sent else none⟩)
      (log : s'.log = s.log ++ [x]) (sock : s'.sock = if x.sent = none then none else s.sock)
      (next : s'.nextConn = s.nextConn)

private theorem reconnect_link (s : LogForwarder) (a : SenderAnswers) (i : LogInput) :
    LinkStep s i (s.reconnect a) := by
  unfold LogForwarder.reconnect
  split
  · exact .connect rfl rfl rfl
  · exact .drop rfl rfl rfl

theorem step_link (hs : s.step i = .ok s') : LinkStep s i s' := by
  cases i with
  | call text malloc =>
    cases hs
    cases malloc <;> exact .keep rfl rfl rfl
  | fill k =>
    change s.fill k = .ok s' at hs
    unfold LogForwarder.fill at hs
    repeat' split at hs
    all_goals cases hs
    all_goals exact .keep rfl rfl rfl
  | enqueue k =>
    change s.enqueue k = .ok s' at hs
    unfold LogForwarder.enqueue at hs
    repeat' split at hs
    all_goals cases hs
    all_goals exact .keep rfl rfl rfl
  | sender a =>
    simp only [step, LogForwarder.senderStep] at hs
    cases hsender : s.sender with
    | idle =>
      simp only [hsender, Except.ok.injEq] at hs
      rw [← hs]
      split <;> exact .keep rfl rfl rfl
    | receiving =>
      simp only [hsender] at hs
      split at hs
      · cases hs
      · cases hs
        exact .keep rfl rfl rfl
    | holding item =>
      simp only [hsender] at hs
      split at hs
      · cases hs
        exact .keep rfl rfl rfl
      · cases hs
        exact reconnect_link s a _
    | sending frame =>
      simp only [hsender, Except.ok.injEq] at hs
      rw [← hs]
      apply LinkStep.send frame a _ hsender rfl rfl
      all_goals
        unfold LogForwarder.send
        generalize (if s.sock.isSome then a.sent else none) = sent
        cases sent <;> rfl

/-- No connection is used again after a `send` on it has failed. -/
structure Closing (s : LogForwarder) : Prop where
  opened : ∀ c, s.sock = some c → c < s.nextConn
  used : ∀ x ∈ s.log, ∀ c, x.conn = some c → c < s.nextConn
  closed : ∀ x ∈ s.log, x.sent = none → ∀ c, x.conn = some c → s.sock ≠ some c
  last : s.log.Pairwise fun x y => x.sent = none → ∀ c, x.conn = some c → y.conn ≠ some c

private theorem closing_init : init.Closing :=
  ⟨by simp [init], by simp [init], by simp [init], .nil⟩

private theorem Closing.send {x : LogSend} (h : s.Closing) (hconn : x.conn = s.sock)
    (hlog : s'.log = s.log ++ [x]) (hsock : s'.sock = if x.sent = none then none else s.sock)
    (hnext : s'.nextConn = s.nextConn) : s'.Closing := by
  have hopen : ∀ c, s'.sock = some c → x.sent ≠ none ∧ s.sock = some c := by
    intro c hc
    rw [hsock] at hc
    split at hc
    · cases hc
    · exact ⟨‹_›, hc⟩
  constructor
  · intro c hc
    rw [hnext]
    exact h.opened c (hopen c hc).2
  · intro y hy c hc
    rw [hnext]
    rw [hlog, List.mem_append, List.mem_singleton] at hy
    cases hy with
    | inl hold => exact h.used y hold c hc
    | inr hnew =>
      rw [hnew, hconn] at hc
      exact h.opened c hc
  · intro y hy hfailed c hc hcur
    rw [hlog, List.mem_append, List.mem_singleton] at hy
    cases hy with
    | inl hold => exact h.closed y hold hfailed c hc (hopen c hcur).2
    | inr hnew =>
      rw [hnew] at hfailed
      exact (hopen c hcur).1 hfailed
  · rw [hlog, List.pairwise_append]
    apply And.intro h.last
    apply And.intro (List.pairwise_singleton _ _)
    intro y hy z hz hfailed c hc
    rw [List.mem_singleton] at hz
    rw [hz, hconn]
    exact h.closed y hy hfailed c hc

/-- A step that does not send only has to leave the failed connections closed. -/
theorem Closing.of_sock (h : s.Closing) (hlog : s'.log = s.log) (hnext : s.nextConn ≤ s'.nextConn)
    (hopened : ∀ c, s'.sock = some c → c < s'.nextConn)
    (hclosed : ∀ x ∈ s.log, x.sent = none → ∀ c, x.conn = some c → s'.sock ≠ some c) :
    s'.Closing := by
  constructor
  · exact hopened
  · intro x hx c hc
    rw [hlog] at hx
    exact Nat.lt_of_lt_of_le (h.used x hx c hc) hnext
  · rw [hlog]
    exact hclosed
  · rw [hlog]
    exact h.last

private theorem step_closing (h : s.Closing) (hs : s.step i = .ok s') : s'.Closing := by
  cases step_link hs with
  | keep log sock next =>
    apply h.of_sock log (Nat.le_of_eq next.symm)
    · rw [sock, next]
      exact h.opened
    · rw [sock]
      exact h.closed
  | drop log sock next =>
    apply h.of_sock log (Nat.le_of_eq next.symm)
    · simp [sock]
    · simp [sock]
  | connect log sock next =>
    apply h.of_sock log (by omega)
    · intro c hc
      rw [sock, Option.some.injEq] at hc
      omega
    · intro x hx _ c hc hcur
      have hlt := h.used x hx c hc
      rw [sock, Option.some.injEq] at hcur
      omega
  | send frame a x sender input call log sock next => exact h.send (by rw [call]) log sock next

theorem run_closing {is : List LogInput} (hr : run step init is = .ok s) : s.Closing :=
  run_invariant_of_step (fun _ _ _ => step_closing) closing_init hr

/-- Only the last `send` on a connection can have failed. -/
theorem Closing.failed_last (h : s.Closing) (c : Nat) :
    (s.sendsOn c).Pairwise fun x _ => x.sent ≠ none := by
  apply (h.last.filter _).imp_of_mem
  intro x y hx hy hlast hfailed
  simp only [List.mem_filter, decide_eq_true_eq] at hx hy
  exact hlast hfailed c hx.2 hy.2

end LogForwarder
end WirelessHub.Firmware

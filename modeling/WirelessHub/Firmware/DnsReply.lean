import WirelessHub.Framework.Buffer
import WirelessHub.Framework.Loop
import WirelessHub.Protocol.DnsMessage

/-!
# Replies of the DNS server

`dns_server_task` of `wifi_manager.c` for one datagram, from the scan for the end of the question
to the message that is sent. The buffers are static, so behind the received bytes the
receive buffer holds what earlier datagrams left there. The indices that are read from it, and
the cells of the reply that are written, are recorded beside the result.

The scan hops from length byte to length byte; where it stands is described on the datagram
alone by `LabelAt`, and where it ends by `NameEnds`.
-/

namespace WirelessHub.Firmware.DnsTask

open Framework

/-- `sizeof(buf)` and `sizeof(resp)`. -/
def bufSize : Nat := 512

/-- The receive buffer behind a `recvfrom`, with the number of bytes that were received. -/
structure Received where
  buf : List UInt8
  len : Nat
  len_le : len ≤ buf.length

namespace Received

def byte (r : Received) (i : Nat) : UInt8 := r.buf.getD i 0

/-- The bytes that were received. -/
def text (r : Received) : List UInt8 := r.buf.take r.len

variable {r : Received} {i n : Nat}

theorem length_text (r : Received) : r.text.length = r.len := by
  rw [text, List.length_take, Nat.min_eq_left r.len_le]

theorem getElem?_text (h : i < r.len) : r.text[i]? = some (r.byte i) := by
  have hbuf : i < r.buf.length := Nat.lt_of_lt_of_le h r.len_le
  rw [text, List.getElem?_take_of_lt h, byte, List.getD_eq_getElem?_getD,
    List.getElem?_eq_getElem hbuf, Option.getD_some]

theorem lt_len_of_getElem?_text {b : UInt8} (h : r.text[i]? = some b) : i < r.len :=
  r.length_text ▸ (List.getElem?_eq_some_iff.mp h).1

theorem byte_of_getElem?_text {b : UInt8} (h : r.text[i]? = some b) : r.byte i = b :=
  Option.some.inj ((getElem?_text (lt_len_of_getElem?_text h)).symm.trans h)

private theorem take_drop_buf (h : i + n ≤ r.len) : (r.buf.drop i).take n =
    (r.text.drop i).take n := by
  rw [text, List.drop_take, List.take_take, Nat.min_eq_left (by omega)]

end Received

/-- `recvfrom` with room for all but one byte of the buffer; a longer datagram is cut off. -/
def receive (buf datagram : List UInt8) : Received where
  buf := store buf 0 (datagram.take (bufSize - 1))
  len := (datagram.take (bufSize - 1)).length
  len_le := Nat.zero_add (datagram.take (bufSize - 1)).length ▸ le_length_store (Nat.zero_le _)

theorem text_receive (buf datagram : List UInt8) :
    (receive buf datagram).text = datagram.take (bufSize - 1) := by
  simp only [receive, Received.text, store_zero, List.take_left]

/-- Such a byte begins a compression pointer. -/
def isPointer (b : UInt8) : Bool := b &&& 0xC0 = 0xC0

private theorem isPointer_iff {b : UInt8} : isPointer b = true ↔ 192 ≤ b.toNat := by
  have hall : ∀ n < 256, n &&& 192 = 192 ↔ 192 ≤ n := by decide +kernel
  rw [isPointer, decide_eq_true_eq, ← UInt8.toNat_inj, UInt8.toNat_and]
  exact hall b.toNat b.toNat_lt

/-! ### The question -/

/-- Where the scan stands, and the indices of `buf` it has looked at. -/
structure Scan where
  ne : Nat
  reads : List Nat

/-- A turn of the loop that looks for the end of the name. A pointer ends it by the `goto`,
anything else with the byte behind the place where it stopped. -/
def scanTurn (r : Received) (s : Scan) : Turn Scan Scan :=
  if s.ne < r.len then
    let reads := s.reads ++ [s.ne]
    if r.byte s.ne = 0 then .done ⟨s.ne + 1, reads⟩
    else if isPointer (r.byte s.ne) then .done ⟨s.ne + 2, reads⟩
    else .again ⟨s.ne + (r.byte s.ne).toNat + 1, reads⟩
  else .done ⟨s.ne + 1, s.reads⟩

private theorem scanTurn_of_le {r : Received} {s : Scan} (h : r.len ≤ s.ne) :
    scanTurn r s = .done ⟨s.ne + 1, s.reads⟩ :=
  if_neg (Nat.not_lt.mpr h)

private theorem scanTurn_of_lt {r : Received} {s : Scan} (h : s.ne < r.len) :
    scanTurn r s =
      if r.byte s.ne = 0 then .done ⟨s.ne + 1, s.reads ++ [s.ne]⟩
      else if isPointer (r.byte s.ne) then .done ⟨s.ne + 2, s.reads ++ [s.ne]⟩
      else .again ⟨s.ne + (r.byte s.ne).toNat + 1, s.reads ++ [s.ne]⟩ :=
  if_pos h

private theorem scanTurn_again {r : Received} {s s' : Scan} (h : scanTurn r s = .again s') :
    s.ne < r.len ∧ r.byte s.ne ≠ 0 ∧ isPointer (r.byte s.ne) = false ∧
      s' = ⟨s.ne + (r.byte s.ne).toNat + 1, s.reads ++ [s.ne]⟩ := by
  by_cases hlt : s.ne < r.len
  · rw [scanTurn_of_lt hlt] at h
    split at h
    case isTrue => cases h
    case isFalse hzero =>
      split at h
      case isTrue => cases h
      case isFalse hptr => exact ⟨hlt, hzero, Bool.eq_false_iff.mpr hptr, (Turn.again.inj h).symm⟩
  · rw [scanTurn_of_le (Nat.not_lt.mp hlt)] at h
    cases h

def scanLoop (r : Received) : Loop Scan Scan where
  turn := scanTurn r
  variant s := r.len - s.ne
  decreases s s' h := by
    obtain ⟨hlt, -, -, rfl⟩ := scanTurn_again h
    simp only
    omega

def question (r : Received) : Scan := (scanLoop r).run ⟨12, []⟩

/-- From a length byte to the one behind its label. -/
def Hop (d : List UInt8) (p p' : Nat) : Prop :=
  ∃ l, d[p]? = some l ∧ l ≠ 0 ∧ isPointer l = false ∧ p' = p + l.toNat + 1

/-- The name of the first question has a length byte at `p`, or is cut off before it. -/
def LabelAt (d : List UInt8) : Nat → Prop := Relation.ReflTransGen (Hop d) 12

/-- The name of the first question ends before `e`, with a zero byte or with a pointer. -/
def NameEnds (d : List UInt8) (e : Nat) : Prop :=
  ∃ p b, LabelAt d p ∧ d[p]? = some b ∧ (b = 0 ∧ e = p + 1 ∨ isPointer b = true ∧ e = p + 2)

theorem Hop.lt {d : List UInt8} {p p' : Nat} (h : Hop d p p') : p < p' ∧ p < d.length := by
  obtain ⟨l, hl, -, -, rfl⟩ := h
  exact ⟨by omega, (List.getElem?_eq_some_iff.mp hl).1⟩

private theorem LabelAt.le {d : List UInt8} {p : Nat} (h : LabelAt d p) : 12 ≤ p := by
  induction h with
  | refl => exact Nat.le_refl _
  | tail _ hhop ih => exact Nat.le_of_lt (Nat.lt_of_le_of_lt ih hhop.lt.1)

private theorem NameEnds.lt {d : List UInt8} {e : Nat} (h : NameEnds d e) : 12 < e := by
  obtain ⟨p, b, hp, -, hend⟩ := h
  have hle := hp.le
  omega

private theorem reaches_of_labelAt {r : Received} {p : Nat} (h : LabelAt r.text p) :
    ∃ s, Reaches (scanTurn r) ⟨12, []⟩ s ∧ s.ne = p := by
  induction h with
  | refl => exact ⟨_, .refl, rfl⟩
  | tail _ hhop ih =>
    obtain ⟨s, hs, rfl⟩ := ih
    obtain ⟨l, hl, hzero, hptr, rfl⟩ := hhop
    have hbyte := Received.byte_of_getElem?_text hl
    refine ⟨⟨s.ne + l.toNat + 1, s.reads ++ [s.ne]⟩, hs.tail ?_, rfl⟩
    rw [scanTurn_of_lt (Received.lt_len_of_getElem?_text hl), hbyte, if_neg hzero, if_neg (by simp [hptr])]

private theorem question_of_nameEnds {r : Received} {e : Nat} (h : NameEnds r.text e) :
    (question r).ne = e := by
  obtain ⟨p, b, hp, hb, hend⟩ := h
  obtain ⟨s, hs, rfl⟩ := reaches_of_labelAt hp
  rw [question, Loop.run_of_reaches hs]
  have hturn := scanTurn_of_lt (Received.lt_len_of_getElem?_text hb)
  rw [Received.byte_of_getElem?_text hb] at hturn
  rcases hend with ⟨rfl, rfl⟩ | ⟨hptr, rfl⟩
  · rw [if_pos rfl] at hturn
    rw [Loop.run_of_done hturn]
  · have hzero : b ≠ 0 := by
      rintro rfl
      cases hptr
    rw [if_neg hzero, if_pos hptr] at hturn
    rw [Loop.run_of_done hturn]

private theorem NameEnds.unique {d : List UInt8} {e e' : Nat} (h : NameEnds d e)
    (h' : NameEnds d e') : e = e' := by
  have htext : Received.text ⟨d, d.length, Nat.le_refl _⟩ = d := List.take_length
  rw [← htext] at h h'
  rw [← question_of_nameEnds h, ← question_of_nameEnds h']

/-- What holds at each turn of the scan: it stands at a length byte and has read nothing outside. -/
structure Scanning (r : Received) (s : Scan) : Prop where
  label : LabelAt r.text s.ne
  reads : ∀ i ∈ s.reads, i < r.len

/-- What the scan leaves: the end of the name, or a place behind the datagram. -/
structure Scanned (r : Received) (s : Scan) : Prop where
  ends : NameEnds r.text s.ne ∨ r.len < s.ne
  reads : ∀ i ∈ s.reads, i < r.len

private theorem Scanning.reads_concat {r : Received} {s : Scan} (h : Scanning r s)
    (hlt : s.ne < r.len) : ∀ i ∈ s.reads ++ [s.ne], i < r.len :=
  List.forall_mem_append.mpr ⟨h.reads, List.forall_mem_singleton.mpr hlt⟩

private theorem Scanning.again {r : Received} {s s' : Scan} (h : Scanning r s)
    (hturn : scanTurn r s = .again s') : Scanning r s' := by
  obtain ⟨hlt, hzero, hptr, rfl⟩ := scanTurn_again hturn
  have hhop : Hop r.text s.ne (s.ne + (r.byte s.ne).toNat + 1) :=
    ⟨_, Received.getElem?_text hlt, hzero, hptr, rfl⟩
  exact ⟨h.label.tail hhop, h.reads_concat hlt⟩

private theorem Scanning.done {r : Received} {s s' : Scan} (h : Scanning r s)
    (hturn : scanTurn r s = .done s') : Scanned r s' := by
  by_cases hlt : s.ne < r.len
  · have hbyte := Received.getElem?_text hlt
    rw [scanTurn_of_lt hlt] at hturn
    split at hturn
    case isTrue hzero =>
      obtain rfl := Turn.done.inj hturn
      exact ⟨.inl ⟨s.ne, _, h.label, hbyte, .inl ⟨hzero, rfl⟩⟩, h.reads_concat hlt⟩
    case isFalse =>
      split at hturn
      case isTrue hptr =>
        obtain rfl := Turn.done.inj hturn
        exact ⟨.inl ⟨s.ne, _, h.label, hbyte, .inr ⟨hptr, rfl⟩⟩, h.reads_concat hlt⟩
      case isFalse => cases hturn
  · have hle := Nat.not_lt.mp hlt
    rw [scanTurn_of_le hle] at hturn
    obtain rfl := Turn.done.inj hturn
    exact ⟨.inr (Nat.lt_succ_of_le hle), h.reads⟩

private theorem scanned_question (r : Received) : Scanned r (question r) := by
  rw [question]
  apply Loop.run_induction (P := Scanning r)
  case hs => exact ⟨.refl, nofun⟩
  case hagain => exact fun s s' h => h.again
  case hdone => exact fun s s' h => h.done

/-! ### The reply -/

/-- `WIFI_AP_IP_STR` as `inet_addr` lays it out. -/
def apIp : List UInt8 := [4, 3, 2, 1]

/-- What is written to `resp`, in order and with the offsets, and the length that is sent. -/
structure Reply where
  stores : List (Nat × List UInt8)
  pos : Nat

namespace Reply

/-- The indices of `resp` that are written. -/
def writes (p : Reply) : List Nat := p.stores.flatMap fun s => List.range' s.1 s.2.length

def apply (p : Reply) (resp : List UInt8) : List UInt8 :=
  p.stores.foldl (fun resp s => store resp s.1 s.2) resp

/-- The message that `sendto` is given. -/
def message (p : Reply) (resp : List UInt8) : List UInt8 := (p.apply resp).take p.pos

end Reply

def replyHeader (r : Received) : List UInt8 := [r.byte 0, r.byte 1, 0x81, 0x80, 0, 1, 0, 1, 0, 0, 0, 0]

/-- The record: the name at offset 12, type A, class IN, a TTL of three seconds, an address. -/
def replyRecord : List UInt8 :=
  [0xC0, 0x0C, 0x00, 0x01, 0x00, 0x01, 0x00, 0x00, 0x00, 0x03, 0x00, 0x04] ++ apIp

/-- The reply to a datagram, where there is one, with the indices of `buf` that were read. -/
structure Handling where
  reads : List Nat
  reply : Option Reply

def handle (r : Received) : Handling :=
  let s := question r
  let qend := s.ne + 4
  if qend > r.len then ⟨s.reads, none⟩
  else
    let qlen := qend - 12
    let pos := 12 + qlen
    { reads := s.reads ++ [0, 1] ++ List.range' 12 qlen
      reply := some {
        stores := [(0, replyHeader r), (12, (r.buf.drop 12).take qlen), (pos, replyRecord)]
        pos := pos + 12 + 4 } }

def replyTo (r : Received) (e : Nat) : Reply where
  stores := [(0, replyHeader r), (12, (r.text.drop 12).take (e - 12)), (e, replyRecord)]
  pos := e + 16

section Reply

variable {r : Received} {e : Nat} {p : Reply}

private theorem handle_cases (r : Received) :
    (NameEnds r.text (question r).ne ∧ (question r).ne + 4 ≤ r.len ∧
      handle r =
        ⟨(question r).reads ++ [0, 1] ++ List.range' 12 ((question r).ne + 4 - 12),
          some (replyTo r ((question r).ne + 4))⟩) ∨
    (r.len < (question r).ne + 4 ∧ handle r = ⟨(question r).reads, none⟩) := by
  by_cases hlen : r.len < (question r).ne + 4
  · exact .inr ⟨hlen, if_pos hlen⟩
  · have hle := Nat.not_lt.mp hlen
    have hends : NameEnds r.text (question r).ne :=
      (scanned_question r).ends.resolve_right (by omega)
    have hlow := hends.lt
    have hpos : 12 + ((question r).ne + 4 - 12) = (question r).ne + 4 := by omega
    have hcopy := Received.take_drop_buf (show 12 + ((question r).ne + 4 - 12) ≤ r.len by omega)
    refine .inl ⟨hends, hle, ?_⟩
    simp only [handle, if_neg hlen, hpos, hcopy, replyTo]

/-- A reply is built exactly for a datagram in which a question is complete. -/
theorem reply_eq_some_iff :
    (handle r).reply = some p ↔ ∃ e, NameEnds r.text e ∧ e + 4 ≤ r.len ∧ p = replyTo r (e + 4) := by
  rcases handle_cases r with ⟨hends, hle, hhandle⟩ | ⟨hlt, hhandle⟩
  · rw [hhandle]
    constructor
    · intro h
      exact ⟨_, hends, hle, (Option.some.inj h).symm⟩
    · rintro ⟨e, he, -, rfl⟩
      rw [he.unique hends]
  · rw [hhandle]
    constructor
    · intro h
      cases h
    · rintro ⟨e, he, hle, -⟩
      rw [question_of_nameEnds he] at hlt
      omega

private theorem lt_len_of_mem_reads (r : Received) {i : Nat} (hi : i ∈ (handle r).reads) :
    i < r.len := by
  have hreads := (scanned_question r).reads
  rcases handle_cases r with ⟨hends, hle, hhandle⟩ | ⟨-, hhandle⟩
  · have hlow := hends.lt
    rw [hhandle] at hi
    simp only [List.mem_append, List.mem_cons, List.not_mem_nil, or_false, List.mem_range'_1] at hi
    rcases hi with (hi | hi) | hi
    · exact hreads i hi
    · omega
    · omega
  · rw [hhandle] at hi
    exact hreads i hi

private theorem mem_writes_replyTo {i : Nat} (hlow : 12 ≤ e) (hlen : e ≤ r.len) :
    i ∈ (replyTo r e).writes ↔ i < e + 16 := by
  have hcopy : ((r.text.drop 12).take (e - 12)).length = e - 12 := by
    rw [List.length_take, List.length_drop, r.length_text]
    omega
  simp only [Reply.writes, replyTo, List.flatMap_cons, List.flatMap_nil, List.mem_append,
    List.mem_range'_1, hcopy, List.append_nil, show (replyHeader r).length = 12 from rfl,
    show replyRecord.length = 16 from rfl]
  omega

/-- The three stores leave no gap, so nothing of an earlier reply is sent. -/
theorem message_replyTo (hlow : 12 ≤ e) (hlen : e ≤ r.len) (resp : List UInt8) :
    (replyTo r e).message resp =
      replyHeader r ++ (r.text.drop 12).take (e - 12) ++ replyRecord := by
  have hcopy : (replyHeader r ++ (r.text.drop 12).take (e - 12)).length = e := by
    rw [List.length_append, List.length_take, List.length_drop, r.length_text,
      show (replyHeader r).length = 12 from rfl]
    omega
  have hstores : (replyTo r e).apply resp =
      store resp 0 (replyHeader r ++ (r.text.drop 12).take (e - 12) ++ replyRecord) := by
    rw [← store_store (Nat.zero_le _), ← store_store (Nat.zero_le _), hcopy, Nat.zero_add,
      Nat.zero_add]
    rfl
  rw [Reply.message, hstores, store_zero]
  apply List.take_left'
  rw [List.length_append, hcopy]
  rfl

end Reply

/-! ### Questions with an uncompressed name -/

private theorem hop_of_label (pre rest : List UInt8) {label : List UInt8}
    (hlabel : 1 ≤ label.length ∧ label.length ≤ 191) :
    Hop (pre ++ encodeLabel label ++ rest) pre.length (pre.length + label.length + 1) := by
  have hbyte : (UInt8.ofNat label.length).toNat = label.length :=
    UInt8.toNat_ofNat_of_lt' (Nat.lt_of_le_of_lt hlabel.2 (by decide))
  refine ⟨UInt8.ofNat label.length, ?_, ?_, ?_, ?_⟩
  · rw [List.append_assoc, List.getElem?_append_right (Nat.le_refl _), Nat.sub_self]
    rfl
  · intro hzero
    rw [hzero] at hbyte
    exact absurd hbyte.symm (Nat.pos_iff_ne_zero.mp hlabel.1)
  · rw [Bool.eq_false_iff, Ne, isPointer_iff, hbyte]
    omega
  · rw [hbyte]

private theorem labelAt_of_labels {pre rest : List UInt8} {labels : List (List UInt8)}
    (hlabels : ∀ l ∈ labels, 1 ≤ l.length ∧ l.length ≤ 191)
    (hpre : LabelAt (pre ++ labels.flatMap encodeLabel ++ rest) pre.length) :
    LabelAt (pre ++ labels.flatMap encodeLabel ++ rest)
      (pre ++ labels.flatMap encodeLabel).length := by
  induction labels generalizing pre with
  | nil => simpa using hpre
  | cons label labels ih =>
    obtain ⟨hlabel, hrest⟩ := List.forall_mem_cons.mp hlabels
    have hsplit : pre ++ (label :: labels).flatMap encodeLabel =
        pre ++ encodeLabel label ++ labels.flatMap encodeLabel := by
      rw [List.flatMap_cons, List.append_assoc]
    rw [hsplit] at hpre ⊢
    have hlen : (pre ++ encodeLabel label).length = pre.length + label.length + 1 :=
      List.length_append
    refine ih hrest (hpre.tail ?_)
    rw [hlen, List.append_assoc (pre ++ encodeLabel label)]
    exact hop_of_label pre _ hlabel

private theorem nameEnds_of_labels (header : DnsHeader) (q : DnsQuestion) (rest : List UInt8)
    (hlabels : ∀ l ∈ q.labels, 1 ≤ l.length ∧ l.length ≤ 191) :
    NameEnds (header.encode ++ q.encode ++ rest) (12 + (encodeName q.labels).length) := by
  have hsplit : header.encode ++ q.encode ++ rest = header.encode ++ q.labels.flatMap encodeLabel ++
      (0 :: (be16 q.qtype ++ be16 q.qclass ++ rest)) := by
    simp only [DnsQuestion.encode, encodeName, List.append_assoc, List.cons_append, List.nil_append]
  rw [hsplit]
  refine ⟨(header.encode ++ q.labels.flatMap encodeLabel).length, 0, ?_, ?_, .inl ⟨rfl, ?_⟩⟩
  · apply labelAt_of_labels hlabels
    exact .refl
  · rw [List.getElem?_append_right (Nat.le_refl _), Nat.sub_self]
    rfl
  · rw [encodeName, List.length_append, List.length_append, header.length_encode]
    rfl

theorem hop_of_mem_labels (header : DnsHeader) (q : DnsQuestion) (rest : List UInt8)
    (hlabels : ∀ l ∈ q.labels, 1 ≤ l.length ∧ l.length ≤ 191) {before after : List (List UInt8)}
    {label : List UInt8} (hsplit : q.labels = before ++ label :: after) :
    LabelAt (header.encode ++ q.encode ++ rest) (12 + (before.flatMap encodeLabel).length) ∧
      Hop (header.encode ++ q.encode ++ rest) (12 + (before.flatMap encodeLabel).length)
        (12 + (before.flatMap encodeLabel).length + label.length + 1) := by
  have hd : header.encode ++ q.encode ++ rest = header.encode ++ before.flatMap encodeLabel ++
      (encodeLabel label ++ (encodeName after ++ be16 q.qtype ++ be16 q.qclass ++ rest)) := by
    simp only [DnsQuestion.encode, encodeName, hsplit, List.flatMap_append, List.flatMap_cons,
      List.append_assoc]
  have hlen : (header.encode ++ before.flatMap encodeLabel).length =
      12 + (before.flatMap encodeLabel).length := by
    rw [List.length_append, header.length_encode]
  rw [hsplit] at hlabels
  obtain ⟨hbefore, hrest⟩ := List.forall_mem_append.mp hlabels
  rw [hd, ← hlen]
  constructor
  · apply labelAt_of_labels hbefore
    exact .refl
  · rw [← List.append_assoc]
    exact hop_of_label _ _ (List.forall_mem_cons.mp hrest).1

theorem text_receive_of_le (buf : List UInt8) {d : List UInt8} (h : d.length ≤ bufSize - 1) :
    (receive buf d).text = d := by
  rw [text_receive, List.take_of_length_le h]

private theorem nameEnds_query (q : DnsQuery) :
    NameEnds q.encode (12 + (encodeName q.question.labels).length) := by
  apply nameEnds_of_labels
  intro l hl
  have hlen := q.label_length l hl
  omega

private theorem replyHeader_query {r : Received} {q : DnsQuery} (h : r.text = q.encode) :
    replyHeader r = DnsHeader.encode ⟨q.header.id, 0x8180, 1, 1, 0, 0⟩ := by
  have hfirst : r.byte 0 = UInt8.ofNat (q.header.id.toNat / 256) :=
    Received.byte_of_getElem?_text (by rw [h]; rfl)
  have hsecond : r.byte 1 = UInt8.ofNat (q.header.id.toNat % 256) :=
    Received.byte_of_getElem?_text (by rw [h]; rfl)
  have hcounts : be16 0x8180 ++ (be16 1 ++ (be16 1 ++ (be16 0 ++ be16 0))) =
      [0x81, 0x80, 0, 1, 0, 1, 0, 0, 0, 0] := by decide
  simp only [replyHeader, hfirst, hsecond, DnsHeader.encode, List.append_assoc, hcounts]
  rfl

private theorem replyRecord_eq :
    replyRecord = DnsRecord.encode ⟨dnsPointer 12, dnsTypeA, dnsClassIn, 3, [4, 3, 2, 1]⟩ := by
  decide

theorem exists_reply_query (buf resp : List UInt8) {q : DnsQuery}
    (hsize : q.encode.length ≤ bufSize - 1) :
    ∃ p, (handle (receive buf q.encode)).reply = some p ∧
      p.message resp = q.answer 0x8180 3 [4, 3, 2, 1] := by
  have htext := text_receive_of_le buf hsize
  have hlen := (receive buf q.encode).length_text
  rw [htext, q.length_encode] at hlen
  have hends := nameEnds_query q
  rw [← htext] at hends
  have hend : 12 + (encodeName q.question.labels).length + 4 ≤ (receive buf q.encode).len := by omega
  refine ⟨_, reply_eq_some_iff.mpr ⟨_, hends, hend, rfl⟩, ?_⟩
  have hquestion : (q.encode.drop 12).take (12 + (encodeName q.question.labels).length + 4 - 12) =
      q.question.encode := by
    rw [DnsQuery.encode, List.append_assoc, List.drop_left' q.header.length_encode]
    apply List.take_left'
    rw [q.question.length_encode]
    omega
  rw [message_replyTo (by omega) hend, htext, hquestion, replyHeader_query htext, replyRecord_eq]
  rfl

/-- The reply to a query is its question and an address, whatever follows the question, and
whatever the buffers held before. -/
theorem reply_answers_query (buf resp : List UInt8) (q : DnsQuery)
    (hsize : q.encode.length ≤ bufSize - 1) :
    ∃ p, (handle (receive buf q.encode)).reply = some p ∧
      (p.message resp).length ≤ bufSize ∧ p.message resp = q.answer 0x8180 3 [4, 3, 2, 1] := by
  obtain ⟨p, hreply, hmessage⟩ := exists_reply_query buf resp hsize
  refine ⟨p, hreply, ?_, hmessage⟩
  have hname := q.name_length
  rw [hmessage, q.length_answer, bufSize]
  simp only [List.length_cons, List.length_nil]
  omega

/-- A query for the addresses of `a.io`, with an EDNS record behind the question. -/
def sampleQuery : DnsQuery where
  header := ⟨0x1234, 0x0100, 1, 0, 0, 1⟩
  question := ⟨[[0x61], [0x69, 0x6F]], dnsTypeA, dnsClassIn⟩
  trailing := [0, 0, 41, 2, 0, 0, 0, 0, 0, 0, 0]
  label_length := by decide
  name_length := by decide

theorem reply_answers_sampleQuery :
    sampleQuery.encode.length ≤ bufSize - 1 ∧
    ∃ p, (handle (receive [] sampleQuery.encode)).reply = some p ∧
      (p.message []).length ≤ bufSize ∧ p.message [] = sampleQuery.answer 0x8180 3 [4, 3, 2, 1] :=
  ⟨by decide, reply_answers_query [] [] sampleQuery (by decide)⟩

/-- No complete question ends behind offset 496; the record needs sixteen bytes more. -/
def QuestionFits (d : List UInt8) : Prop := ∀ e, NameEnds d e → e + 4 ≤ d.length → e + 4 ≤ 496

theorem questionFits_query (q : DnsQuery) : QuestionFits q.encode := by
  intro e hends _
  have hname := q.name_length
  rw [hends.unique (nameEnds_query q)]
  omega

theorem writes_reply_iff (r : Received) :
    (∀ p ∈ (handle r).reply, ∀ i ∈ p.writes, i < bufSize) ↔ QuestionFits r.text := by
  rw [QuestionFits, r.length_text]
  constructor
  · intro hwrites e hends hend
    have hlow := hends.lt
    have hreply := reply_eq_some_iff.mpr ⟨e, hends, hend, rfl⟩
    have hlast : e + 19 ∈ (replyTo r (e + 4)).writes := by
      rw [mem_writes_replyTo (by omega) hend]
      omega
    have hlt := hwrites _ hreply _ hlast
    rw [bufSize] at hlt
    omega
  · intro hfits p hp i hi
    obtain ⟨e, hends, hend, rfl⟩ := reply_eq_some_iff.mp hp
    have hlow := hends.lt
    have hfit := hfits e hends hend
    rw [mem_writes_replyTo (by omega) hend] at hi
    rw [bufSize]
    omega

/-- Every access for a reply is inside the buffers exactly if the question leaves room for the
record. -/
theorem reply_in_bounds_iff (buf d : List UInt8) (hsize : d.length ≤ bufSize - 1) :
    ((∀ i ∈ (handle (receive buf d)).reads, i < d.length) ∧
      ∀ p ∈ (handle (receive buf d)).reply, ∀ i ∈ p.writes, i < bufSize) ↔
    QuestionFits d := by
  have htext := text_receive_of_le buf hsize
  have hlen := (receive buf d).length_text
  have hreads : ∀ i ∈ (handle (receive buf d)).reads, i < d.length := by
    intro i hi
    rw [← htext, hlen]
    exact lt_len_of_mem_reads _ hi
  rw [writes_reply_iff, htext, and_iff_right hreads]

theorem reply_in_bounds_iff_sampleQuery :
    sampleQuery.encode.length ≤ bufSize - 1 ∧
    (((∀ i ∈ (handle (receive [] sampleQuery.encode)).reads, i < sampleQuery.encode.length) ∧
      ∀ p ∈ (handle (receive [] sampleQuery.encode)).reply, ∀ i ∈ p.writes, i < bufSize) ↔
    QuestionFits sampleQuery.encode) :=
  ⟨by decide, reply_in_bounds_iff [] sampleQuery.encode (by decide)⟩

/-- A question of 485 bytes: eight labels, none longer than a label may be. -/
def longQuestion : DnsQuestion where
  labels := List.replicate 7 (List.replicate 63 0x61) ++ [List.replicate 31 0x61]
  qtype := dnsTypeA
  qclass := dnsClassIn

def longDatagram : List UInt8 :=
  DnsHeader.encode ⟨0x1234, 0x0100, 1, 0, 0, 0⟩ ++ longQuestion.encode ++ []

private theorem length_longDatagram : longDatagram.length = 497 := by
  have hname : (encodeName longQuestion.labels).length = 481 := by
    rw [length_encodeName]
    decide
  rw [longDatagram, List.append_nil, List.length_append, DnsHeader.length_encode,
    DnsQuestion.length_encode, hname]

private theorem nameEnds_longDatagram : NameEnds longDatagram 493 := by
  have hends := nameEnds_of_labels ⟨0x1234, 0x0100, 1, 0, 0, 0⟩ longQuestion [] (by decide)
  rw [length_encodeName] at hends
  exact hends

/-- The last byte of the address is written behind the buffer. -/
theorem long_question_overruns :
    12 ≤ longDatagram.length ∧ longDatagram.length ≤ bufSize - 1 ∧
    ¬((∀ i ∈ (handle (receive (List.replicate bufSize 0) longDatagram)).reads,
        i < longDatagram.length) ∧
      ∀ p ∈ (handle (receive (List.replicate bufSize 0) longDatagram)).reply,
        ∀ i ∈ p.writes, i < bufSize) := by
  have hlen := length_longDatagram
  have hsize : longDatagram.length ≤ bufSize - 1 := hlen ▸ Nat.le_of_ble_eq_true rfl
  refine ⟨by omega, hsize, ?_⟩
  rintro ⟨-, hwrites⟩
  have hfits := (writes_reply_iff _).mp hwrites
  rw [text_receive_of_le _ hsize] at hfits
  have hend := hfits 493 nameEnds_longDatagram (by omega)
  omega

end WirelessHub.Firmware.DnsTask

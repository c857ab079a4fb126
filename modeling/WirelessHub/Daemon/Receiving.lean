import WirelessHub.Daemon.TcpSocket

/-!
# Receiving a packet

What the two-stage reader makes of a receive script. A script carries the bytes of its data
results and perhaps a final close; where the reader returns a packet it has taken the first
bytes and left the rest, and the only other ways out are a close and an `EAGAIN` in front of
the first byte of a header or a payload.
-/

namespace WirelessHub

open Framework

def dataOf : List Recv → List UInt8
  | [] => []
  | .data b bs :: script => b :: bs ++ dataOf script
  | _ :: script => dataOf script

/-- The bytes of a script and whether a close ends it; a script with an error or with
something behind the close has no such reading. -/
def wire : List Recv → Option (List UInt8 × Bool)
  | [] => some ([], false)
  | .data b bs :: script => (wire script).map fun w => (b :: bs ++ w.1, w.2)
  | .eintr :: script => wire script
  | .eagain :: script => wire script
  | .eof :: script => if script.isEmpty then some ([], true) else none
  | .error :: _ => none

/-- The next call does not return `EAGAIN`. -/
def readyNow : List Recv → Bool
  | .eintr :: script => readyNow script
  | .eagain :: _ => false
  | _ => true

/-- The script after its next `n` bytes, for positive `n`. -/
def dropBytes : Nat → List Recv → List Recv
  | _, [] => []
  | n, .data b bs :: script =>
      if bs.length + 1 < n then dropBytes (n - (bs.length + 1)) script
      else leftover ((b :: bs).drop n) script
  | n, _ :: script => dropBytes n script

private theorem wire_leftover (bytes : List UInt8) (script : List Recv) :
    wire (leftover bytes script) = (wire script).map fun w => (bytes ++ w.1, w.2) := by
  cases bytes with
  | nil => cases hw : wire script <;> simp [leftover, hw]
  | cons b bs => rfl

private theorem leftover_append (bytes : List UInt8) (script later : List Recv) :
    leftover bytes script ++ later = leftover bytes (script ++ later) := by
  cases bytes <;> rfl

private theorem wire_data {b : UInt8} {bs data : List UInt8} {script : List Recv} {closed : Bool} :
    wire (.data b bs :: script) = some (data, closed) ↔
      ∃ tail, data = b :: bs ++ tail ∧ wire script = some (tail, closed) := by
  simp only [wire, Option.map_eq_some_iff, Prod.mk.injEq]
  constructor
  · rintro ⟨⟨tail, closed'⟩, hw, rfl, rfl⟩
    exact ⟨tail, rfl, hw⟩
  · rintro ⟨tail, rfl, hw⟩
    exact ⟨(tail, closed), hw, rfl, rfl⟩

private theorem wire_eof {data : List UInt8} {script : List Recv} {closed : Bool} :
    wire (.eof :: script) = some (data, closed) ↔ script = [] ∧ data = [] ∧ closed = true := by
  rw [wire, Option.ite_none_right_eq_some, List.isEmpty_iff, Option.some_inj, Prod.mk.injEq,
    eq_comm (a := data), eq_comm (a := closed)]

variable {need : Nat} {got bytes data : List UInt8} {rx rest later : List Recv} {closed : Bool}

private theorem recvExactly_full (h : recvExactly need got rx = (.full bytes, rest))
    (hw : wire (rx ++ later) = some (data, closed)) :
    rest = dropBytes need rx ∧ ∃ taken tail, bytes = got ++ taken ∧ taken.length = need ∧
      data = taken ++ tail ∧ wire (rest ++ later) = some (tail, closed) := by
  induction rx generalizing need got data with
  | nil => simp [recvExactly] at h
  | cons r rx ih =>
    cases r with
    | data b bs =>
      rw [List.cons_append, wire_data] at hw
      obtain ⟨data', rfl, hw'⟩ := hw
      simp only [recvExactly, dropBytes] at h ⊢
      split at h
      · rename_i hlt
        obtain ⟨hrest, taken, tail, rfl, hlen, hd', hwr⟩ := ih h hw'
        refine ⟨by rw [if_pos hlt, hrest], b :: bs ++ taken, tail, by simp, ?_, ?_, hwr⟩
        · simp only [List.cons_append, List.length_cons, List.length_append, hlen]
          omega
        · rw [hd', List.append_assoc]
      · rename_i hge
        simp only [Prod.mk.injEq, RecvExactly.full.injEq] at h
        obtain ⟨rfl, rfl⟩ := h
        refine ⟨by rw [if_neg hge], (b :: bs).take need, (b :: bs).drop need ++ data', rfl, ?_, ?_, ?_⟩
        · rw [List.length_take, List.length_cons]
          omega
        · rw [← List.append_assoc, List.take_append_drop]
        · rw [leftover_append, wire_leftover, hw']
          rfl
    | eof => simp [recvExactly] at h
    | eintr => exact ih h hw
    | error => simp [recvExactly] at h
    | eagain =>
      simp only [recvExactly] at h
      split at h
      · simp at h
      · exact ih h hw

private theorem recvExactly_closed (hpos : 0 < need) (h : recvExactly need got rx = (.closed, rest))
    (hw : wire (rx ++ later) = some (data, closed)) : data.length < need ∧ closed = true := by
  induction rx generalizing need got data with
  | nil => simp [recvExactly] at h
  | cons r rx ih =>
    cases r with
    | data b bs =>
      rw [List.cons_append, wire_data] at hw
      obtain ⟨data', rfl, hw'⟩ := hw
      simp only [recvExactly] at h
      split at h
      · rename_i hlt
        obtain ⟨hlen, hc⟩ := ih (by omega) h hw'
        refine ⟨?_, hc⟩
        rw [List.length_append, List.length_cons]
        omega
      · simp at h
    | eof =>
      rw [List.cons_append, wire_eof] at hw
      obtain ⟨-, rfl, rfl⟩ := hw
      exact ⟨hpos, rfl⟩
    | eintr => exact ih hpos h hw
    | error => simp [recvExactly] at h
    | eagain =>
      simp only [recvExactly] at h
      split at h
      · simp at h
      · exact ih hpos h hw

private theorem recvExactly_failed (h : recvExactly need got rx = (.failed, rest))
    (hw : wire (rx ++ later) = some (data, closed)) : got = [] ∧ readyNow rx = false := by
  induction rx generalizing need got data with
  | nil => simp [recvExactly] at h
  | cons r rx ih =>
    cases r with
    | data b bs =>
      rw [List.cons_append, wire_data] at hw
      obtain ⟨data', -, hw'⟩ := hw
      simp only [recvExactly] at h
      split at h
      · exact absurd (ih h hw').1 (by simp)
      · simp at h
    | eof => simp [recvExactly] at h
    | eintr => exact ih h hw
    | error => simp [wire] at hw
    | eagain =>
      simp only [recvExactly] at h
      split at h
      · exact ⟨by simpa using ‹got.isEmpty = true›, rfl⟩
      · rename_i hne
        exact absurd (ih h hw).1 (by simpa using hne)

private theorem recvExactly_waiting (hpos : 0 < need)
    (h : recvExactly need got rx = (.waiting, rest)) : (dataOf rx).length < need ∧ .eof ∉ rx := by
  induction rx generalizing need got with
  | nil => exact ⟨hpos, List.not_mem_nil⟩
  | cons r rx ih =>
    cases r with
    | data b bs =>
      simp only [recvExactly] at h
      split at h
      · rename_i hlt
        obtain ⟨hlen, heof⟩ := ih (by omega) h
        refine ⟨?_, by simpa using heof⟩
        rw [dataOf, List.length_append, List.length_cons]
        omega
      · simp at h
    | eof => simp [recvExactly] at h
    | eintr =>
      obtain ⟨hlen, heof⟩ := ih hpos h
      exact ⟨hlen, by simpa using heof⟩
    | error => simp [recvExactly] at h
    | eagain =>
      simp only [recvExactly] at h
      split at h
      · simp at h
      · obtain ⟨hlen, heof⟩ := ih hpos h
        exact ⟨hlen, by simpa using heof⟩

private theorem recvExactly_next {pre tail : List UInt8} (hpos : 0 < need)
    (hlen : pre.length = need)
    (hw : wire (rx ++ later) = some (pre ++ tail, closed)) (hready : readyNow rx = true)
    (hle : need ≤ (dataOf rx).length) :
    recvExactly need [] rx = (.full pre, dropBytes need rx) ∧
      wire (dropBytes need rx ++ later) = some (tail, closed) := by
  rcases hr : recvExactly need [] rx with ⟨bytes | _ | _ | _, rest⟩
  · obtain ⟨hrest, taken, tail', hbytes, hlen', hsplit, hwr⟩ := recvExactly_full hr hw
    obtain ⟨htaken, htail⟩ := List.append_inj hsplit (by rw [hlen, hlen'])
    rw [hbytes, List.nil_append, ← htaken, htail, ← hrest]
    exact ⟨rfl, hwr⟩
  · have hshort := (recvExactly_closed hpos hr hw).1
    rw [List.length_append] at hshort
    omega
  · rw [(recvExactly_failed hr hw).2] at hready
    exact absurd hready (by simp)
  · have hshort := (recvExactly_waiting hpos hr).1
    omega

private theorem dataOf_leftover (bytes : List UInt8) (script : List Recv) :
    dataOf (leftover bytes script) = bytes ++ dataOf script := by
  cases bytes <;> rfl

private theorem dataOf_dropBytes (hpos : 0 < need) (hle : need ≤ (dataOf rx).length) :
    dataOf (dropBytes need rx) = (dataOf rx).drop need := by
  induction rx generalizing need with
  | nil =>
    rw [dataOf, List.length_nil] at hle
    omega
  | cons r rx ih =>
    cases r with
    | data b bs =>
      rw [dataOf, List.length_append, List.length_cons] at hle
      rw [dropBytes, dataOf]
      by_cases hlt : bs.length + 1 < need
      · have hseg : (b :: bs).length ≤ need := by
          rw [List.length_cons]
          omega
        rw [if_pos hlt, ih (by omega) (by omega), List.drop_append, List.drop_of_length_le hseg,
          List.length_cons, List.nil_append]
      · have hseg : need ≤ (b :: bs).length := by
          rw [List.length_cons]
          omega
        rw [if_neg hlt, dataOf_leftover, List.drop_append_of_le_length hseg]
    | eintr | eagain | error | eof => exact ih hpos hle

/-- The reader takes the next packet off a script that carries packets once all of it has
arrived, unless an `EAGAIN` stands in front of the packet or of its payload. -/
theorem readPacket_next {p : Packet} {packets : List Packet}
    (hw : wire (rx ++ later) = some ((p :: packets).flatMap Frame.bytes, closed))
    (hready : readyNow rx = true)
    (hready' : p.header.payloadLen ≠ 0 → readyNow (dropBytes Header.size rx) = true)
    (hle : p.bytes.length ≤ (dataOf rx).length) :
    (readPacket rx).1 = .packet p.header p.payload ∧
      wire ((readPacket rx).2 ++ later) = some (packets.flatMap Frame.bytes, closed) := by
  have hdata : (p :: packets).flatMap Frame.bytes =
      p.header.encode ++ (p.payload ++ packets.flatMap Frame.bytes) := by
    rw [List.flatMap_cons, Frame.bytes, List.append_assoc]
    rfl
  have hplen : p.payload.length = p.header.payloadLen.toNat := p.payload_length
  have hhdr := p.header.decode_encode_self
  have hlen : p.bytes.length = Header.size + p.header.payloadLen.toNat := p.length_bytes
  have hle₁ : Header.size ≤ (dataOf rx).length := by omega
  rw [hdata] at hw
  obtain ⟨hr, hw'⟩ := recvExactly_next (by decide) p.header.length_encode hw hready hle₁
  by_cases hzero : p.header.payloadLen = 0
  · have hnil := Packet.payload_eq_nil hzero
    simp only [readPacket, hr, hhdr, readPayload, hzero, if_true, hnil]
    exact ⟨trivial, by simpa [hnil] using hw'⟩
  · have hpos := Header.payloadLen_pos hzero
    have hle₂ : p.header.payloadLen.toNat ≤ (dataOf (dropBytes Header.size rx)).length := by
      rw [dataOf_dropBytes (by decide) hle₁, List.length_drop]
      omega
    obtain ⟨hr', hw''⟩ := recvExactly_next hpos hplen hw' (hready' hzero) hle₂
    simp only [readPacket, hr, hhdr, readPayload, hzero, if_false, hr']
    exact ⟨trivial, hw''⟩

private theorem recvExactly_leftover {pre tail : List UInt8} (hpos : 0 < need)
    (hlen : pre.length = need) :
    recvExactly need [] (leftover (pre ++ tail) []) = (.full pre, leftover tail []) := by
  subst hlen
  cases pre with
  | nil => exact absurd hpos (by simp)
  | cons b bs => simp [leftover, recvExactly]

theorem readPacket_leftover (p : Packet) :
    readPacket (leftover p.bytes []) = (.packet p.header p.payload, []) := by
  have hplen : p.payload.length = p.header.payloadLen.toNat := p.payload_length
  have hhdr := p.header.decode_encode_self
  have hr : recvExactly Header.size [] (leftover p.bytes []) =
      (.full p.header.encode, leftover p.payload []) :=
    recvExactly_leftover (by decide) p.header.length_encode
  by_cases hzero : p.header.payloadLen = 0
  · have hnil := Packet.payload_eq_nil hzero
    simp only [readPacket, hr, hhdr, readPayload, hzero, if_true, hnil]
    rfl
  · have hpos := Header.payloadLen_pos hzero
    have hr' : recvExactly p.header.payloadLen.toNat [] (leftover p.payload []) =
        (.full p.payload, leftover [] []) := by
      rw [← recvExactly_leftover hpos hplen, List.append_nil]
    simp only [readPacket, hr, hhdr, readPayload, hzero, if_false, hr']
    rfl

theorem readPacket_done (hw : wire (rx ++ later) = some ([], closed)) (hready : readyNow rx = true)
    (heof : .eof ∈ rx) : (readPacket rx).1 = .failed ∧ closed = true := by
  rcases hr : recvExactly Header.size [] rx with ⟨_ | _ | _ | _, rest⟩
  · obtain ⟨-, taken, tail, -, hlen, hsplit, -⟩ := recvExactly_full hr hw
    rw [(List.append_eq_nil_iff.mp hsplit.symm).1] at hlen
    exact absurd hlen (by decide)
  · exact ⟨by simp [readPacket, hr], (recvExactly_closed (by decide) hr hw).2⟩
  · rw [(recvExactly_failed hr hw).2] at hready
    exact absurd hready (by simp)
  · exact absurd heof (recvExactly_waiting (by decide) hr).2

theorem wire_append (hw : wire (rx ++ later) = some (data, closed)) :
    ∃ tail, data = dataOf rx ++ tail := by
  induction rx generalizing data with
  | nil => exact ⟨data, rfl⟩
  | cons r rx ih =>
    cases r with
    | data b bs =>
      rw [List.cons_append, wire_data] at hw
      obtain ⟨data', rfl, hw'⟩ := hw
      obtain ⟨tail, rfl⟩ := ih hw'
      exact ⟨tail, by rw [dataOf, List.append_assoc]⟩
    | eintr => exact ih hw
    | eagain => exact ih hw
    | error => simp [wire] at hw
    | eof =>
      rw [List.cons_append, wire_eof, List.append_eq_nil_iff] at hw
      obtain ⟨⟨rfl, -⟩, rfl, -⟩ := hw
      exact ⟨[], rfl⟩

theorem wire_of_eof (hw : wire (rx ++ later) = some (data, closed)) (heof : .eof ∈ rx) :
    data = dataOf rx ∧ closed = true := by
  induction rx generalizing data with
  | nil => exact absurd heof List.not_mem_nil
  | cons r rx ih =>
    cases r with
    | data b bs =>
      rw [List.cons_append, wire_data] at hw
      obtain ⟨data', rfl, hw'⟩ := hw
      obtain ⟨rfl, hc⟩ := ih hw' (by simpa using heof)
      exact ⟨rfl, hc⟩
    | eintr => exact ih hw (by simpa using heof)
    | eagain => exact ih hw (by simpa using heof)
    | error => simp [wire] at hw
    | eof =>
      rw [List.cons_append, wire_eof, List.append_eq_nil_iff] at hw
      obtain ⟨⟨rfl, -⟩, rfl, rfl⟩ := hw
      exact ⟨rfl, rfl⟩

/-- The first packet of a byte string: a header and as many bytes behind it as it announces. -/
def nextPacket (b : List UInt8) : Header × List UInt8 :=
  (Header.decode b, (b.drop Header.size).take (Header.decode b).payloadLen.toNat)

theorem Header.decode_take (b : List UInt8) : Header.decode (b.take Header.size) = Header.decode b := by
  simp [Header.decode, Header.size, List.getD_eq_getElem?_getD]

section Stalling

def AllData (script : List Recv) : Prop := ∀ r ∈ script, ∃ b bs, r = .data b bs

variable {segs : List Recv}

theorem allData_cons {r : Recv} : AllData (r :: segs) ↔ (∃ b bs, r = .data b bs) ∧ AllData segs :=
  List.forall_mem_cons

private theorem allData_leftover (bytes : List UInt8) (h : AllData segs) :
    AllData (leftover bytes segs) := by
  cases bytes with
  | nil => exact h
  | cons b bs => exact allData_cons.mpr ⟨⟨b, bs, rfl⟩, h⟩

private theorem recvExactly_of_enough (h : AllData segs) (hle : need ≤ (dataOf segs).length)
    (hpos : 0 < need) (got : List UInt8) (tail : List Recv) :
    recvExactly need got (segs ++ tail) =
        (.full (got ++ (dataOf segs).take need), dropBytes need segs ++ tail) ∧
      AllData (dropBytes need segs) := by
  induction segs generalizing need got with
  | nil =>
    rw [dataOf, List.length_nil] at hle
    omega
  | cons r segs ih =>
    obtain ⟨⟨b, bs, rfl⟩, hrest⟩ := allData_cons.mp h
    have hlen : (dataOf (.data b bs :: segs)).length = bs.length + 1 + (dataOf segs).length := by
      simp [dataOf]
      omega
    rw [List.cons_append]
    simp only [recvExactly, dropBytes]
    by_cases hlt : bs.length + 1 < need
    · rw [if_pos hlt, if_pos hlt]
      have hle' : need - (bs.length + 1) ≤ (dataOf segs).length := by omega
      obtain ⟨hr, hall⟩ := ih hrest hle' (by omega) (got ++ b :: bs)
      have hseg : (b :: bs).length ≤ need := by
        rw [List.length_cons]
        omega
      refine ⟨?_, hall⟩
      rw [hr, dataOf, List.take_append, List.take_of_length_le hseg, List.length_cons,
        List.append_assoc]
    · rw [if_neg hlt, if_neg hlt]
      have hle' : need ≤ (b :: bs).length := by
        rw [List.length_cons]
        omega
      refine ⟨?_, allData_leftover _ hrest⟩
      rw [dataOf, List.take_append_of_le_length hle', leftover_append]

private theorem recvExactly_of_short (h : AllData segs) (hlt : (dataOf segs).length < need)
    (got : List UInt8) (tail : List Recv) :
    recvExactly need got (segs ++ tail) =
      recvExactly (need - (dataOf segs).length) (got ++ dataOf segs) tail := by
  induction segs generalizing need got with
  | nil => simp [dataOf]
  | cons r segs ih =>
    obtain ⟨⟨b, bs, rfl⟩, hrest⟩ := allData_cons.mp h
    have hlen : (dataOf (.data b bs :: segs)).length = bs.length + 1 + (dataOf segs).length := by
      simp [dataOf]
      omega
    rw [List.cons_append]
    simp only [recvExactly]
    rw [if_pos (by omega), ih hrest (by omega), hlen, dataOf, List.append_assoc, Nat.sub_sub]

private theorem recvExactly_eagain_of_ne_nil (hgot : got ≠ []) (k : Nat) :
    recvExactly need got (List.replicate k .eagain) = (.waiting, []) := by
  induction k with
  | zero => rfl
  | succ k ih =>
    rw [List.replicate_succ]
    simp only [recvExactly]
    rw [if_neg (by simpa using hgot), ih]

/-- The bytes hold a packet: a header and at least as many bytes behind it as it announces. -/
def HoldsPacket (b : List UInt8) : Prop :=
  Header.size + (Header.decode b).payloadLen.toNat ≤ b.length

instance (b : List UInt8) : Decidable (HoldsPacket b) := inferInstanceAs (Decidable (_ ≤ _))

/-- The bytes that have arrived end in front of a packet, right behind its header, or not
before its end. -/
def CutClean (b : List UInt8) : Prop := b = [] ∨ b.length = Header.size ∨ HoldsPacket b

private theorem readPacket_of_header (h : AllData segs) (hle : Header.size ≤ (dataOf segs).length) :
    ∃ segs', AllData segs' ∧ dataOf segs' = (dataOf segs).drop Header.size ∧
      ∀ tail, readPacket (segs ++ tail) =
        readPayload (Header.decode (dataOf segs)) (segs' ++ tail) := by
  obtain ⟨-, hall⟩ := recvExactly_of_enough h hle (by decide) [] []
  refine ⟨_, hall, dataOf_dropBytes (by decide) hle, fun tail => ?_⟩
  have hr := (recvExactly_of_enough h hle (by decide) [] tail).1
  simp only [readPacket, hr, List.nil_append, Header.decode_take]

theorem readPacket_of_holdsPacket (h : AllData segs) (hp : HoldsPacket (dataOf segs))
    (tail : List Recv) : (readPacket (segs ++ tail)).1 =
      .packet (nextPacket (dataOf segs)).1 (nextPacket (dataOf segs)).2 := by
  have hle : Header.size + (Header.decode (dataOf segs)).payloadLen.toNat ≤ (dataOf segs).length := hp
  obtain ⟨segs', hall, hdata, hread⟩ := readPacket_of_header h (by omega)
  have hlen : (dataOf segs').length = (dataOf segs).length - Header.size := by
    rw [hdata, List.length_drop]
  rw [hread, readPayload, nextPacket, ← hdata]
  split
  · rename_i hzero
    rw [hzero]
    rfl
  · rename_i hne
    have hr := (recvExactly_of_enough hall (by omega) (Header.payloadLen_pos hne) [] tail).1
    simp only [hr, List.nil_append]

theorem readPacket_of_cutClean (h : AllData segs) (hc : CutClean (dataOf segs))
    (hp : ¬HoldsPacket (dataOf segs)) : (readPacket (segs ++ [.eagain])).1 = .failed := by
  rcases hc with hnil | hc | hc
  · have hlt : (dataOf segs).length < Header.size := by
      rw [hnil]
      decide
    simp [readPacket, recvExactly_of_short h hlt, hnil, recvExactly]
  · obtain ⟨segs', hall, hdata, hread⟩ := readPacket_of_header h (Nat.le_of_eq hc.symm)
    have hnil : dataOf segs' = [] := by
      rw [hdata, ← hc, List.drop_length]
    have hne : (Header.decode (dataOf segs)).payloadLen ≠ 0 := by
      intro hzero
      exact hp (by rw [HoldsPacket, hzero, hc]; exact Nat.le_refl _)
    have hlt : (dataOf segs').length < (Header.decode (dataOf segs)).payloadLen.toNat := by
      rw [hnil]
      exact Header.payloadLen_pos hne
    rw [hread, readPayload, if_neg hne]
    simp [recvExactly_of_short hall hlt, hnil, recvExactly]
  · exact absurd hc hp

theorem readPacket_of_not_cutClean (h : AllData segs) (hc : ¬CutClean (dataOf segs)) (k : Nat) :
    (readPacket (segs ++ List.replicate k .eagain)).1 = .waiting := by
  simp only [CutClean, HoldsPacket, not_or, Nat.not_le] at hc
  obtain ⟨hne, hlen, hshort⟩ := hc
  by_cases hhdr : (dataOf segs).length < Header.size
  · have hr := recvExactly_of_short h hhdr [] (List.replicate k .eagain)
    rw [recvExactly_eagain_of_ne_nil (by simpa using hne)] at hr
    simp only [readPacket, hr]
  · have hle : Header.size ≤ (dataOf segs).length := Nat.not_lt.mp hhdr
    obtain ⟨segs', hall, hdata, hread⟩ := readPacket_of_header h hle
    have hlen' : (dataOf segs').length = (dataOf segs).length - Header.size := by
      rw [hdata, List.length_drop]
    have hpay : (Header.decode (dataOf segs)).payloadLen ≠ 0 := by
      intro h0
      rw [h0] at hshort
      have : (0 : UInt16).toNat = 0 := rfl
      omega
    have hne' : dataOf segs' ≠ [] := by
      rw [← List.length_pos_iff]
      omega
    rw [hread, readPayload, if_neg hpay, recvExactly_of_short hall (by omega),
      recvExactly_eagain_of_ne_nil (by simpa using hne')]

end Stalling

end WirelessHub

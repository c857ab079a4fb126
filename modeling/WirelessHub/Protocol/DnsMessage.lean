import WirelessHub.Protocol.Usbip

/-!
# DNS messages

A message is a header of twelve bytes, the questions and the records. A name is a row of
labels, each behind a byte with its length, closed by a zero byte; in place of a label a
pointer of two bytes may refer to a name further up in the message.
-/

namespace WirelessHub

def be16 (w : UInt16) : List UInt8 := [UInt8.ofNat (w.toNat / 256), UInt8.ofNat (w.toNat % 256)]

structure DnsHeader where
  id : UInt16
  flags : UInt16
  qdcount : UInt16
  ancount : UInt16
  nscount : UInt16
  arcount : UInt16
  deriving DecidableEq, Repr

def DnsHeader.encode (h : DnsHeader) : List UInt8 :=
  be16 h.id ++ be16 h.flags ++ be16 h.qdcount ++ be16 h.ancount ++ be16 h.nscount ++ be16 h.arcount

theorem DnsHeader.length_encode (h : DnsHeader) : h.encode.length = 12 := rfl

def encodeLabel (label : List UInt8) : List UInt8 := UInt8.ofNat label.length :: label

def encodeName (labels : List (List UInt8)) : List UInt8 := labels.flatMap encodeLabel ++ [0]

theorem length_encodeName (labels : List (List UInt8)) :
    (encodeName labels).length = labels.foldr (fun l n => l.length + 1 + n) 1 := by
  induction labels with
  | nil => rfl
  | cons l labels ih =>
    rw [List.foldr_cons, ← ih, encodeName, encodeName, List.flatMap_cons, List.append_assoc,
      List.length_append]
    rfl

structure DnsQuestion where
  labels : List (List UInt8)
  qtype : UInt16
  qclass : UInt16
  deriving DecidableEq, Repr

def DnsQuestion.encode (q : DnsQuestion) : List UInt8 :=
  encodeName q.labels ++ be16 q.qtype ++ be16 q.qclass

theorem DnsQuestion.length_encode (q : DnsQuestion) :
    q.encode.length = (encodeName q.labels).length + 4 := by
  rw [encode, List.length_append, List.length_append, Nat.add_assoc]
  rfl

/-- A resource record; the name is kept as it stands in the message. -/
structure DnsRecord where
  name : List UInt8
  rtype : UInt16
  rclass : UInt16
  ttl : UInt32
  rdata : List UInt8
  deriving DecidableEq, Repr

def DnsRecord.encode (r : DnsRecord) : List UInt8 :=
  r.name ++ be16 r.rtype ++ be16 r.rclass ++ be32 r.ttl ++
    be16 (UInt16.ofNat r.rdata.length) ++ r.rdata

/-- The name at an offset of the message. -/
def dnsPointer (offset : UInt16) : List UInt8 := be16 (0xC000 + offset)

def dnsTypeA : UInt16 := 1
def dnsClassIn : UInt16 := 1

/-- A query with one question, whose name is not compressed, and whatever follows it. -/
structure DnsQuery where
  header : DnsHeader
  question : DnsQuestion
  trailing : List UInt8
  label_length : ∀ l ∈ question.labels, 1 ≤ l.length ∧ l.length ≤ 63
  name_length : (encodeName question.labels).length ≤ 255

def DnsQuery.encode (q : DnsQuery) : List UInt8 :=
  q.header.encode ++ q.question.encode ++ q.trailing

theorem DnsQuery.length_encode (q : DnsQuery) :
    q.encode.length = 12 + ((encodeName q.question.labels).length + 4) + q.trailing.length := by
  rw [encode, List.length_append, List.length_append, q.header.length_encode,
    q.question.length_encode]

/-- The answer to a query: the question again, and an address for its name. -/
def DnsQuery.answer (q : DnsQuery) (flags : UInt16) (ttl : UInt32) (address : List UInt8) :
    List UInt8 :=
  DnsHeader.encode ⟨q.header.id, flags, 1, 1, 0, 0⟩ ++ q.question.encode ++
    DnsRecord.encode ⟨dnsPointer 12, dnsTypeA, dnsClassIn, ttl, address⟩

theorem DnsQuery.length_answer (q : DnsQuery) (flags : UInt16) (ttl : UInt32) (address : List UInt8) :
    (q.answer flags ttl address).length =
      12 + ((encodeName q.question.labels).length + 4) + (12 + address.length) := by
  have hrecord : (DnsRecord.encode ⟨dnsPointer 12, dnsTypeA, dnsClassIn, ttl, address⟩).length =
      12 + address.length := by
    rw [DnsRecord.encode, List.length_append]
    rfl
  rw [answer, List.length_append, List.length_append, DnsHeader.length_encode,
    q.question.length_encode, hrecord]

end WirelessHub

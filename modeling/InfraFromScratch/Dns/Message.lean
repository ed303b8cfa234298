import InfraFromScratch.Foundations.GoText
import InfraFromScratch.Foundations.Words

/-!
# DNS messages

The layout of a DNS message as both ends of a query rely on it: a header of twelve
bytes, then a question of a name, a type and a class. A name is a list of labels of
1 to 63 bytes; on the wire each label is preceded by its length, and the list is ended
by a zero byte.

On the wire a name ends where its own bytes say it ends: whatever follows, it can be
read back in one way only (`Name.wire_append_inj`).
-/

set_option autoImplicit false

namespace InfraFromScratch.Dns

open Foundations

/-! ## Names -/

/-- A label of 1 to 63 bytes. -/
structure Label where
  bytes : Bytes
  nonempty : 1 ≤ bytes.length
  short : bytes.length ≤ 63

/-- The labels of a name, the one next to the root last. -/
abbrev Name := List Label

/-- A label with its length in front. -/
def Label.wire (label : Label) : Bytes := .ofNat label.bytes.length :: label.bytes

/-- A name as it is sent. -/
def Name.wire (name : Name) : Bytes := name.flatMap Label.wire ++ [0]

@[simp] theorem Name.wire_nil : Name.wire [] = [0] := rfl

theorem Name.wire_cons (label : Label) (name : Name) :
    Name.wire (label :: name) = .ofNat label.bytes.length :: (label.bytes ++ Name.wire name) := by
  simp [Name.wire, Label.wire]

/-- The length byte of a label holds its length. -/
theorem Label.length_toNat (label : Label) :
    (UInt8.ofNat label.bytes.length).toNat = label.bytes.length := by
  have short := label.short
  exact UInt8.toNat_ofNat_of_lt' (Nat.lt_of_le_of_lt short (by decide))

theorem Label.ext_bytes {one other : Label} (same : one.bytes = other.bytes) : one = other := by
  cases one
  cases other
  cases same
  rfl

/-- **A name can be read in one way**, whatever follows it. -/
theorem Name.wire_append_inj {one other : Name} {rest otherRest : Bytes}
    (same : one.wire ++ rest = other.wire ++ otherRest) : one = other ∧ rest = otherRest := by
  induction one generalizing other with
  | nil =>
      cases other with
      | nil => exact ⟨rfl, List.cons.inj same |>.2⟩
      | cons label other =>
          rw [Name.wire_cons] at same
          have length := congrArg UInt8.toNat (List.cons.inj same).1
          rw [label.length_toNat] at length
          exact absurd length.symm (Nat.one_le_iff_ne_zero.mp label.nonempty)
  | cons label one ih =>
      cases other with
      | nil =>
          rw [Name.wire_cons] at same
          have length := congrArg UInt8.toNat (List.cons.inj same).1
          rw [label.length_toNat] at length
          exact absurd length (Nat.one_le_iff_ne_zero.mp label.nonempty)
      | cons otherLabel other =>
          rw [Name.wire_cons, Name.wire_cons, List.cons_append, List.cons_append] at same
          obtain ⟨lengths, bodies⟩ := List.cons.inj same
          have length := congrArg UInt8.toNat lengths
          rw [label.length_toNat, otherLabel.length_toNat] at length
          rw [List.append_assoc, List.append_assoc] at bodies
          obtain ⟨bytes, rests⟩ := List.append_inj bodies length
          obtain ⟨rfl, rfl⟩ := ih rests
          exact ⟨by rw [Label.ext_bytes bytes], rfl⟩

/-! ### Names up to case -/

/-- The label in lower case. -/
def Label.lower (label : Label) : Label where
  bytes := label.bytes.map asciiLower
  nonempty := by
    rw [List.length_map]
    exact label.nonempty
  short := by
    rw [List.length_map]
    exact label.short

/-- The labels in lower case. -/
def Name.lowered (name : Name) : List Bytes := name.map fun label => label.bytes.map asciiLower

/-- Length bytes have no case. -/
theorem Name.wire_lower (name : Name) :
    Name.wire (name.map Label.lower) = name.wire.map asciiLower := by
  induction name with
  | nil => rfl
  | cons label name ih =>
      have short := label.short
      have kept : asciiLower (.ofNat label.bytes.length) = .ofNat label.bytes.length := by
        refine if_neg ?_
        rw [label.length_toNat]
        omega
      rw [List.map_cons, Name.wire_cons, Name.wire_cons, ih, List.map_cons, kept, List.map_append,
        Label.lower]
      simp only [List.length_map]

/-- The bytes of two names agree up to case when their labels do. -/
theorem Name.wire_lower_eq_iff {name other : Name} :
    name.wire.map asciiLower = other.wire.map asciiLower ↔ name.lowered = other.lowered := by
  have lowered : ∀ some : Name, some.lowered = (some.map Label.lower).map Label.bytes := by
    intro some
    rw [Name.lowered, List.map_map]
    rfl
  have injective : Function.Injective Label.bytes := fun _ _ => Label.ext_bytes
  rw [← Name.wire_lower, ← Name.wire_lower, lowered, lowered, injective.list_map.eq_iff]
  constructor
  · intro same
    exact (Name.wire_append_inj (congrArg (· ++ []) same)).1
  · intro same
    rw [same]

/-! ## Headers and questions -/

/-- The byte at a position, if there is one, else zero. -/
def field (message : Bytes) (position : Nat) : UInt8 := message.getD position 0

/-- The two bytes of the transaction id. -/
def transactionId (message : Bytes) : Bytes := message.take 2

/-- The message is a response. -/
def QR (message : Bytes) : Prop := field message 2 &&& 0x80 ≠ 0

instance (message : Bytes) : Decidable (QR message) := inferInstanceAs (Decidable (_ ≠ _))

def opcode (message : Bytes) : UInt8 := (field message 2 >>> 3) &&& 0x0F

/-- The answer is authoritative. -/
def AA (message : Bytes) : Prop := field message 2 &&& 0x04 ≠ 0

/-- The bit that asks for recursion. -/
def RD (message : Bytes) : UInt8 := field message 2 &&& 0x01

def rcode (message : Bytes) : UInt8 := field message 3 &&& 0x0F

def qdcount (message : Bytes) : Nat := (word (field message 4) (field message 5)).toNat

def ancount (message : Bytes) : Nat := (word (field message 6) (field message 7)).toNat

/-- A name with a type and a class. -/
structure Question where
  name : Name
  typeHigh : UInt8
  typeLow : UInt8
  classHigh : UInt8
  classLow : UInt8

namespace Question

variable (question : Question)

def type : UInt16 := word question.typeHigh question.typeLow

def queryClass : UInt16 := word question.classHigh question.classLow

/-- A question as it is sent. -/
def wire : Bytes :=
  question.name.wire ++
    [question.typeHigh, question.typeLow, question.classHigh, question.classLow]

end Question

/-- The bytes after the header begin with the question. -/
def Asks (message : Bytes) (question : Question) : Prop :=
  ∃ rest, message.drop 12 = question.wire ++ rest

/-- A message asks one question at most. -/
theorem Asks.unique {message : Bytes} {one other : Question} (asks : Asks message one)
    (alsoAsks : Asks message other) : one = other := by
  obtain ⟨rest, here⟩ := asks
  obtain ⟨otherRest, there⟩ := alsoAsks
  have same := here.symm.trans there
  simp only [Question.wire, List.append_assoc] at same
  obtain ⟨names, tails⟩ := Name.wire_append_inj same
  simp only [List.cons_append, List.nil_append, List.cons.injEq] at tails
  obtain ⟨typeHigh, typeLow, classHigh, classLow, -⟩ := tails
  cases one
  cases other
  simp_all

end InfraFromScratch.Dns

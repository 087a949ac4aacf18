import LibraryLink.Lemmas.CppMessages

/-!
# Serialization and parsing in the C++ receiver

What the generated code serializes is what it parses back, and messages parsed one after the other from the same bytes are merged
as `MergeFrom` merges them. The size that `ByteSizeLong` announces is the one that is written. Fields that a message does not have
are passed over.
-/

namespace LibraryLink.Cpp.Messages

open Protobuf (Field WireReader Absorbs)

variable {w : WireReader}

/-- Serialized requests, one after the other, are parsed into a request as if each was merged into it, and so are serialized
responses. -/
theorem merge_serialized (hw : w.Lawful) :
    (∀ (ms : List Request) (m₀ : Request), (∀ m ∈ ms, m.Sound) →
      Request.mergePartialFromCodedStream w (ms.flatMap Request.serializeWithCachedSizes) m₀ =
        (.atEnd, ms.foldl Request.mergeFrom m₀)) ∧
    ∀ (ms : List ChannelResponse) (m₀ : ChannelResponse), (∀ m ∈ ms, m.Sound) →
      ChannelResponse.mergePartialFromCodedStream w (ms.flatMap ChannelResponse.serializeWithCachedSizes) m₀ =
        (.atEnd, ms.foldl ChannelResponse.mergeFrom m₀) := by
  constructor
  · intro ms m₀ h
    exact Protobuf.merge_flatMap hw (fun m hm => m.serialize_eq (h m hm).size) (fun m hm m₀ => (h m hm).absorbs hw m₀) m₀
  · intro ms m₀ h
    exact Protobuf.merge_flatMap hw (fun m hm => m.serialize_eq (h m hm).size) (fun m hm m₀ => (h m hm).absorbs hw m₀) m₀

/-- A request without strings, and an assigned id behind it. -/
theorem merge_serialized_standard :
    Request.mergePartialFromCodedStream .standard
        ([({ request := some (.eval true) } : Request), { assignedId := [0x37] }].flatMap Request.serializeWithCachedSizes) {} =
      (.atEnd, { request := some (.eval true), assignedId := [0x37] }) := by
  have hid : IsUtf8 [0x37] := ⟨"7", by decide⟩
  refine (merge_serialized WireReader.standard_lawful).1 _ {} ?_
  intro m hm
  rcases List.mem_pair.mp hm with rfl | rfl
  · refine ⟨⟨?_, isUtf8_nil⟩, by simp [Request.byteSizeLong, stringFieldSize, RequestCase.size]⟩
    rintro c ⟨⟩
    trivial
  · refine ⟨⟨?_, hid⟩, ?_⟩
    · rintro c ⟨⟩
    · simp [Request.byteSizeLong, stringFieldSize, lengthDelimitedSize, Protobuf.varint_of_lt]

/-- `SerializeToString` of a message that fits succeeds, writes as many bytes as `ByteSizeLong` counts, and these are parsed back to
the message. -/
theorem parse_serializeToString (hw : w.Lawful) :
    (∀ m : Request, m.Sound → m.serializeToString.1 = true ∧ m.serializeToString.2.length = m.byteSizeLong ∧
      Request.parseFromArray w m.serializeToString.2 = (true, m)) ∧
    ∀ m : ChannelResponse, m.Sound → m.serializeToString.1 = true ∧ m.serializeToString.2.length = m.byteSizeLong ∧
      ChannelResponse.parseFromArray w m.serializeToString.2 = (true, m) := by
  constructor
  · intro m h
    have hparse := (h.absorbs hw {}).merge hw
    rw [Request.mergeFrom_default, ← m.serialize_eq h.size] at hparse
    have hlength := m.length_fields h.size
    rw [← m.serialize_eq h.size] at hlength
    simp only [Request.serializeToString, serializeToString, if_pos h.size]
    refine ⟨trivial, hlength, ?_⟩
    simp only [Request.parseFromArray, parseFromArray, Request.mergePartialFromCodedStream, hparse, decide_true]
  · intro m h
    have hparse := (h.absorbs hw {}).merge hw
    rw [ChannelResponse.mergeFrom_default, ← m.serialize_eq h.size] at hparse
    have hlength := m.length_fields h.size
    rw [← m.serialize_eq h.size] at hlength
    simp only [ChannelResponse.serializeToString, serializeToString, if_pos h.size]
    refine ⟨trivial, hlength, ?_⟩
    simp only [ChannelResponse.parseFromArray, parseFromArray, ChannelResponse.mergePartialFromCodedStream, hparse, decide_true]

/-- The response to `strlen` of an array of three characters. -/
theorem parse_serializeToString_standard :
    ChannelResponse.parseFromArray .standard
        (ChannelResponse.serializeToString { result := some (.returnValue (.intValue 3)), assignedId := [0x31] }).2 =
      (true, { result := some (.returnValue (.intValue 3)), assignedId := [0x31] }) := by
  have hid : IsUtf8 [0x31] := ⟨"1", by decide⟩
  refine ((parse_serializeToString WireReader.standard_lawful).2 _ ⟨⟨?_, hid⟩, ?_⟩).2.2
  · rintro c ⟨⟩
    trivial
  · simp [ChannelResponse.byteSizeLong, stringFieldSize, lengthDelimitedSize, Result.size, Value.byteSizeLong, Protobuf.varint_of_lt]

/-- A request or a response written by a version with more fields, anywhere in it, is parsed to what it is without these, but for what
the parser keeps aside of them. -/
theorem parse_writtenAs (hw : w.Lawful) :
    (∀ (m : Request) (fields : List Field), m.Utf8 → m.WrittenAs w fields →
      Request.parseFromArray w (Protobuf.encode fields) = (true, m)) ∧
    ∀ (m : ChannelResponse) (fields : List Field), m.Utf8 → m.WrittenAs w fields →
      ChannelResponse.parseFromArray w (Protobuf.encode fields) = (true, m) := by
  constructor
  · intro m fields hutf8 h
    have hparse := (h.absorbs hw hutf8 {}).merge hw
    rw [Request.mergeFrom_default] at hparse
    simp only [Request.parseFromArray, parseFromArray, Request.mergePartialFromCodedStream, hparse, decide_true]
  · intro m fields hutf8 h
    have hparse := (h.absorbs hw hutf8 {}).merge hw
    rw [ChannelResponse.mergeFrom_default] at hparse
    simp only [ChannelResponse.parseFromArray, parseFromArray, ChannelResponse.mergePartialFromCodedStream, hparse, decide_true]

/-- A response whose value has a field 4 behind it, of 64 bits, and which has a field 9 itself, of 32 bits. -/
theorem parse_writtenAs_standard :
    ChannelResponse.parseFromArray .standard
        (Protobuf.encode [⟨1, .bytes (Protobuf.encode [⟨3, .fixed64 3⟩, ⟨4, .fixed64 5⟩])⟩, ⟨9, .fixed32 1⟩, ⟨7, .bytes [0x31]⟩]) =
      (true, { result := some (.returnValue (.intValue 3)), assignedId := [0x31] }) := by
  have hid : IsUtf8 [0x31] := ⟨"1", by decide⟩
  have hlength : (Protobuf.encode [⟨3, .fixed64 3⟩, ⟨4, .fixed64 5⟩]).length < 2 ^ 31 := by
    simp [length_encode_fixed64]
  refine (parse_writtenAs WireReader.standard_lawful).2 _ _ ⟨?_, hid⟩ ?_
  · rintro c ⟨⟩
    trivial
  · refine ⟨some (messageField 1 [⟨3, .fixed64 3⟩, ⟨4, .fixed64 5⟩]), .some (.returnValue ⟨?_, rfl⟩), ⟨?_, rfl⟩⟩
    · simp only [List.forall_mem_cons]
      exact ⟨⟨by decide, by decide, show 3 < 2 ^ 64 by decide⟩, ⟨by decide, by decide, show 5 < 2 ^ 64 by decide⟩,
        List.forall_mem_nil _⟩
    · simp only [List.forall_mem_cons]
      exact ⟨⟨by decide, by decide, hlength⟩, ⟨by decide, by decide, show 1 < 2 ^ 32 by decide⟩,
        ⟨by decide, by decide, show 1 < 2 ^ 31 by decide⟩, List.forall_mem_nil _⟩

end LibraryLink.Cpp.Messages

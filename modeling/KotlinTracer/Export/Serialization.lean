import KotlinTracer.Lib.WireFormat
import KotlinTracer.Utils.SuspensionPlot

set_option relaxedAutoImplicit false
set_option autoImplicit false

/-!
# The bytes of a written trace

`write_perfetto` serialises the packets with the generated code of the Perfetto messages
(`protos/perfetto/trace/*.pb.cc`). A message is written in two passes: `ByteSizeLong` computes its
size from constants and the sizes of its parts, and `_InternalSerialize` writes its fields in the
order of their numbers, with the sizes of the first pass as the lengths of the nested messages.

## Main definitions

* `KotlinTracer.TracePacket.byteSizeLong`, `KotlinTracer.TracePacket.internalSerialize`, and the
  same for the messages in a packet — the two passes, over a runtime.
* `KotlinTracer.traceFile` — the bytes of the file.
* `KotlinTracer.TracePacket.fields`, and the same for the messages in a packet — the fields that a
  message has in the wire format.
* `KotlinTracer.readTrace` — the packets in a sequence of bytes, as a reader of the wire format
  finds them.
* `KotlinTracer.TracePacket.Fits` — the numbers of a packet are values of their types.

## Main results

* `KotlinTracer.TracePacket.byteSizeLong_eq`, `KotlinTracer.TracePacket.internalSerialize_eq` — the
  two passes give the size and the bytes of the fields.
* `KotlinTracer.readTrace_traceFile` — the packets are read back from the file.

## Design

Of the generated code the fields that the writer sets are modelled; a field that is not set, unknown
fields and extensions contribute nothing to either pass. The functions of the protobuf library that
the generated code calls are a parameter, `WireFormat.Runtime`, and what is assumed of them is
`WireFormat.Runtime.Lawful`. The conversions to the types of the fields are those of the setters: an
`int64_t` becomes the `uint64_t` with the same bits. A reader takes the fields in any order, skips
those it does not know, and the last one counts.
-/

namespace KotlinTracer

open WireFormat

/-! ## Numbers and strings -/

/-- The value fits into `int64_t`. -/
def IsInt64 (v : ℤ) : Prop := -2 ^ 63 ≤ v ∧ v < 2 ^ 63

instance (v : ℤ) : Decidable (IsInt64 v) :=
  inferInstanceAs (Decidable (-2 ^ 63 ≤ v ∧ v < 2 ^ 63))

/-- An `int64_t` converted to `uint64_t`. -/
def int64Bits (v : ℤ) : UInt64 := (Int64.ofInt v).toUInt64

/-- A `uint64_t` converted to `int64_t`. -/
def ofInt64Bits (x : UInt64) : ℤ := x.toInt64.toInt

lemma ofInt64Bits_int64Bits {v : ℤ} (h : IsInt64 v) : ofInt64Bits (int64Bits v) = v := by
  have hbits : (Int64.ofInt v).toUInt64.toInt64 = Int64.ofInt v := rfl
  rw [ofInt64Bits, int64Bits, hbits]
  exact Int64.toInt_ofInt_of_le h.1 h.2

/-- The string that bytes are. -/
def readString (b : List UInt8) : Option String := String.fromUTF8? ⟨b.toArray⟩

lemma readString_stringBytes (s : String) : readString (stringBytes s) = some s := by
  have hbytes : (⟨(stringBytes s).toArray⟩ : ByteArray) = s.toByteArray := by
    rw [stringBytes, Array.toArray_toList]
  rw [readString, hbytes, String.fromUTF8?, dif_pos s.isValidUTF8]
  rfl

/-! ## The two passes -/

section TwoPasses

variable (rt : Runtime)

/-- `DebugAnnotation::ByteSizeLong`. -/
def DebugEntry.byteSizeLong (entry : DebugEntry) : ℕ :=
  (1 + rt.stringSize entry.name) +
    match entry.intValue with
    | some value => rt.int64SizePlusOne (Int64.ofInt value)
    | none => 0

/-- `DebugAnnotation::_InternalSerialize`. -/
def DebugEntry.internalSerialize (entry : DebugEntry) : List UInt8 :=
  (match entry.intValue with
    | some value => rt.writeInt64 4 (Int64.ofInt value)
    | none => []) ++
  rt.writeString 10 entry.name

/-- `TrackEvent_Callstack_Frame::ByteSizeLong`, for a frame with a function name. -/
def frameByteSizeLong (functionName : String) : ℕ := 1 + rt.stringSize functionName

/-- `TrackEvent_Callstack_Frame::_InternalSerialize`. -/
def serializeFrame (functionName : String) : List UInt8 := rt.writeString 1 functionName

/-- `TrackEvent_Callstack::ByteSizeLong`. -/
def callstackByteSizeLong (frames : List String) : ℕ :=
  1 * frames.length + (frames.map fun frame => rt.messageSize (frameByteSizeLong rt frame)).sum

/-- `TrackEvent_Callstack::_InternalSerialize`. -/
def serializeCallstack (frames : List String) : List UInt8 :=
  frames.flatMap fun frame =>
    rt.writeMessage 1 (frameByteSizeLong rt frame) (serializeFrame rt frame)

/-- `TrackDescriptor::ByteSizeLong`. -/
def TrackDescriptor.byteSizeLong (descriptor : TrackDescriptor) : ℕ :=
  rt.uint64SizePlusOne (UInt64.ofNat descriptor.uuid) + (1 + rt.stringSize descriptor.name)

/-- `TrackDescriptor::_InternalSerialize`. -/
def TrackDescriptor.internalSerialize (descriptor : TrackDescriptor) : List UInt8 :=
  rt.writeUInt64 1 (UInt64.ofNat descriptor.uuid) ++ rt.writeString 2 descriptor.name

/-- The numbers of `TrackEvent_Type`. -/
def TrackEventType.number : TrackEventType → Int32
  | sliceBegin => 1
  | sliceEnd => 2
  | instant => 3

/-- `TrackEvent::ByteSizeLong`. -/
def TrackEvent.byteSizeLong (event : TrackEvent) : ℕ :=
  (1 * event.debugAnnotations.length +
    (event.debugAnnotations.map fun entry => rt.messageSize (entry.byteSizeLong rt)).sum) +
  rt.uint64SizePlusOne (UInt64.ofNat event.trackUuid) +
  (1 + rt.enumSize event.type.number) +
  (2 * event.flowIds.length + 8 * event.flowIds.length) +
  (match event.name with
    | some name => 2 + rt.stringSize name
    | none => 0) +
  match event.callstack with
    | some frames => 2 + rt.messageSize (callstackByteSizeLong rt frames)
    | none => 0

/-- `TrackEvent::_InternalSerialize`. -/
def TrackEvent.internalSerialize (event : TrackEvent) : List UInt8 :=
  (event.debugAnnotations.flatMap fun entry =>
    rt.writeMessage 4 (entry.byteSizeLong rt) (entry.internalSerialize rt)) ++
  rt.writeEnum 9 event.type.number ++
  rt.writeUInt64 11 (UInt64.ofNat event.trackUuid) ++
  (match event.name with
    | some name => rt.writeString 23 name
    | none => []) ++
  (event.flowIds.flatMap fun flowId => rt.writeFixed64 47 (int64Bits flowId)) ++
  match event.callstack with
    | some frames =>
      rt.writeMessage 55 (callstackByteSizeLong rt frames) (serializeCallstack rt frames)
    | none => []

/-- `TracePacket::ByteSizeLong`. -/
def TracePacket.byteSizeLong (packet : TracePacket) : ℕ :=
  (match packet.timestamp with
    | some timestamp => rt.uint64SizePlusOne (int64Bits timestamp)
    | none => 0) +
  (match packet.data with
    | .trackEvent event => 1 + rt.messageSize (event.byteSizeLong rt)
    | .trackDescriptor descriptor => 2 + rt.messageSize (descriptor.byteSizeLong rt)) +
  match packet.trustedPacketSequenceId with
    | some sequenceId => rt.uint32SizePlusOne (UInt32.ofNat sequenceId)
    | none => 0

/-- `TracePacket::_InternalSerialize`. -/
def TracePacket.internalSerialize (packet : TracePacket) : List UInt8 :=
  (match packet.timestamp with
    | some timestamp => rt.writeUInt64 8 (int64Bits timestamp)
    | none => []) ++
  (match packet.trustedPacketSequenceId with
    | some sequenceId => rt.writeUInt32 10 (UInt32.ofNat sequenceId)
    | none => []) ++
  match packet.data with
    | .trackEvent event => rt.writeMessage 11 (event.byteSizeLong rt) (event.internalSerialize rt)
    | .trackDescriptor descriptor =>
      rt.writeMessage 60 (descriptor.byteSizeLong rt) (descriptor.internalSerialize rt)

/-- `Trace::ByteSizeLong`. -/
def traceByteSizeLong (packets : List TracePacket) : ℕ :=
  1 * packets.length + (packets.map fun packet => rt.messageSize (packet.byteSizeLong rt)).sum

/-- `Trace::_InternalSerialize`. -/
def serializeTrace (packets : List TracePacket) : List UInt8 :=
  packets.flatMap fun packet =>
    rt.writeMessage 1 (packet.byteSizeLong rt) (packet.internalSerialize rt)

/-- The file after `trace.SerializeToOstream(&output)`, the last call of `write_perfetto`. -/
def traceFile (packets : List TracePacket) : Option (List UInt8) :=
  rt.serializeToOstream (traceByteSizeLong rt packets) (serializeTrace rt packets)

end TwoPasses

/-! ## Messages as fields -/

/-- The fields of a debug annotation. -/
def DebugEntry.fields (entry : DebugEntry) : List Field :=
  entry.intValue.toList.map (fun value => ⟨4, .varint (int64Bits value)⟩) ++
    [⟨10, .bytes (stringBytes entry.name)⟩]

/-- The fields of a frame. -/
def frameFields (functionName : String) : List Field := [⟨1, .bytes (stringBytes functionName)⟩]

/-- The fields of a call stack. -/
def callstackFields (frames : List String) : List Field :=
  frames.map fun frame => ⟨1, .bytes (encode (frameFields frame))⟩

/-- The fields of a track descriptor. -/
def TrackDescriptor.fields (descriptor : TrackDescriptor) : List Field :=
  [⟨1, .varint (UInt64.ofNat descriptor.uuid)⟩, ⟨2, .bytes (stringBytes descriptor.name)⟩]

/-- The fields of a track event. -/
def TrackEvent.fields (event : TrackEvent) : List Field :=
  event.debugAnnotations.map (fun entry => ⟨4, .bytes (encode entry.fields)⟩) ++
  [⟨9, .varint event.type.number.toInt64.toUInt64⟩,
    ⟨11, .varint (UInt64.ofNat event.trackUuid)⟩] ++
  event.name.toList.map (fun name => ⟨23, .bytes (stringBytes name)⟩) ++
  event.flowIds.map (fun flowId => ⟨47, .fixed64 (int64Bits flowId)⟩) ++
  event.callstack.toList.map (fun frames => ⟨55, .bytes (encode (callstackFields frames))⟩)

/-- The field with the data of a packet. -/
def PacketData.field : PacketData → Field
  | trackEvent event => ⟨11, .bytes (encode event.fields)⟩
  | trackDescriptor descriptor => ⟨60, .bytes (encode descriptor.fields)⟩

/-- The fields of a packet. -/
def TracePacket.fields (packet : TracePacket) : List Field :=
  packet.timestamp.toList.map (fun timestamp => ⟨8, .varint (int64Bits timestamp)⟩) ++
  packet.trustedPacketSequenceId.toList.map
    (fun sequenceId => ⟨10, .varint (UInt32.ofNat sequenceId).toUInt64⟩) ++
  [packet.data.field]

/-- The fields of a trace. -/
def traceFields (packets : List TracePacket) : List Field :=
  packets.map fun packet => ⟨1, .bytes (encode packet.fields)⟩

/-! ## The two passes give the fields -/

section Lawful

variable {rt : Runtime} (hrt : rt.Lawful)

include hrt

/-- A nested message is written as its field, when its size is right. -/
lemma writeMessage_eq {number size : ℕ} {message : List UInt8} (h : size = message.length) :
    rt.writeMessage number size message = Field.encode ⟨number, .bytes message⟩ := by
  rw [h, hrt.writeMessage]

/-- The size of a string or of a message with a tag of one byte. -/
lemma length_bytes_one {number : ℕ} (h : number < 16) (b : List UInt8) :
    (Field.encode ⟨number, .bytes b⟩).length = 1 + rt.messageSize b.length := by
  rw [length_encode_bytes, length_tag_one h (by omega), hrt.messageSize]

/-- The size of a string or of a message with a tag of two bytes. -/
lemma length_bytes_two {number : ℕ} (h : 16 ≤ number) (h' : number < 2048) (b : List UInt8) :
    (Field.encode ⟨number, .bytes b⟩).length = 2 + rt.messageSize b.length := by
  rw [length_encode_bytes, length_tag_two h h' (by omega), hrt.messageSize]

/-- The size of a string is that of a message with its bytes. -/
lemma stringSize_eq (s : String) : rt.stringSize s = rt.messageSize (stringBytes s).length := by
  rw [hrt.stringSize, hrt.messageSize]

/-- The size of a repeated message, from the sizes of its values. -/
lemma length_encode_map {α : Type} {number : ℕ} {size : α → ℕ} {bytes : α → List UInt8}
    (hnumber : number < 16) (h : ∀ a, size a = (bytes a).length) (l : List α) :
    1 * l.length + (l.map fun a => rt.messageSize (size a)).sum =
      (encode (l.map fun a => ⟨number, .bytes (bytes a)⟩)).length := by
  induction l with
  | nil => rfl
  | cons a l ih =>
    rw [List.map_cons, List.map_cons, encode_cons, List.length_append, ← ih,
      length_bytes_one hrt hnumber, List.length_cons, List.sum_cons, h]
    omega

/-- A repeated message is written as its fields. -/
lemma flatMap_writeMessage_eq {α : Type} {number : ℕ} {size : α → ℕ} {bytes : α → List UInt8}
    {message : α → List UInt8} (h : ∀ a, size a = (bytes a).length)
    (hmessage : ∀ a, message a = bytes a) (l : List α) :
    (l.flatMap fun a => rt.writeMessage number (size a) (message a)) =
      encode (l.map fun a => ⟨number, .bytes (bytes a)⟩) := by
  rw [encode, List.flatMap_map]
  refine List.flatMap_congr fun a _ => ?_
  rw [hmessage]
  exact writeMessage_eq hrt (h a)

lemma DebugEntry.byteSizeLong_eq (entry : DebugEntry) :
    entry.byteSizeLong rt = (encode entry.fields).length := by
  rw [byteSizeLong, fields, encode_append, List.length_append, encode_cons, encode_nil,
    List.append_nil, length_bytes_one hrt (by omega), stringSize_eq hrt]
  cases entry.intValue with
  | none => exact (Nat.zero_add _).symm
  | some value =>
    simp only [Option.toList_some, List.map_cons, List.map_nil, encode_cons, encode_nil,
      List.append_nil, length_encode_varint, length_tag_one (by omega : 4 < 16) (by omega : 0 < 8),
      hrt.int64SizePlusOne, int64Bits]
    omega

lemma DebugEntry.internalSerialize_eq (entry : DebugEntry) :
    entry.internalSerialize rt = encode entry.fields := by
  rw [internalSerialize, fields, hrt.writeString]
  cases entry.intValue <;> simp [hrt.writeInt64, int64Bits]

lemma frameByteSizeLong_eq (functionName : String) :
    frameByteSizeLong rt functionName = (encode (frameFields functionName)).length := by
  rw [frameByteSizeLong, frameFields, encode_cons, encode_nil, List.append_nil,
    length_bytes_one hrt (by omega), stringSize_eq hrt]

lemma serializeFrame_eq (functionName : String) :
    serializeFrame rt functionName = encode (frameFields functionName) := by
  rw [serializeFrame, frameFields, hrt.writeString, encode_cons, encode_nil, List.append_nil]

lemma callstackByteSizeLong_eq (frames : List String) :
    callstackByteSizeLong rt frames = (encode (callstackFields frames)).length :=
  length_encode_map hrt (by omega) (frameByteSizeLong_eq hrt) frames

lemma serializeCallstack_eq (frames : List String) :
    serializeCallstack rt frames = encode (callstackFields frames) :=
  flatMap_writeMessage_eq hrt (frameByteSizeLong_eq hrt) (serializeFrame_eq hrt) frames

lemma TrackDescriptor.byteSizeLong_eq (descriptor : TrackDescriptor) :
    descriptor.byteSizeLong rt = (encode descriptor.fields).length := by
  rw [byteSizeLong, fields, encode_cons, encode_cons, encode_nil, List.append_nil,
    List.length_append, length_bytes_one hrt (by omega), length_encode_varint,
    length_tag_one (by omega) (by omega), stringSize_eq hrt, hrt.uint64SizePlusOne,
    Nat.add_comm (varint _).length]

lemma TrackDescriptor.internalSerialize_eq (descriptor : TrackDescriptor) :
    descriptor.internalSerialize rt = encode descriptor.fields := by
  rw [internalSerialize, fields, hrt.writeString, hrt.writeUInt64, encode_cons, encode_cons,
    encode_nil, List.append_nil]

lemma TrackEvent.byteSizeLong_eq (event : TrackEvent) :
    event.byteSizeLong rt = (encode event.fields).length := by
  have hannotations := length_encode_map hrt (by omega : 4 < 16) (DebugEntry.byteSizeLong_eq hrt)
    event.debugAnnotations
  have hflows : (encode (event.flowIds.map fun flowId =>
      ⟨47, .fixed64 (int64Bits flowId)⟩)).length =
        2 * event.flowIds.length + 8 * event.flowIds.length := by
    induction event.flowIds with
    | nil => rfl
    | cons flowId flowIds ih =>
      rw [List.map_cons, encode_cons, List.length_append, ih, length_encode_fixed64,
        length_tag_two (by omega) (by omega) (by omega), List.length_cons]
      omega
  have hvarint : ∀ number x, number < 16 →
      (Field.encode ⟨number, .varint x⟩).length = (varint x.toNat).length + 1 := by
    intro number x hnumber
    rw [length_encode_varint, length_tag_one hnumber (by omega), Nat.add_comm]
  rw [byteSizeLong, fields, hannotations]
  simp only [encode_append, encode_cons, encode_nil, List.append_nil, List.length_append, hflows,
    hvarint _ _ (by omega : 9 < 16), hvarint _ _ (by omega : 11 < 16), hrt.uint64SizePlusOne,
    hrt.enumSize]
  cases event.name <;> cases event.callstack <;>
    simp only [Option.toList_none, Option.toList_some, List.map_nil, List.map_cons, encode_nil,
      encode_cons, List.append_nil, List.length_nil,
      length_bytes_two hrt (by omega : 16 ≤ 23) (by omega : 23 < 2048),
      length_bytes_two hrt (by omega : 16 ≤ 55) (by omega : 55 < 2048), stringSize_eq hrt,
      callstackByteSizeLong_eq hrt] <;>
    omega

lemma TrackEvent.internalSerialize_eq (event : TrackEvent) :
    event.internalSerialize rt = encode event.fields := by
  have hflows : (event.flowIds.flatMap fun flowId => rt.writeFixed64 47 (int64Bits flowId)) =
      encode (event.flowIds.map fun flowId => ⟨47, .fixed64 (int64Bits flowId)⟩) := by
    rw [encode, List.flatMap_map]
    exact List.flatMap_congr fun flowId _ => hrt.writeFixed64 47 _
  rw [internalSerialize, fields, hflows, flatMap_writeMessage_eq hrt
    (DebugEntry.byteSizeLong_eq hrt) (DebugEntry.internalSerialize_eq hrt), hrt.writeEnum,
    hrt.writeUInt64]
  cases event.name <;> cases event.callstack <;>
    simp [hrt.writeString, serializeCallstack_eq hrt,
      writeMessage_eq hrt (callstackByteSizeLong_eq hrt _)]

/-- **The first pass computes the number of bytes of the fields.** -/
lemma TracePacket.byteSizeLong_eq (packet : TracePacket) :
    packet.byteSizeLong rt = (encode packet.fields).length := by
  have hdata : (match packet.data with
      | .trackEvent event => 1 + rt.messageSize (event.byteSizeLong rt)
      | .trackDescriptor descriptor => 2 + rt.messageSize (descriptor.byteSizeLong rt)) =
      packet.data.field.encode.length := by
    cases packet.data with
    | trackEvent event =>
      dsimp only [PacketData.field]
      rw [length_bytes_one hrt (by omega), event.byteSizeLong_eq hrt]
    | trackDescriptor descriptor =>
      dsimp only [PacketData.field]
      rw [length_bytes_two hrt (by omega) (by omega), descriptor.byteSizeLong_eq hrt]
  have hvarint : ∀ number x, number < 16 →
      (Field.encode ⟨number, .varint x⟩).length = (varint x.toNat).length + 1 := by
    intro number x hnumber
    rw [length_encode_varint, length_tag_one hnumber (by omega), Nat.add_comm]
  rw [byteSizeLong, fields, hdata]
  cases packet.timestamp <;> cases packet.trustedPacketSequenceId <;>
    simp only [Option.toList_none, Option.toList_some, List.map_nil, List.map_cons, encode_append,
      encode_nil, encode_cons, List.append_nil, List.nil_append, List.length_append,
      hvarint _ _ (by omega : 8 < 16), hvarint _ _ (by omega : 10 < 16), hrt.uint64SizePlusOne,
      hrt.uint32SizePlusOne] <;>
    omega

/-- **The second pass writes the bytes of the fields.** -/
lemma TracePacket.internalSerialize_eq (packet : TracePacket) :
    packet.internalSerialize rt = encode packet.fields := by
  have hdata : (match packet.data with
      | .trackEvent event =>
        rt.writeMessage 11 (event.byteSizeLong rt) (event.internalSerialize rt)
      | .trackDescriptor descriptor =>
        rt.writeMessage 60 (descriptor.byteSizeLong rt) (descriptor.internalSerialize rt)) =
      packet.data.field.encode := by
    cases packet.data with
    | trackEvent event =>
      dsimp only
      rw [event.internalSerialize_eq hrt, writeMessage_eq hrt (event.byteSizeLong_eq hrt)]
      rfl
    | trackDescriptor descriptor =>
      dsimp only
      rw [descriptor.internalSerialize_eq hrt, writeMessage_eq hrt (descriptor.byteSizeLong_eq hrt)]
      rfl
  rw [internalSerialize, fields, hdata]
  cases packet.timestamp <;> cases packet.trustedPacketSequenceId <;>
    simp [hrt.writeUInt64, hrt.writeUInt32]

lemma traceByteSizeLong_eq (packets : List TracePacket) :
    traceByteSizeLong rt packets = (encode (traceFields packets)).length :=
  length_encode_map hrt (by omega) (TracePacket.byteSizeLong_eq hrt) packets

lemma serializeTrace_eq (packets : List TracePacket) :
    serializeTrace rt packets = encode (traceFields packets) :=
  flatMap_writeMessage_eq hrt (TracePacket.byteSizeLong_eq hrt)
    (TracePacket.internalSerialize_eq hrt) packets

/-- **The file holds the fields of the trace**, if it is written. -/
lemma eq_of_traceFile {packets : List TracePacket} {bytes : List UInt8}
    (h : traceFile rt packets = some bytes) :
    bytes = encode (traceFields packets) ∧ bytes.length < 2 ^ 31 := by
  have hlimit := hrt.sizeLimit _ _ _ h
  rw [traceFile, traceByteSizeLong_eq hrt, serializeTrace_eq hrt] at h
  rw [traceByteSizeLong_eq hrt] at hlimit
  rw [hrt.serializeToOstream _ _ h]
  exact ⟨rfl, hlimit⟩

end Lawful

/-! ## The reader -/

/-- Read a debug annotation. -/
def DebugEntry.ofBytes (b : List UInt8) : Option DebugEntry :=
  (parse b).bind fun fields =>
    ((last Value.bytes? 10 fields).bind readString).map fun name =>
      { name := name, intValue := (last Value.varint? 4 fields).map ofInt64Bits }

/-- Read a frame. -/
def readFrame (b : List UInt8) : Option String :=
  (parse b).bind fun fields => (last Value.bytes? 1 fields).bind readString

/-- Read a call stack. -/
def readCallstack (b : List UInt8) : Option (List String) :=
  (parse b).bind fun fields => readAll readFrame (select Value.bytes? 1 fields)

/-- Read a track descriptor. -/
def TrackDescriptor.ofBytes (b : List UInt8) : Option TrackDescriptor :=
  (parse b).bind fun fields =>
    (last Value.varint? 1 fields).bind fun uuid =>
      ((last Value.bytes? 2 fields).bind readString).map fun name => ⟨name, uuid.toNat⟩

/-- The type of an event with a number. -/
def TrackEventType.ofNumber (x : UInt64) : Option TrackEventType :=
  if x = 1 then some sliceBegin
  else if x = 2 then some sliceEnd
  else if x = 3 then some instant
  else none

/-- Read a track event. -/
def TrackEvent.ofBytes (b : List UInt8) : Option TrackEvent :=
  (parse b).bind fun fields =>
    ((last Value.varint? 9 fields).bind TrackEventType.ofNumber).bind fun type =>
    (last Value.varint? 11 fields).bind fun uuid =>
    (readOption readString (last Value.bytes? 23 fields)).bind fun name =>
    (readAll DebugEntry.ofBytes (select Value.bytes? 4 fields)).bind fun annotations =>
    (readOption readCallstack (last Value.bytes? 55 fields)).map fun callstack =>
      { type := type, trackUuid := uuid.toNat, name := name,
        flowIds := (select Value.fixed64? 47 fields).map ofInt64Bits,
        debugAnnotations := annotations, callstack := callstack }

/-- Read the data of a packet, which is either an event or a descriptor. -/
def PacketData.ofFields (fields : List Field) : Option PacketData :=
  match last Value.bytes? 11 fields, last Value.bytes? 60 fields with
  | some event, none => (TrackEvent.ofBytes event).map .trackEvent
  | none, some descriptor => (TrackDescriptor.ofBytes descriptor).map .trackDescriptor
  | _, _ => none

/-- Read a packet. -/
def TracePacket.ofBytes (b : List UInt8) : Option TracePacket :=
  (parse b).bind fun fields =>
    (PacketData.ofFields fields).map fun data =>
      { timestamp := (last Value.varint? 8 fields).map ofInt64Bits
        trustedPacketSequenceId := (last Value.varint? 10 fields).map UInt64.toNat
        data := data }

/-- Read the packets of a trace. -/
def readTrace (b : List UInt8) : Option (List TracePacket) :=
  (parse b).bind fun fields => readAll TracePacket.ofBytes (select Value.bytes? 1 fields)

/-! ## Reading back -/

/-- The numbers of a debug annotation are values of their types. -/
def DebugEntry.Fits (entry : DebugEntry) : Prop := ∀ value ∈ entry.intValue, IsInt64 value

/-- The numbers of an event are values of their types. -/
structure TrackEvent.Fits (event : TrackEvent) : Prop where
  trackUuid : event.trackUuid < 2 ^ 64
  flowIds : ∀ flowId ∈ event.flowIds, IsInt64 flowId
  debugAnnotations : ∀ entry ∈ event.debugAnnotations, entry.Fits

/-- The numbers in the data of a packet are values of their types. -/
def PacketData.Fits : PacketData → Prop
  | trackEvent event => event.Fits
  | trackDescriptor descriptor => descriptor.uuid < 2 ^ 64

/-- The numbers of a packet are values of their types. -/
structure TracePacket.Fits (packet : TracePacket) : Prop where
  timestamp : ∀ timestamp ∈ packet.timestamp, IsInt64 timestamp
  sequenceId : ∀ sequenceId ∈ packet.trustedPacketSequenceId, sequenceId < 2 ^ 32
  data : packet.data.Fits

instance (entry : DebugEntry) : Decidable entry.Fits :=
  inferInstanceAs (Decidable (∀ value ∈ entry.intValue, IsInt64 value))

instance (event : TrackEvent) : Decidable event.Fits :=
  decidable_of_iff (event.trackUuid < 2 ^ 64 ∧ (∀ flowId ∈ event.flowIds, IsInt64 flowId) ∧
      ∀ entry ∈ event.debugAnnotations, entry.Fits)
    ⟨fun h => ⟨h.1, h.2.1, h.2.2⟩, fun h => ⟨h.trackUuid, h.flowIds, h.debugAnnotations⟩⟩

instance (data : PacketData) : Decidable data.Fits :=
  match data with
  | .trackEvent event => inferInstanceAs (Decidable event.Fits)
  | .trackDescriptor descriptor => inferInstanceAs (Decidable (descriptor.uuid < 2 ^ 64))

instance (packet : TracePacket) : Decidable packet.Fits :=
  decidable_of_iff ((∀ timestamp ∈ packet.timestamp, IsInt64 timestamp) ∧
      (∀ sequenceId ∈ packet.trustedPacketSequenceId, sequenceId < 2 ^ 32) ∧ packet.data.Fits)
    ⟨fun h => ⟨h.1, h.2.1, h.2.2⟩, fun h => ⟨h.timestamp, h.sequenceId, h.data⟩⟩

/-- Optional numbers are read back. -/
lemma map_ofInt64Bits {o : Option ℤ} (h : ∀ v ∈ o, IsInt64 v) :
    (o.map int64Bits).map ofInt64Bits = o := by
  cases o with
  | none => rfl
  | some v => rw [Option.map_some, Option.map_some, ofInt64Bits_int64Bits (h v rfl)]

lemma DebugEntry.ofBytes_encode {entry : DebugEntry} (h : entry.Fits) :
    DebugEntry.ofBytes (encode entry.fields) = some entry := by
  have hname : last Value.bytes? 10 entry.fields = some (stringBytes entry.name) := by
    simp [last, fields, Value.bytes?]
  have hvalue : last Value.varint? 4 entry.fields = entry.intValue.map int64Bits := by
    cases hvalue : entry.intValue <;> simp [last, fields, Value.varint?, hvalue]
  rw [ofBytes, parse_encode, Option.bind_some, hname, Option.bind_some,
    readString_stringBytes, Option.map_some, hvalue, map_ofInt64Bits h]

lemma readFrame_encode (functionName : String) :
    readFrame (encode (frameFields functionName)) = some functionName := by
  have hname : last Value.bytes? 1 (frameFields functionName) =
      some (stringBytes functionName) := by
    simp [last, frameFields, Value.bytes?]
  rw [readFrame, parse_encode, Option.bind_some, hname, Option.bind_some,
    readString_stringBytes]

lemma readCallstack_encode (frames : List String) :
    readCallstack (encode (callstackFields frames)) = some frames := by
  have hframes : select Value.bytes? 1 (callstackFields frames) =
      frames.map fun frame => encode (frameFields frame) := by
    simp [callstackFields, Value.bytes?]
  rw [readCallstack, parse_encode, Option.bind_some, hframes,
    readAll_map_id fun frame _ => readFrame_encode frame]

lemma TrackDescriptor.ofBytes_encode {descriptor : TrackDescriptor}
    (h : descriptor.uuid < 2 ^ 64) :
    TrackDescriptor.ofBytes (encode descriptor.fields) = some descriptor := by
  have huuid : last Value.varint? 1 descriptor.fields =
      some (UInt64.ofNat descriptor.uuid) := by
    simp [last, fields, Value.varint?]
  have hname : last Value.bytes? 2 descriptor.fields = some (stringBytes descriptor.name) := by
    simp [last, fields, Value.bytes?]
  rw [ofBytes, parse_encode, Option.bind_some, huuid, Option.bind_some,
    hname, Option.bind_some, readString_stringBytes, Option.map_some,
    UInt64.toNat_ofNat_of_lt' h]

lemma TrackEventType.ofNumber_number (type : TrackEventType) :
    TrackEventType.ofNumber type.number.toInt64.toUInt64 = some type := by
  cases type <;> rfl

/-- What a reader takes from the fields of an event. -/
lemma TrackEvent.select_fields (event : TrackEvent) :
    last Value.varint? 9 event.fields = some event.type.number.toInt64.toUInt64 ∧
    last Value.varint? 11 event.fields = some (UInt64.ofNat event.trackUuid) ∧
    last Value.bytes? 23 event.fields = event.name.map stringBytes ∧
    select Value.bytes? 4 event.fields =
      event.debugAnnotations.map (fun entry => encode entry.fields) ∧
    select Value.fixed64? 47 event.fields = event.flowIds.map int64Bits ∧
    last Value.bytes? 55 event.fields =
      event.callstack.map (fun frames => encode (callstackFields frames)) := by
  cases hname : event.name <;> cases hcallstack : event.callstack <;>
    simp [last, fields, Value.varint?, Value.bytes?, Value.fixed64?, hname, hcallstack]

lemma TrackEvent.ofBytes_encode {event : TrackEvent} (h : event.Fits) :
    TrackEvent.ofBytes (encode event.fields) = some event := by
  obtain ⟨htype, huuid, hname, hannotations, hflows, hcallstack⟩ := event.select_fields
  have hflowIds : (event.flowIds.map int64Bits).map ofInt64Bits = event.flowIds := by
    rw [List.map_map]
    exact (List.map_congr_left fun flowId hmem =>
      ofInt64Bits_int64Bits (h.flowIds flowId hmem)).trans (List.map_id _)
  rw [ofBytes, parse_encode, Option.bind_some, htype, Option.bind_some,
    TrackEventType.ofNumber_number, Option.bind_some, huuid, Option.bind_some, hname,
    readOption_map fun name _ => readString_stringBytes name, Option.bind_some, hannotations,
    readAll_map_id fun entry hmem =>
      DebugEntry.ofBytes_encode (h.debugAnnotations entry hmem),
    Option.bind_some, hcallstack,
    readOption_map fun frames _ => readCallstack_encode frames, Option.map_some,
    hflows, hflowIds, UInt64.toNat_ofNat_of_lt' h.trackUuid]

/-- What a reader takes from the fields of a packet. -/
lemma TracePacket.select_fields (packet : TracePacket) :
    last Value.varint? 8 packet.fields = packet.timestamp.map int64Bits ∧
    last Value.varint? 10 packet.fields =
      packet.trustedPacketSequenceId.map (fun id => (UInt32.ofNat id).toUInt64) ∧
    last Value.bytes? 11 packet.fields = last Value.bytes? 11 [packet.data.field] ∧
    last Value.bytes? 60 packet.fields = last Value.bytes? 60 [packet.data.field] := by
  cases htimestamp : packet.timestamp <;> cases hsequence : packet.trustedPacketSequenceId <;>
    cases hdata : packet.data <;>
    simp [last, fields, PacketData.field, Value.varint?, Value.bytes?, htimestamp, hsequence,
      hdata]

lemma PacketData.ofFields_fields {packet : TracePacket} (h : packet.data.Fits) :
    PacketData.ofFields packet.fields = some packet.data := by
  obtain ⟨-, -, hevent, hdescriptor⟩ := packet.select_fields
  rw [ofFields, hevent, hdescriptor]
  cases hdata : packet.data with
  | trackEvent event =>
    rw [hdata] at h
    simp [last, field, Value.bytes?, TrackEvent.ofBytes_encode h]
  | trackDescriptor descriptor =>
    rw [hdata] at h
    simp [last, field, Value.bytes?, TrackDescriptor.ofBytes_encode h]

lemma TracePacket.ofBytes_encode {packet : TracePacket} (h : packet.Fits) :
    TracePacket.ofBytes (encode packet.fields) = some packet := by
  obtain ⟨htimestamp, hsequence, -, -⟩ := packet.select_fields
  have hid : (packet.trustedPacketSequenceId.map fun id => (UInt32.ofNat id).toUInt64).map
      UInt64.toNat = packet.trustedPacketSequenceId := by
    cases hpacket : packet.trustedPacketSequenceId with
    | none => rfl
    | some sequenceId =>
      have hlt : sequenceId < 2 ^ 32 := h.sequenceId sequenceId hpacket
      rw [Option.map_some, Option.map_some, UInt32.toNat_toUInt64, UInt32.toNat_ofNat_of_lt' hlt]
  rw [ofBytes, parse_encode, Option.bind_some,
    PacketData.ofFields_fields h.data, Option.map_some, htimestamp, hsequence,
    map_ofInt64Bits h.timestamp, hid]

/-- The packets are read back from the fields of the trace. -/
lemma readTrace_encode {packets : List TracePacket} (hfits : ∀ packet ∈ packets, packet.Fits) :
    readTrace (encode (traceFields packets)) = some packets := by
  have hselect : select Value.bytes? 1 (traceFields packets) =
      packets.map fun packet => encode packet.fields := by
    simp [traceFields, Value.bytes?]
  rw [readTrace, parse_encode, Option.bind_some, hselect,
    readAll_map_id fun packet hmem => TracePacket.ofBytes_encode (hfits packet hmem)]

/-- **A trace is read back from its file.** For every runtime that writes the wire format, and for
all packets whose numbers are values of the types of their fields: the file has as many bytes as the
first pass computed, and a reader of the wire format finds in them exactly these packets.

**Proof sketch.** The first pass computes the sizes of the fields, so the lengths that the second
pass writes are right and every message is the encoding of its fields; the fields are read back one
level after the other. -/
theorem readTrace_traceFile {rt : Runtime} (hrt : rt.Lawful) (packets : List TracePacket)
    (hfits : ∀ packet ∈ packets, packet.Fits) (bytes : List UInt8)
    (hbytes : traceFile rt packets = some bytes) :
    bytes.length = traceByteSizeLong rt packets ∧ readTrace bytes = some packets := by
  obtain ⟨rfl, -⟩ := eq_of_traceFile hrt hbytes
  exact ⟨(traceByteSizeLong_eq hrt packets).symm, readTrace_encode hfits⟩

/-- A slice with a flow and an annotation, and a sample of two frames. -/
def samplePackets : List TracePacket :=
  [descriptorPacket 1 "coroutine#7" 1,
    eventPacket 1 1000
      { type := .sliceBegin, name := some "coroutine#7", trackUuid := 1, flowIds := [-3, 7],
        debugAnnotations := [⟨"Wall CPU time ms", some (-300)⟩] },
    eventPacket 1 2000
      { type := .instant, name := some "Stack trace", trackUuid := 1,
        callstack := some ["Lapp/Main;:run()V", ""] }]

/-- The packets of the sample are read back from the 155 bytes that the plain runtime writes. The
first 22 of them are the descriptor: its length, the sequence id, and the length of the nested
message with the track id and the name. -/
theorem readTrace_samplePackets :
    ∃ bytes, traceFile .plain samplePackets = some bytes ∧
      bytes.take 22 = [10, 20, 80, 1, 226, 3, 15, 8, 1, 18, 11] ++ stringBytes "coroutine#7" ∧
      traceByteSizeLong .plain samplePackets = 155 ∧
      bytes.length = traceByteSizeLong .plain samplePackets ∧
      readTrace bytes = some samplePackets := by
  have hsize : traceByteSizeLong .plain samplePackets = 155 := by decide +kernel
  have hbytes : traceFile .plain samplePackets = some (serializeTrace .plain samplePackets) :=
    if_pos (by rw [hsize]; decide)
  exact ⟨_, hbytes, by decide +kernel, hsize,
    readTrace_traceFile Runtime.lawful_plain samplePackets (by decide) _ hbytes⟩

end KotlinTracer

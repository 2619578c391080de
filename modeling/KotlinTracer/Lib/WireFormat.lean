import Mathlib.Data.List.Basic
import Mathlib.Algebra.Ring.Nat

set_option relaxedAutoImplicit false
set_option autoImplicit false

/-!
# The wire format of protocol buffers

A message is a sequence of fields, each a tag and a value. The tag holds the number of the field and
the wire type of the value: a number in base 128 (a *varint*), eight bytes, or a length and that
many bytes. A nested message is a field of the last kind.

## Main definitions

* `WireFormat.varint`, `WireFormat.readVarint` — numbers in base 128.
* `WireFormat.Value`, `WireFormat.Field` — a field of a message.
* `WireFormat.encode`, `WireFormat.parse` — the bytes of a sequence of fields, and the fields in a
  sequence of bytes.
* `WireFormat.select`, `WireFormat.last` — what a reader takes from the fields of a message.
* `WireFormat.Runtime` — the functions that the generated code of a message calls.
* `WireFormat.Runtime.Lawful` — what is assumed of them: they write the wire format.

## Main results

* `WireFormat.readVarint_varint` — a number is read back, with the bytes after it left over.
* `WireFormat.parse_encode` — the fields of a message are read back.
* `WireFormat.Runtime.lawful_plain` — the assumptions can be met.
-/

namespace WireFormat

/-! ## Numbers in base 128 -/

/-- The digits of a number in base 128, the lowest first; all bytes but the last have their high bit
set. -/
def varint (n : ℕ) : List UInt8 :=
  if n < 128 then [n.toUInt8] else (n % 128 + 128).toUInt8 :: varint (n / 128)
termination_by n
decreasing_by omega

/-- The number at the start of the bytes, and the bytes after it. -/
def readVarint : List UInt8 → Option (ℕ × List UInt8)
  | [] => none
  | b :: bs =>
    if b.toNat < 128 then some (b.toNat, bs)
    else (readVarint bs).map fun x => (b.toNat - 128 + 128 * x.1, x.2)

lemma varint_of_lt {n : ℕ} (h : n < 128) : varint n = [n.toUInt8] := by
  rw [varint, if_pos h]

lemma varint_of_le {n : ℕ} (h : 128 ≤ n) :
    varint n = (n % 128 + 128).toUInt8 :: varint (n / 128) := by
  rw [varint, if_neg (by omega)]

/-- A number less than 256 is a byte. -/
private lemma toNat_toUInt8 {n : ℕ} (h : n < 256) : n.toUInt8.toNat = n := by
  rw [Nat.toUInt8, UInt8.toNat_ofNat']
  exact Nat.mod_eq_of_lt h

/-- **A number is read back**, with the bytes after it left over. -/
theorem readVarint_varint (n : ℕ) (rest : List UInt8) :
    readVarint (varint n ++ rest) = some (n, rest) := by
  induction n using Nat.strongRecOn with
  | ind n ih =>
    by_cases h : n < 128
    · rw [varint_of_lt h, List.singleton_append, readVarint, toNat_toUInt8 (by omega), if_pos h]
    · have hbyte : (n % 128 + 128).toUInt8.toNat = n % 128 + 128 := toNat_toUInt8 (by omega)
      rw [varint_of_le (by omega), List.cons_append, readVarint, hbyte, if_neg (by omega),
        ih (n / 128) (by omega), Option.map_some]
      have hsum : n % 128 + 128 - 128 + 128 * (n / 128) = n := by omega
      rw [hsum]

lemma varint_ne_nil (n : ℕ) : varint n ≠ [] := by
  rw [varint]
  split_ifs <;> simp

/-! ## Fixed-width numbers -/

/-- The eight bytes of a number, the lowest first. -/
def fixed64 (x : UInt64) : List UInt8 :=
  (List.range 8).map fun i => (x.toNat / 256 ^ i).toUInt8

/-- The number that bytes represent, the lowest first. -/
def ofBytes : List UInt8 → ℕ
  | [] => 0
  | b :: bs => b.toNat + 256 * ofBytes bs

@[simp] lemma length_fixed64 (x : UInt64) : (fixed64 x).length = 8 := by
  rw [fixed64, List.length_map, List.length_range]

/-- Eight bytes hold a 64-bit number. -/
lemma ofBytes_fixed64 (x : UInt64) : UInt64.ofNat (ofBytes (fixed64 x)) = x := by
  have hx : x.toNat < 2 ^ 64 := x.toNat_lt
  have hbytes : ofBytes (fixed64 x) = x.toNat := by
    simp only [fixed64, List.range, List.range.loop, List.map_cons, List.map_nil, ofBytes,
      Nat.toUInt8, UInt8.toNat_ofNat']
    omega
  rw [hbytes, UInt64.ofNat_toNat]

/-! ## Fields -/

/-- The value of a field: a varint, eight bytes, or a length and that many bytes. -/
inductive Value
  | varint (x : UInt64)
  | fixed64 (x : UInt64)
  | bytes (b : List UInt8)
deriving DecidableEq

/-- A field of a message: its number and its value. -/
structure Field where
  number : ℕ
  value : Value
deriving DecidableEq

/-- The tag of a field. -/
def tag (number wireType : ℕ) : List UInt8 := varint (number * 8 + wireType)

/-- The wire type of a value. -/
def Value.wireType : Value → ℕ
  | .varint _ => 0
  | .fixed64 _ => 1
  | .bytes _ => 2

/-- The bytes of a value. -/
def Value.encode : Value → List UInt8
  | .varint x => WireFormat.varint x.toNat
  | .fixed64 x => WireFormat.fixed64 x
  | .bytes b => WireFormat.varint b.length ++ b

/-- The bytes of a field. -/
def Field.encode (field : Field) : List UInt8 :=
  tag field.number field.value.wireType ++ field.value.encode

/-- The bytes of a sequence of fields. -/
def encode (fields : List Field) : List UInt8 := fields.flatMap Field.encode

@[simp] lemma encode_nil : encode [] = [] := rfl

@[simp] lemma encode_cons (field : Field) (fields : List Field) :
    encode (field :: fields) = field.encode ++ encode fields :=
  List.flatMap_cons

@[simp] lemma encode_append (fields₁ fields₂ : List Field) :
    encode (fields₁ ++ fields₂) = encode fields₁ ++ encode fields₂ :=
  List.flatMap_append

/-- The value of a wire type at the start of the bytes, and the bytes after it. -/
def readValue (wireType : ℕ) (bs : List UInt8) : Option (Value × List UInt8) :=
  match wireType with
  | 0 => (readVarint bs).map fun x => (.varint (UInt64.ofNat x.1), x.2)
  | 1 =>
    if 8 ≤ bs.length then some (.fixed64 (UInt64.ofNat (ofBytes (bs.take 8))), bs.drop 8) else none
  | 2 => (readVarint bs).bind fun x =>
    if x.1 ≤ x.2.length then some (.bytes (x.2.take x.1), x.2.drop x.1) else none
  | _ => none

/-- The field at the start of the bytes, and the bytes after it. -/
def readField (bs : List UInt8) : Option (Field × List UInt8) :=
  (readVarint bs).bind fun x =>
    (readValue (x.1 % 8) x.2).map fun y => (⟨x.1 / 8, y.1⟩, y.2)

/-- The fields in the bytes, if they are at most `n`. -/
def readFields : ℕ → List UInt8 → Option (List Field)
  | _, [] => some []
  | 0, _ :: _ => none
  | n + 1, b :: bs => (readField (b :: bs)).bind fun x => (readFields n x.2).map (x.1 :: ·)

/-- The fields in the bytes of a message; a field has at least one byte. -/
def parse (bs : List UInt8) : Option (List Field) := readFields bs.length bs

/-- A value is read back, with the bytes after it left over. -/
lemma readValue_encode (value : Value) (rest : List UInt8) :
    readValue value.wireType (value.encode ++ rest) = some (value, rest) := by
  cases value with
  | varint x =>
    rw [Value.wireType, Value.encode, readValue, readVarint_varint, Option.map_some,
      UInt64.ofNat_toNat]
  | fixed64 x =>
    have hlength : 8 ≤ (fixed64 x ++ rest).length := by
      rw [List.length_append, length_fixed64]
      omega
    have htake : (fixed64 x ++ rest).take 8 = fixed64 x := by
      rw [List.take_left' (length_fixed64 x)]
    have hdrop : (fixed64 x ++ rest).drop 8 = rest := by
      rw [List.drop_left' (length_fixed64 x)]
    rw [Value.wireType, Value.encode, readValue, if_pos hlength, htake, hdrop, ofBytes_fixed64]
  | bytes b =>
    have hlength : b.length ≤ (b ++ rest).length := by
      rw [List.length_append]
      omega
    rw [Value.wireType, Value.encode, readValue, List.append_assoc, readVarint_varint,
      Option.bind_some, if_pos hlength, List.take_left, List.drop_left]

/-- A field is read back, with the bytes after it left over. -/
lemma readField_encode (field : Field) (rest : List UInt8) :
    readField (field.encode ++ rest) = some (field, rest) := by
  have htype : field.value.wireType < 8 := by
    cases field.value <;> simp [Value.wireType]
  have hmod : (field.number * 8 + field.value.wireType) % 8 = field.value.wireType := by omega
  have hdiv : (field.number * 8 + field.value.wireType) / 8 = field.number := by omega
  rw [readField, Field.encode, tag, List.append_assoc, readVarint_varint, Option.bind_some, hmod,
    readValue_encode, Option.map_some, hdiv]

lemma encode_field_ne_nil (field : Field) : field.encode ≠ [] := by
  rw [Field.encode, tag]
  exact List.append_ne_nil_of_left_ne_nil (varint_ne_nil _) _

/-- Fields are read back, when at least as many are allowed. -/
lemma readFields_encode {fields : List Field} {n : ℕ} (h : fields.length ≤ n) :
    readFields n (encode fields) = some fields := by
  induction fields generalizing n with
  | nil => rw [encode_nil, readFields]
  | cons field fields ih =>
    cases n with
    | zero => simp at h
    | succ n =>
      obtain ⟨b, bs, hbs⟩ := List.exists_cons_of_ne_nil
        (List.append_ne_nil_of_left_ne_nil (encode_field_ne_nil field) (encode fields))
      rw [encode_cons, hbs, readFields, ← hbs, readField_encode, Option.bind_some,
        ih (Nat.le_of_succ_le_succ h), Option.map_some]

/-- There are at least as many bytes as fields. -/
lemma length_le_length_encode (fields : List Field) : fields.length ≤ (encode fields).length := by
  induction fields with
  | nil => rfl
  | cons field fields ih =>
    have hpos := List.length_pos_of_ne_nil (encode_field_ne_nil field)
    rw [encode_cons, List.length_append, List.length_cons]
    omega

/-- **The fields of a message are read back.** -/
theorem parse_encode (fields : List Field) : parse (encode fields) = some fields :=
  readFields_encode (length_le_length_encode fields)

/-! ## What a reader takes from the fields -/

/-- The number of a varint. -/
def Value.varint? : Value → Option UInt64
  | .varint x => some x
  | _ => none

/-- The number of a value of eight bytes. -/
def Value.fixed64? : Value → Option UInt64
  | .fixed64 x => some x
  | _ => none

/-- The bytes of a value with a length. -/
def Value.bytes? : Value → Option (List UInt8)
  | .bytes b => some b
  | _ => none

/-- What a reader takes from the fields with a number: all values of the kind it expects. -/
def select {α : Type} (kind : Value → Option α) (number : ℕ) (fields : List Field) : List α :=
  fields.filterMap fun field => if field.number = number then kind field.value else none

/-- What a reader takes from a field that is not repeated: the last value counts. -/
def last {α : Type} (kind : Value → Option α) (number : ℕ) (fields : List Field) : Option α :=
  (select kind number fields).getLast?

section Select

variable {α β : Type} (kind : Value → Option α) (number : ℕ)

@[simp] lemma select_nil : select kind number [] = [] := rfl

@[simp] lemma select_append (fields₁ fields₂ : List Field) :
    select kind number (fields₁ ++ fields₂) =
      select kind number fields₁ ++ select kind number fields₂ :=
  List.filterMap_append

@[simp] lemma select_cons (field : Field) (fields : List Field) :
    select kind number (field :: fields) =
      (if field.number = number then (kind field.value).toList else []) ++
        select kind number fields := by
  rw [select, List.filterMap_cons]
  split_ifs
  · cases kind field.value <;> rfl
  · rfl

/-- The fields that come from a list: all of them have the same number. -/
@[simp] lemma select_map (m : ℕ) (value : β → Value) (l : List β) :
    select kind number (l.map fun a => ⟨m, value a⟩) =
      if m = number then l.filterMap fun a => kind (value a) else [] := by
  rw [select, List.filterMap_map]
  split_ifs with h
  · exact List.filterMap_congr fun a _ => if_pos h
  · exact List.filterMap_eq_nil_iff.mpr fun a _ => if_neg h

end Select

/-- Read every value of a repeated field. -/
def readAll {β α : Type} (read : β → Option α) : List β → Option (List α)
  | [] => some []
  | b :: bs => (read b).bind fun a => (readAll read bs).map (a :: ·)

/-- Read the value of a field that may be absent. -/
def readOption {β α : Type} (read : β → Option α) : Option β → Option (Option α)
  | none => some none
  | some b => (read b).map some

section Read

variable {α β γ : Type} {read : β → Option α}

/-- What is read one by one is read as a list. -/
lemma readAll_map {write : γ → β} {value : γ → α} {l : List γ}
    (h : ∀ c ∈ l, read (write c) = some (value c)) :
    readAll read (l.map write) = some (l.map value) := by
  induction l with
  | nil => rfl
  | cons c l ih =>
    rw [List.map_cons, readAll, h c List.mem_cons_self, Option.bind_some,
      ih fun d hd => h d (List.mem_cons_of_mem c hd), Option.map_some, List.map_cons]

/-- What is read back one by one is read back as a list. -/
lemma readAll_map_id {write : α → β} {l : List α} (h : ∀ a ∈ l, read (write a) = some a) :
    readAll read (l.map write) = some l := by
  rw [readAll_map h, List.map_id']

lemma readOption_map {write : α → β} {o : Option α} (h : ∀ a ∈ o, read (write a) = some a) :
    readOption read (o.map write) = some o := by
  cases o with
  | none => rfl
  | some a => rw [Option.map_some, readOption, h a rfl, Option.map_some]

end Read

/-! ## Lengths -/

/-- The tag of a field with a number up to 15 has one byte. -/
lemma length_tag_one {number wireType : ℕ} (h : number < 16) (htype : wireType < 8) :
    (tag number wireType).length = 1 := by
  rw [tag, varint_of_lt (by omega), List.length_singleton]

/-- The tag of a field with a number from 16 to 2047 has two bytes. -/
lemma length_tag_two {number wireType : ℕ} (h : 16 ≤ number) (h' : number < 2048)
    (htype : wireType < 8) : (tag number wireType).length = 2 := by
  rw [tag, varint_of_le (by omega), varint_of_lt (by omega), List.length_cons,
    List.length_singleton]

lemma length_encode_varint (number : ℕ) (x : UInt64) :
    (Field.encode ⟨number, .varint x⟩).length =
      (tag number 0).length + (varint x.toNat).length := by
  rw [Field.encode, List.length_append]
  rfl

lemma length_encode_fixed64 (number : ℕ) (x : UInt64) :
    (Field.encode ⟨number, .fixed64 x⟩).length = (tag number 1).length + 8 := by
  rw [Field.encode, List.length_append, Value.encode, length_fixed64]
  rfl

lemma length_encode_bytes (number : ℕ) (b : List UInt8) :
    (Field.encode ⟨number, .bytes b⟩).length =
      (tag number 2).length + ((varint b.length).length + b.length) := by
  rw [Field.encode, List.length_append, Value.encode, List.length_append]
  rfl

/-! ## The runtime of the generated code -/

/-- The bytes of a string. -/
def stringBytes (s : String) : List UInt8 := s.toByteArray.data.toList

/-- The functions that the generated code of a message calls. A function that writes is the bytes it
writes at its target. A nested message is written with the size that was computed for it before, and
`serializeToOstream` gets what the two passes over a message gave: its size, and its bytes. -/
structure Runtime where
  /-- `WriteUInt64ToArray`. -/
  writeUInt64 : ℕ → UInt64 → List UInt8
  /-- `WriteUInt32ToArray`. -/
  writeUInt32 : ℕ → UInt32 → List UInt8
  /-- `WriteInt64ToArrayWithField`. -/
  writeInt64 : ℕ → Int64 → List UInt8
  /-- `WriteEnumToArray`. -/
  writeEnum : ℕ → Int32 → List UInt8
  /-- `WriteFixed64ToArray`. -/
  writeFixed64 : ℕ → UInt64 → List UInt8
  /-- `WriteStringMaybeAliased`. -/
  writeString : ℕ → String → List UInt8
  /-- `InternalWriteMessage`. -/
  writeMessage : (number cachedSize : ℕ) → (message : List UInt8) → List UInt8
  /-- `UInt64SizePlusOne`. -/
  uint64SizePlusOne : UInt64 → ℕ
  /-- `UInt32SizePlusOne`. -/
  uint32SizePlusOne : UInt32 → ℕ
  /-- `Int64SizePlusOne`. -/
  int64SizePlusOne : Int64 → ℕ
  /-- `EnumSize`. -/
  enumSize : Int32 → ℕ
  /-- `StringSize`. -/
  stringSize : String → ℕ
  /-- `MessageSize`, of a message with the given size. -/
  messageSize : ℕ → ℕ
  /-- `SerializeToOstream`: what reaches the stream, or `none` for `false`. -/
  serializeToOstream : (size : ℕ) → (message : List UInt8) → Option (List UInt8)

/-- What is assumed of a runtime: numbers, strings and messages are written as fields of the wire
format, a message if its size is right; the sizes are those of the bytes that are written, without
the tag or with a tag of one byte; what reaches the stream, if it is accepted, is the message, and
messages of `2 ^ 31` bytes and more are refused. -/
structure Runtime.Lawful (rt : Runtime) : Prop where
  writeUInt64 : ∀ number x, rt.writeUInt64 number x = Field.encode ⟨number, .varint x⟩
  writeUInt32 : ∀ number x, rt.writeUInt32 number x = Field.encode ⟨number, .varint x.toUInt64⟩
  writeInt64 : ∀ number x, rt.writeInt64 number x = Field.encode ⟨number, .varint x.toUInt64⟩
  writeEnum : ∀ number x,
    rt.writeEnum number x = Field.encode ⟨number, .varint x.toInt64.toUInt64⟩
  writeFixed64 : ∀ number x, rt.writeFixed64 number x = Field.encode ⟨number, .fixed64 x⟩
  writeString : ∀ number s,
    rt.writeString number s = Field.encode ⟨number, .bytes (stringBytes s)⟩
  writeMessage : ∀ number message,
    rt.writeMessage number message.length message = Field.encode ⟨number, .bytes message⟩
  uint64SizePlusOne : ∀ x, rt.uint64SizePlusOne x = (varint x.toNat).length + 1
  uint32SizePlusOne : ∀ x, rt.uint32SizePlusOne x = (varint x.toUInt64.toNat).length + 1
  int64SizePlusOne : ∀ x, rt.int64SizePlusOne x = (varint x.toUInt64.toNat).length + 1
  enumSize : ∀ x, rt.enumSize x = (varint x.toInt64.toUInt64.toNat).length
  stringSize : ∀ s,
    rt.stringSize s = (varint (stringBytes s).length).length + (stringBytes s).length
  messageSize : ∀ size, rt.messageSize size = (varint size).length + size
  serializeToOstream : ∀ message bytes,
    rt.serializeToOstream message.length message = some bytes → bytes = message
  sizeLimit : ∀ size message bytes,
    rt.serializeToOstream size message = some bytes → size < 2 ^ 31

/-- A runtime that writes the wire format as it is defined here. -/
def Runtime.plain : Runtime where
  writeUInt64 number x := Field.encode ⟨number, .varint x⟩
  writeUInt32 number x := Field.encode ⟨number, .varint x.toUInt64⟩
  writeInt64 number x := Field.encode ⟨number, .varint x.toUInt64⟩
  writeEnum number x := Field.encode ⟨number, .varint x.toInt64.toUInt64⟩
  writeFixed64 number x := Field.encode ⟨number, .fixed64 x⟩
  writeString number s := Field.encode ⟨number, .bytes (stringBytes s)⟩
  writeMessage number cachedSize message := tag number 2 ++ varint cachedSize ++ message
  uint64SizePlusOne x := (varint x.toNat).length + 1
  uint32SizePlusOne x := (varint x.toUInt64.toNat).length + 1
  int64SizePlusOne x := (varint x.toUInt64.toNat).length + 1
  enumSize x := (varint x.toInt64.toUInt64.toNat).length
  stringSize s := (varint (stringBytes s).length).length + (stringBytes s).length
  messageSize size := (varint size).length + size
  serializeToOstream size message := if size < 2 ^ 31 then some message else none

/-- **The assumptions on a runtime can be met.** -/
lemma Runtime.lawful_plain : Runtime.plain.Lawful := by
  refine ⟨fun _ _ => rfl, fun _ _ => rfl, fun _ _ => rfl, fun _ _ => rfl, fun _ _ => rfl,
    fun _ _ => rfl, fun number message => ?_, fun _ => rfl, fun _ => rfl, fun _ => rfl,
    fun _ => rfl, fun _ => rfl, fun _ => rfl, fun message bytes h => ?_,
    fun size message bytes h => ?_⟩
  · exact List.append_assoc _ _ _
  · dsimp only [plain] at h
    split_ifs at h
    exact (Option.some.inj h).symm
  · dsimp only [plain] at h
    split_ifs at h with hsize
    exact hsize

end WireFormat

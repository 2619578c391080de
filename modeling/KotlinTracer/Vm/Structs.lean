import KotlinTracer.Lib.Outcome
import KotlinTracer.Vm.CodeCache
import Mathlib.Logic.Function.Basic

set_option relaxedAutoImplicit false
set_option autoImplicit false

/-!
# The structures of the VM

The start of the agent reads how the VM lays out its own data (`vm/vmStructs.cpp`, `vm/jvm.cpp`, the
constructor in `vm/jvmCodeCache.h`). The VM exports two tables and, as variables, where the columns
of a row lie. `init` looks the variables up, `resolveVMStructs` and `resolveVMTypes` walk the tables
up to the row with a null name, and `JVMCodeCache` looks up what its queries need.

## Main definitions

* `KotlinTracer.HotSpotGlobals`, `KotlinTracer.init` — the variables, and looking them up.
* `KotlinTracer.resolveVMStructs`, `KotlinTracer.resolveVMTypes` — the walks over the tables.
* `KotlinTracer.JVMCodeCache.create` — the constructor of the code cache.
* `KotlinTracer.startVm` — the part of the constructor of `JVM` made of these.
* `KotlinTracer.VmTables`, `KotlinTracer.VmTables.LaidOut` — the contents of the two tables, and
  that they lie in the memory.
* `KotlinTracer.Directory` — what a code cache can be created from: the sizes of the types and the
  offsets of their fields.
* `KotlinTracer.Directory.requirements` — what has to be there, in the order of the lookups.

## Main results

* `KotlinTracer.directory_resolveVMTypes` — the maps in memory have the directory of the tables: the
  first row of a field counts, and the last row of a type.
* `KotlinTracer.create_eq` — the constructor depends on the directory of its map only.
* `KotlinTracer.startVm_eq` — on memory with the tables the start either creates the code cache with
  the offsets of the tables, or fails in the way of the first thing that is missing.

## Design

The memory is `VmMemory`, whose `int` extends an `int32_t` to 64 bits. A map of the source is the
function that looks a key up. `vm_structs_` holds pointers to maps, which `operator[]` leaves null,
so its values are themselves optional. The walks of the source have no bound; as for the segment
map, the model takes the number of iterations that they may use.
-/

namespace KotlinTracer

/-! ## The variables -/

/-- The variables of `vmStructs.cpp`, under their names. -/
structure HotSpotGlobals where
  gHotSpotVMStructs : UInt64
  gHotSpotVMTypes : UInt64
  gHotSpotVMIntConstants : UInt64
  gHotSpotVMLongConstants : UInt64
  gHotSpotVMStructEntryTypeNameOffset : UInt64
  gHotSpotVMStructEntryFieldNameOffset : UInt64
  gHotSpotVMStructEntryTypeStringOffset : UInt64
  gHotSpotVMStructEntryIsStaticOffset : UInt64
  gHotSpotVMStructEntryOffsetOffset : UInt64
  gHotSpotVMStructEntryAddressOffset : UInt64
  gHotSpotVMStructEntryArrayStride : UInt64
  gHotSpotVMTypeEntryTypeNameOffset : UInt64
  gHotSpotVMTypeEntrySuperclassNameOffset : UInt64
  gHotSpotVMTypeEntryIsOopTypeOffset : UInt64
  gHotSpotVMTypeEntryIsIntegerTypeOffset : UInt64
  gHotSpotVMTypeEntryIsUnsignedOffset : UInt64
  gHotSpotVMTypeEntrySizeOffset : UInt64
  gHotSpotVMTypeEntryArrayStride : UInt64
  gHotSpotVMIntConstantEntryNameOffset : UInt64
  gHotSpotVMIntConstantEntryValueOffset : UInt64
  gHotSpotVMIntConstantEntryArrayStride : UInt64
  gHotSpotVMLongConstantEntryNameOffset : UInt64
  gHotSpotVMLongConstantEntryValueOffset : UInt64
  gHotSpotVMLongConstantEntryArrayStride : UInt64

/-- The macros `get_address` and `get_offset`: the word at the address of a variable. `symbols` are
the answers of `getVariableAddress`, null for an unknown name. -/
def getVariable (mem : VmMemory) (symbols : String → UInt64) (varName : String) :
    Outcome UInt64 :=
  let address := symbols varName
  if address = 0 then throw (.runtimeError (varName ++ " not found!").toList)
  else pure (mem.word address)

/-- `init`. -/
def init (mem : VmMemory) (symbols : String → UInt64) : Outcome HotSpotGlobals := do
  let gHotSpotVMStructs ← getVariable mem symbols "gHotSpotVMStructs"
  let gHotSpotVMTypes ← getVariable mem symbols "gHotSpotVMTypes"
  let gHotSpotVMIntConstants ← getVariable mem symbols "gHotSpotVMIntConstants"
  let gHotSpotVMLongConstants ← getVariable mem symbols "gHotSpotVMLongConstants"
  let gHotSpotVMStructEntryTypeNameOffset ←
    getVariable mem symbols "gHotSpotVMStructEntryTypeNameOffset"
  let gHotSpotVMStructEntryFieldNameOffset ←
    getVariable mem symbols "gHotSpotVMStructEntryFieldNameOffset"
  let gHotSpotVMStructEntryTypeStringOffset ←
    getVariable mem symbols "gHotSpotVMStructEntryTypeStringOffset"
  let gHotSpotVMStructEntryIsStaticOffset ←
    getVariable mem symbols "gHotSpotVMStructEntryIsStaticOffset"
  let gHotSpotVMStructEntryOffsetOffset ←
    getVariable mem symbols "gHotSpotVMStructEntryOffsetOffset"
  let gHotSpotVMStructEntryAddressOffset ←
    getVariable mem symbols "gHotSpotVMStructEntryAddressOffset"
  let gHotSpotVMStructEntryArrayStride ←
    getVariable mem symbols "gHotSpotVMStructEntryArrayStride"
  let gHotSpotVMTypeEntryTypeNameOffset ←
    getVariable mem symbols "gHotSpotVMTypeEntryTypeNameOffset"
  let gHotSpotVMTypeEntrySuperclassNameOffset ←
    getVariable mem symbols "gHotSpotVMTypeEntrySuperclassNameOffset"
  let gHotSpotVMTypeEntryIsOopTypeOffset ←
    getVariable mem symbols "gHotSpotVMTypeEntryIsOopTypeOffset"
  let gHotSpotVMTypeEntryIsIntegerTypeOffset ←
    getVariable mem symbols "gHotSpotVMTypeEntryIsIntegerTypeOffset"
  let gHotSpotVMTypeEntryIsUnsignedOffset ←
    getVariable mem symbols "gHotSpotVMTypeEntryIsUnsignedOffset"
  let gHotSpotVMTypeEntrySizeOffset ← getVariable mem symbols "gHotSpotVMTypeEntrySizeOffset"
  let gHotSpotVMTypeEntryArrayStride ← getVariable mem symbols "gHotSpotVMTypeEntryArrayStride"
  let gHotSpotVMIntConstantEntryNameOffset ←
    getVariable mem symbols "gHotSpotVMIntConstantEntryNameOffset"
  let gHotSpotVMIntConstantEntryValueOffset ←
    getVariable mem symbols "gHotSpotVMIntConstantEntryValueOffset"
  let gHotSpotVMIntConstantEntryArrayStride ←
    getVariable mem symbols "gHotSpotVMIntConstantEntryArrayStride"
  let gHotSpotVMLongConstantEntryNameOffset ←
    getVariable mem symbols "gHotSpotVMLongConstantEntryNameOffset"
  let gHotSpotVMLongConstantEntryValueOffset ←
    getVariable mem symbols "gHotSpotVMLongConstantEntryValueOffset"
  let gHotSpotVMLongConstantEntryArrayStride ←
    getVariable mem symbols "gHotSpotVMLongConstantEntryArrayStride"
  return {
    gHotSpotVMStructs, gHotSpotVMTypes, gHotSpotVMIntConstants, gHotSpotVMLongConstants,
    gHotSpotVMStructEntryTypeNameOffset, gHotSpotVMStructEntryFieldNameOffset,
    gHotSpotVMStructEntryTypeStringOffset, gHotSpotVMStructEntryIsStaticOffset,
    gHotSpotVMStructEntryOffsetOffset, gHotSpotVMStructEntryAddressOffset,
    gHotSpotVMStructEntryArrayStride, gHotSpotVMTypeEntryTypeNameOffset,
    gHotSpotVMTypeEntrySuperclassNameOffset, gHotSpotVMTypeEntryIsOopTypeOffset,
    gHotSpotVMTypeEntryIsIntegerTypeOffset, gHotSpotVMTypeEntryIsUnsignedOffset,
    gHotSpotVMTypeEntrySizeOffset, gHotSpotVMTypeEntryArrayStride,
    gHotSpotVMIntConstantEntryNameOffset, gHotSpotVMIntConstantEntryValueOffset,
    gHotSpotVMIntConstantEntryArrayStride, gHotSpotVMLongConstantEntryNameOffset,
    gHotSpotVMLongConstantEntryValueOffset, gHotSpotVMLongConstantEntryArrayStride }

/-! ## The walks over the tables -/

/-- `Field`: the names are pointers. -/
structure Field where
  fieldName : UInt64
  typeString : UInt64
  offset : UInt64
  isStatic : UInt64
deriving Inhabited

/-- The fields of a type, by name. -/
abbrev FieldMap := String → Option Field

/-- `unordered_map::insert`: a key that is there keeps its value. -/
def FieldMap.insert (fields : FieldMap) (key : String) (field : Field) : FieldMap :=
  if (fields key).isSome then fields else Function.update fields key (some field)

/-- `vm_structs_`: a key may be there with a null pointer. -/
abbrev FieldMaps := String → Option (Option FieldMap)

/-- The field that the entry at an address describes; a static field has its address for an
offset. -/
def readField (mem : VmMemory) (g : HotSpotGlobals) (entry : UInt64) : Field :=
  let isStatic := mem.int (entry + g.gHotSpotVMStructEntryIsStaticOffset)
  let offset := mem.word (entry + g.gHotSpotVMStructEntryOffsetOffset)
  let address := mem.word (entry + g.gHotSpotVMStructEntryAddressOffset)
  { fieldName := mem.word (entry + g.gHotSpotVMStructEntryFieldNameOffset)
    typeString := mem.word (entry + g.gHotSpotVMStructEntryTypeStringOffset)
    isStatic := isStatic
    offset := if isStatic ≠ 0 then address else offset }

/-- The map to insert a field of a type into: a new one if the type is not there. -/
def FieldMaps.searchFields (vmStructs : FieldMaps) (typeName : String) : Option FieldMap :=
  match vmStructs typeName with
  | none => some fun _ => none
  | some second => second

/-- An iteration of `resolveVMStructs`. -/
def resolveVMStructsStep (mem : VmMemory) (g : HotSpotGlobals) :
    UInt64 × FieldMaps → Option (ForInStep (UInt64 × FieldMaps))
  | (entry, vmStructs) =>
    let field := readField mem g entry
    let typeName := mem.word (entry + g.gHotSpotVMStructEntryTypeNameOffset)
    if typeName = 0 ∨ field.fieldName = 0 then some (.done (entry, vmStructs)) else
    let typeNameStr := mem.string typeName
    match vmStructs.searchFields typeNameStr with
    -- the insertion into a map behind a null pointer
    | none => none
    | some fields =>
      let fields := fields.insert (mem.string field.fieldName) field
      some (.yield (entry + g.gHotSpotVMStructEntryArrayStride,
        Function.update vmStructs typeNameStr (some (some fields))))

/-- `JVM::resolveVMStructs`, with at most `n` iterations. -/
def resolveVMStructs (mem : VmMemory) (g : HotSpotGlobals) (n : ℕ) : Option FieldMaps :=
  (Loop.run (resolveVMStructsStep mem g) n (g.gHotSpotVMStructs, fun _ => none)).map Prod.snd

/-- `VMTypeEntry`. -/
structure VMTypeEntry where
  typeName : UInt64
  superclassName : UInt64
  isOopType : UInt64
  isIntegerType : UInt64
  isUnsigned : UInt64
  size : UInt64
  fields : Option FieldMap
deriving Inhabited

/-- `types_`. -/
abbrev TypeMap := String → Option VMTypeEntry

/-- What `vm_structs_[key]` does to `vm_structs_`: it inserts a null pointer if the key is not
there. -/
def FieldMaps.touch (vmStructs : FieldMaps) (key : String) : FieldMaps :=
  if (vmStructs key).isNone then Function.update vmStructs key (some none) else vmStructs

/-- An iteration of `resolveVMTypes`. -/
def resolveVMTypesStep (mem : VmMemory) (g : HotSpotGlobals) :
    UInt64 × FieldMaps × TypeMap → Option (ForInStep (UInt64 × FieldMaps × TypeMap))
  | (entry, vmStructs, types) =>
    let typeName := mem.word (entry + g.gHotSpotVMTypeEntryTypeNameOffset)
    if typeName = 0 then some (.done (entry, vmStructs, types)) else
    let key := mem.string typeName
    let vmStructs := vmStructs.touch key
    let vmTypeEntry : VMTypeEntry :=
      { typeName := typeName
        superclassName := mem.word (entry + g.gHotSpotVMTypeEntrySuperclassNameOffset)
        isOopType := mem.int (entry + g.gHotSpotVMTypeEntryIsOopTypeOffset)
        isIntegerType := mem.int (entry + g.gHotSpotVMTypeEntryIsIntegerTypeOffset)
        isUnsigned := mem.int (entry + g.gHotSpotVMTypeEntryIsUnsignedOffset)
        size := mem.word (entry + g.gHotSpotVMTypeEntrySizeOffset)
        fields := (vmStructs key).join }
    some (.yield (entry + g.gHotSpotVMTypeEntryArrayStride, vmStructs,
      Function.update types key (some vmTypeEntry)))

/-- `JVM::resolveVMTypes`, with at most `n` iterations. -/
def resolveVMTypes (mem : VmMemory) (g : HotSpotGlobals) (vmStructs : FieldMaps) (n : ℕ) :
    Option TypeMap :=
  (Loop.run (resolveVMTypesStep mem g) n (g.gHotSpotVMTypes, vmStructs, fun _ => none)).map
    fun p => p.2.2

/-! ## The code cache -/

/-- The members of `JVMCodeCache`: the offsets and sizes, the array of heaps, where its elements
were at the start, and where its length is. -/
structure JVMCodeCache where
  vm : VmStructs
  heaps : UInt64
  heapsData : UInt64
  heapsLength : UInt64

/-- The text of the exception of `getIfContains`. -/
def notFoundInVmStructs (key : String) : StdException :=
  .runtimeError (key ++ " not found in vm structs").toList

/-- `JVMCodeCache::getIfContains`. -/
def getIfContains {α : Type} (map : String → Option α) (key : String) : Outcome α :=
  match map key with
  | some value => pure value
  | none => throw (notFoundInVmStructs key)

/-- `getIfContains(*type.fields, key)`; to follow a null pointer is undefined. -/
def VMTypeEntry.getField (type : VMTypeEntry) (key : String) : Outcome Field :=
  match type.fields with
  | some fields => getIfContains fields key
  | none => Failure.undefined.raise

/-- The start of the constructor of `JVMCodeCache`: `CompiledMethod` is preferred to `nmethod`. -/
def JVMCodeCache.compiledMethodField (types : TypeMap) : Outcome Field :=
  if (types "CompiledMethod").isSome then do
    let compiledMethodType ← getIfContains types "CompiledMethod"
    compiledMethodType.getField "_method"
  else do
    let compiledMethodType ← getIfContains types "nmethod"
    compiledMethodType.getField "_method"

/-- The constructor of `JVMCodeCache`. -/
def JVMCodeCache.create (mem : VmMemory) (types : TypeMap) : Outcome JVMCodeCache := do
  let compiledMethodField ← compiledMethodField types
  let methodType ← getIfContains types "Method"
  let constMethodField ← methodType.getField "_constMethod"
  let constMethodType ← getIfContains types "ConstMethod"
  let constantsField ← constMethodType.getField "_constants"
  let methodIdNumField ← constMethodType.getField "_method_idnum"
  let constantPoolType ← getIfContains types "ConstantPool"
  let poolHolderField ← constantPoolType.getField "_pool_holder"
  let instanceKlassType ← getIfContains types "InstanceKlass"
  let jmethodIdsField ← instanceKlassType.getField "_methods_jmethod_ids"
  let growableArrayBaseType ← getIfContains types "GrowableArrayBase"
  let codeBlobType ← getIfContains types "CodeBlob"
  let codeBlobNameField ← codeBlobType.getField "_name"
  let growableArrayType ← getIfContains types "GrowableArray<int>"
  let codeHeapType ← getIfContains types "CodeHeap"
  let memoryField ← codeHeapType.getField "_memory"
  let segmapField ← codeHeapType.getField "_segmap"
  let log2SegmentSizeField ← codeHeapType.getField "_log2_segment_size"
  let virtualSpaceType ← getIfContains types "VirtualSpace"
  let lowField ← virtualSpaceType.getField "_low"
  let highField ← virtualSpaceType.getField "_high"
  let codeCacheType ← getIfContains types "CodeCache"
  let heapsField ← codeCacheType.getField "_heaps"
  let dataField ← growableArrayType.getField "_data"
  let heaps := mem.word heapsField.offset
  let lenField ← growableArrayBaseType.getField "_len"
  let heapBlockType ← getIfContains types "HeapBlock"
  return {
    vm := {
      compiledMethod := compiledMethodField.offset
      constMethod := constMethodField.offset
      constants := constantsField.offset
      methodIdNum := methodIdNumField.offset
      poolHolder := poolHolderField.offset
      jmethodIds := jmethodIdsField.offset
      codeBlobName := codeBlobNameField.offset
      memory := memoryField.offset
      segmap := segmapField.offset
      log2SegmentSize := log2SegmentSizeField.offset
      low := lowField.offset
      high := highField.offset
      heapBlockTypeSize := heapBlockType.size }
    heaps := heaps
    heapsData := mem.word (heaps + dataField.offset)
    heapsLength := heaps + lenField.offset }

/-- The end of the constructor of `JVM`, with at most `n` iterations for each walk. -/
def startVm (mem : VmMemory) (symbols : String → UInt64) (n : ℕ) : Outcome JVMCodeCache := do
  let g ← init mem symbols
  let vmStructs ← (ExceptT.lift (resolveVMStructs mem g n) : Outcome FieldMaps)
  let types ← (ExceptT.lift (resolveVMTypes mem g vmStructs n) : Outcome TypeMap)
  JVMCodeCache.create mem types

/-! ## The tables -/

/-- A row of the table of the fields. -/
structure StructRow where
  typeName : String
  fieldName : String
  isStatic : Bool
  offset : UInt64
  address : UInt64

/-- Where the field is: in its object, or in the memory for a static field. -/
def StructRow.location (row : StructRow) : UInt64 :=
  if row.isStatic then row.address else row.offset

/-- The row lies at the address. -/
structure StructRow.At (mem : VmMemory) (g : HotSpotGlobals) (entry : UInt64) (row : StructRow) :
    Prop where
  typeName_ne : mem.word (entry + g.gHotSpotVMStructEntryTypeNameOffset) ≠ 0
  fieldName_ne : mem.word (entry + g.gHotSpotVMStructEntryFieldNameOffset) ≠ 0
  typeName_eq :
    mem.string (mem.word (entry + g.gHotSpotVMStructEntryTypeNameOffset)) = row.typeName
  fieldName_eq :
    mem.string (mem.word (entry + g.gHotSpotVMStructEntryFieldNameOffset)) = row.fieldName
  isStatic_iff : mem.int (entry + g.gHotSpotVMStructEntryIsStaticOffset) ≠ 0 ↔ row.isStatic
  offset_eq : mem.word (entry + g.gHotSpotVMStructEntryOffsetOffset) = row.offset
  address_eq : mem.word (entry + g.gHotSpotVMStructEntryAddressOffset) = row.address

/-- The end of the table of the fields lies at the address. -/
def StructsEndAt (mem : VmMemory) (g : HotSpotGlobals) (entry : UInt64) : Prop :=
  mem.word (entry + g.gHotSpotVMStructEntryTypeNameOffset) = 0 ∨
    mem.word (entry + g.gHotSpotVMStructEntryFieldNameOffset) = 0

/-- A row of the table of the types. -/
structure TypeRow where
  typeName : String
  size : UInt64

/-- The row lies at the address. -/
structure TypeRow.At (mem : VmMemory) (g : HotSpotGlobals) (entry : UInt64) (row : TypeRow) :
    Prop where
  typeName_ne : mem.word (entry + g.gHotSpotVMTypeEntryTypeNameOffset) ≠ 0
  typeName_eq :
    mem.string (mem.word (entry + g.gHotSpotVMTypeEntryTypeNameOffset)) = row.typeName
  size_eq : mem.word (entry + g.gHotSpotVMTypeEntrySizeOffset) = row.size

/-- The end of the table of the types lies at the address. -/
def TypesEndAt (mem : VmMemory) (g : HotSpotGlobals) (entry : UInt64) : Prop :=
  mem.word (entry + g.gHotSpotVMTypeEntryTypeNameOffset) = 0

/-- The contents of the two tables. -/
structure VmTables where
  structs : List StructRow
  types : List TypeRow

/-- The tables lie where the variables say. -/
structure VmTables.LaidOut (tables : VmTables) (mem : VmMemory) (g : HotSpotGlobals) : Prop where
  structs : Loop.TableAt (StructRow.At mem g) (StructsEndAt mem g)
    (· + g.gHotSpotVMStructEntryArrayStride) g.gHotSpotVMStructs tables.structs
  types : Loop.TableAt (TypeRow.At mem g) (TypesEndAt mem g)
    (· + g.gHotSpotVMTypeEntryArrayStride) g.gHotSpotVMTypes tables.types

/-- The names that `init` looks up, in its order. -/
def globalNames : List String :=
  ["gHotSpotVMStructs", "gHotSpotVMTypes", "gHotSpotVMIntConstants", "gHotSpotVMLongConstants",
    "gHotSpotVMStructEntryTypeNameOffset", "gHotSpotVMStructEntryFieldNameOffset",
    "gHotSpotVMStructEntryTypeStringOffset", "gHotSpotVMStructEntryIsStaticOffset",
    "gHotSpotVMStructEntryOffsetOffset", "gHotSpotVMStructEntryAddressOffset",
    "gHotSpotVMStructEntryArrayStride", "gHotSpotVMTypeEntryTypeNameOffset",
    "gHotSpotVMTypeEntrySuperclassNameOffset", "gHotSpotVMTypeEntryIsOopTypeOffset",
    "gHotSpotVMTypeEntryIsIntegerTypeOffset", "gHotSpotVMTypeEntryIsUnsignedOffset",
    "gHotSpotVMTypeEntrySizeOffset", "gHotSpotVMTypeEntryArrayStride",
    "gHotSpotVMIntConstantEntryNameOffset", "gHotSpotVMIntConstantEntryValueOffset",
    "gHotSpotVMIntConstantEntryArrayStride", "gHotSpotVMLongConstantEntryNameOffset",
    "gHotSpotVMLongConstantEntryValueOffset", "gHotSpotVMLongConstantEntryArrayStride"]

/-- The failure of the lookup of a variable, if it is missing. -/
def missingVariable (symbols : String → UInt64) (varName : String) : Option Failure :=
  if symbols varName = 0 then some (.exception (.runtimeError (varName ++ " not found!").toList))
  else none

/-- The values of the variables. -/
def globalsAt (mem : VmMemory) (symbols : String → UInt64) : HotSpotGlobals where
  gHotSpotVMStructs := mem.word (symbols "gHotSpotVMStructs")
  gHotSpotVMTypes := mem.word (symbols "gHotSpotVMTypes")
  gHotSpotVMIntConstants := mem.word (symbols "gHotSpotVMIntConstants")
  gHotSpotVMLongConstants := mem.word (symbols "gHotSpotVMLongConstants")
  gHotSpotVMStructEntryTypeNameOffset := mem.word (symbols "gHotSpotVMStructEntryTypeNameOffset")
  gHotSpotVMStructEntryFieldNameOffset := mem.word (symbols "gHotSpotVMStructEntryFieldNameOffset")
  gHotSpotVMStructEntryTypeStringOffset :=
    mem.word (symbols "gHotSpotVMStructEntryTypeStringOffset")
  gHotSpotVMStructEntryIsStaticOffset := mem.word (symbols "gHotSpotVMStructEntryIsStaticOffset")
  gHotSpotVMStructEntryOffsetOffset := mem.word (symbols "gHotSpotVMStructEntryOffsetOffset")
  gHotSpotVMStructEntryAddressOffset := mem.word (symbols "gHotSpotVMStructEntryAddressOffset")
  gHotSpotVMStructEntryArrayStride := mem.word (symbols "gHotSpotVMStructEntryArrayStride")
  gHotSpotVMTypeEntryTypeNameOffset := mem.word (symbols "gHotSpotVMTypeEntryTypeNameOffset")
  gHotSpotVMTypeEntrySuperclassNameOffset :=
    mem.word (symbols "gHotSpotVMTypeEntrySuperclassNameOffset")
  gHotSpotVMTypeEntryIsOopTypeOffset := mem.word (symbols "gHotSpotVMTypeEntryIsOopTypeOffset")
  gHotSpotVMTypeEntryIsIntegerTypeOffset :=
    mem.word (symbols "gHotSpotVMTypeEntryIsIntegerTypeOffset")
  gHotSpotVMTypeEntryIsUnsignedOffset := mem.word (symbols "gHotSpotVMTypeEntryIsUnsignedOffset")
  gHotSpotVMTypeEntrySizeOffset := mem.word (symbols "gHotSpotVMTypeEntrySizeOffset")
  gHotSpotVMTypeEntryArrayStride := mem.word (symbols "gHotSpotVMTypeEntryArrayStride")
  gHotSpotVMIntConstantEntryNameOffset := mem.word (symbols "gHotSpotVMIntConstantEntryNameOffset")
  gHotSpotVMIntConstantEntryValueOffset :=
    mem.word (symbols "gHotSpotVMIntConstantEntryValueOffset")
  gHotSpotVMIntConstantEntryArrayStride :=
    mem.word (symbols "gHotSpotVMIntConstantEntryArrayStride")
  gHotSpotVMLongConstantEntryNameOffset :=
    mem.word (symbols "gHotSpotVMLongConstantEntryNameOffset")
  gHotSpotVMLongConstantEntryValueOffset :=
    mem.word (symbols "gHotSpotVMLongConstantEntryValueOffset")
  gHotSpotVMLongConstantEntryArrayStride :=
    mem.word (symbols "gHotSpotVMLongConstantEntryArrayStride")

/-! ## Directories -/

/-- What a code cache can be created from: the size of a type, and the offsets of the fields of a
type that has fields. -/
@[ext]
structure Directory where
  size : String → Option UInt64
  fields : String → Option (String → Option UInt64)

/-- The offsets of the fields of a map. -/
def FieldMap.offsets (fields : FieldMap) (name : String) : Option UInt64 :=
  (fields name).map Field.offset

/-- The directory of `types_`. -/
def TypeMap.directory (types : TypeMap) : Directory where
  size name := (types name).map VMTypeEntry.size
  fields name := ((types name).bind VMTypeEntry.fields).map FieldMap.offsets

/-- The location of a field by the rows: the first row of the field counts. -/
def fieldLocation (rows : List StructRow) (type field : String) : Option UInt64 :=
  (rows.find? fun row => row.typeName = type ∧ row.fieldName = field).map StructRow.location

/-- The fields of a type by the rows, if it has any. -/
def fieldLocations (rows : List StructRow) (type : String) : Option (String → Option UInt64) :=
  if type ∈ rows.map StructRow.typeName then some (fieldLocation rows type) else none

/-- The size of a type by the rows: the last row of the type counts. -/
def typeSize (rows : List TypeRow) (type : String) : Option UInt64 :=
  (rows.reverse.find? fun row => row.typeName = type).map TypeRow.size

/-- The directory of the two tables. -/
def VmTables.directory (tables : VmTables) : Directory where
  size := typeSize tables.types
  fields type := if type ∈ tables.types.map TypeRow.typeName then
    fieldLocations tables.structs type else none

namespace Directory

/-- Something that a constructor looks up: a type, or a field of a type. -/
inductive Requirement
  | type (name : String)
  | field (type name : String)

/-- How the lookup of a requirement fails, if it does. A missing name is reported; to look in the
fields of a type without any is to follow a null pointer. -/
def failure (d : Directory) : Requirement → Option Failure
  | .type name =>
    if (d.size name).isSome then none else some (.exception (notFoundInVmStructs name))
  | .field type name =>
    match d.fields type with
    | none => some .undefined
    | some offsets =>
      if (offsets name).isSome then none else some (.exception (notFoundInVmStructs name))

/-- The type whose field `_method` leads from a compiled method to its `Method`. -/
def compiledMethodType (d : Directory) : String :=
  if (d.size "CompiledMethod").isSome then "CompiledMethod" else "nmethod"

/-- What the constructor of `JVMCodeCache` looks up, in its order. -/
def requirements (d : Directory) : List Requirement :=
  [.type d.compiledMethodType, .field d.compiledMethodType "_method",
    .type "Method", .field "Method" "_constMethod",
    .type "ConstMethod", .field "ConstMethod" "_constants", .field "ConstMethod" "_method_idnum",
    .type "ConstantPool", .field "ConstantPool" "_pool_holder",
    .type "InstanceKlass", .field "InstanceKlass" "_methods_jmethod_ids",
    .type "GrowableArrayBase",
    .type "CodeBlob", .field "CodeBlob" "_name",
    .type "GrowableArray<int>",
    .type "CodeHeap", .field "CodeHeap" "_memory", .field "CodeHeap" "_segmap",
    .field "CodeHeap" "_log2_segment_size",
    .type "VirtualSpace", .field "VirtualSpace" "_low", .field "VirtualSpace" "_high",
    .type "CodeCache", .field "CodeCache" "_heaps",
    .field "GrowableArray<int>" "_data", .field "GrowableArrayBase" "_len",
    .type "HeapBlock"]

/-- The offset of a field that is there. -/
def offset (d : Directory) (type field : String) : UInt64 :=
  ((d.fields type).bind fun offsets => offsets field).getD 0

/-- The code cache with the offsets of the directory. -/
def codeCache (d : Directory) (mem : VmMemory) : JVMCodeCache :=
  let heaps := mem.word (d.offset "CodeCache" "_heaps")
  { vm := {
      compiledMethod := d.offset d.compiledMethodType "_method"
      constMethod := d.offset "Method" "_constMethod"
      constants := d.offset "ConstMethod" "_constants"
      methodIdNum := d.offset "ConstMethod" "_method_idnum"
      poolHolder := d.offset "ConstantPool" "_pool_holder"
      jmethodIds := d.offset "InstanceKlass" "_methods_jmethod_ids"
      codeBlobName := d.offset "CodeBlob" "_name"
      memory := d.offset "CodeHeap" "_memory"
      segmap := d.offset "CodeHeap" "_segmap"
      log2SegmentSize := d.offset "CodeHeap" "_log2_segment_size"
      low := d.offset "VirtualSpace" "_low"
      high := d.offset "VirtualSpace" "_high"
      heapBlockTypeSize := (d.size "HeapBlock").getD 0 }
    heaps := heaps
    heapsData := mem.word (heaps + d.offset "GrowableArray<int>" "_data")
    heapsLength := heaps + d.offset "GrowableArrayBase" "_len" }

end Directory

/-! ## The walks build the directory of the tables -/

/-- The maps behind the pointers of `vm_structs_` are those of the rows. -/
def FieldsOf (rows : List StructRow) (vmStructs : FieldMaps) : Prop :=
  ∀ type, ((vmStructs type).join.map FieldMap.offsets) = fieldLocations rows type

lemma fieldLocation_append_singleton (rows : List StructRow) (row : StructRow)
    (type field : String) :
    fieldLocation (rows ++ [row]) type field =
      (fieldLocation rows type field).or
        (if row.typeName = type ∧ row.fieldName = field then some row.location else none) := by
  unfold fieldLocation
  rw [List.find?_append, Option.map_or, List.find?_singleton]
  by_cases h : row.typeName = type ∧ row.fieldName = field
  · rw [if_pos h, if_pos (decide_eq_true h)]
    rfl
  · rw [if_neg h, if_neg (by simpa using h)]
    rfl

/-- A row does not touch the fields of the other types. -/
lemma fieldLocations_append_of_ne {rows : List StructRow} {row : StructRow} {type : String}
    (h : row.typeName ≠ type) :
    fieldLocations (rows ++ [row]) type = fieldLocations rows type := by
  have hlocation : fieldLocation (rows ++ [row]) type = fieldLocation rows type := by
    funext field
    rw [fieldLocation_append_singleton, if_neg fun hand => h hand.1, Option.or_none]
  unfold fieldLocations
  rw [hlocation]
  simp [h.symm]

/-- A type without rows has no field. -/
lemma getD_fieldLocations (rows : List StructRow) (type : String) :
    ((fieldLocations rows type).getD fun _ => none) = fieldLocation rows type := by
  unfold fieldLocations
  split_ifs with hmem
  · rfl
  · funext field
    have hnone : rows.find? (fun row => row.typeName = type ∧ row.fieldName = field) = none := by
      refine List.find?_eq_none.mpr fun row hrow htrue => hmem ?_
      exact List.mem_map.mpr ⟨row, hrow, (of_decide_eq_true htrue).1⟩
    rw [fieldLocation, hnone]
    rfl

/-- A row adds its field to its type, unless the field is there. -/
lemma fieldLocations_append_self (rows : List StructRow) (row : StructRow) :
    fieldLocations (rows ++ [row]) row.typeName =
      some fun field => (((fieldLocations rows row.typeName).getD fun _ => none) field).or
        (if row.fieldName = field then some row.location else none) := by
  rw [getD_fieldLocations, fieldLocations, if_pos (by simp)]
  congr 1
  funext field
  rw [fieldLocation_append_singleton]
  simp only [true_and]

/-- The offset that is read for a row is the location of its field. -/
lemma readField_offset {mem : VmMemory} {g : HotSpotGlobals} {entry : UInt64} {row : StructRow}
    (h : row.At mem g entry) : (readField mem g entry).offset = row.location := by
  unfold readField StructRow.location
  by_cases hstatic : row.isStatic
  · rw [if_pos hstatic, ← h.address_eq]
    exact if_pos (h.isStatic_iff.mpr hstatic)
  · rw [if_neg hstatic, ← h.offset_eq]
    exact if_neg (mt h.isStatic_iff.mp hstatic)

/-- Inserting a field, in terms of the offsets. -/
lemma offsets_insert (fields : FieldMap) (key : String) (field : Field) :
    (fields.insert key field).offsets =
      fun name => (fields.offsets name).or (if key = name then some field.offset else none) := by
  funext name
  unfold FieldMap.insert FieldMap.offsets
  by_cases hkey : key = name
  · subst hkey
    rw [if_pos rfl]
    cases hfield : fields key with
    | some old => simp [hfield]
    | none => simp
  · rw [if_neg hkey, Option.or_none]
    split_ifs with hsome
    · rfl
    · rw [Function.update_of_ne (Ne.symm hkey)]

/-- An iteration of `resolveVMStructs` at a row adds the row.

**Proof sketch.** The map that the row is inserted into has the fields of the rows before it, none
for a type that comes up for the first time; so after the insertion it has those of the row too. The
other types keep their maps. -/
lemma FieldsOf.step {mem : VmMemory} {g : HotSpotGlobals} {entry : UInt64} {row : StructRow}
    {rows : List StructRow} {vmStructs : FieldMaps} (hrow : row.At mem g entry)
    (hfields : FieldsOf rows vmStructs) (hnull : ∀ type, vmStructs type ≠ some none) :
    ∃ vmStructs', resolveVMStructsStep mem g (entry, vmStructs) =
        some (.yield (entry + g.gHotSpotVMStructEntryArrayStride, vmStructs')) ∧
      FieldsOf (rows ++ [row]) vmStructs' ∧ ∀ type, vmStructs' type ≠ some none := by
  have hgo : ¬ (mem.word (entry + g.gHotSpotVMStructEntryTypeNameOffset) = 0 ∨
      (readField mem g entry).fieldName = 0) := by
    rintro (h | h)
    · exact hrow.typeName_ne h
    · exact hrow.fieldName_ne h
  obtain ⟨fields, hfound, hoffsets⟩ : ∃ fields : FieldMap,
      vmStructs.searchFields row.typeName = some fields ∧
      fields.offsets = (fieldLocations rows row.typeName).getD fun _ => none := by
    rw [← hfields row.typeName, FieldMaps.searchFields]
    cases hsearch : vmStructs row.typeName with
    | none => exact ⟨fun _ => none, rfl, rfl⟩
    | some second =>
      cases second with
      | none => exact absurd hsearch (hnull _)
      | some fields => exact ⟨fields, rfl, rfl⟩
  refine ⟨Function.update vmStructs row.typeName
    (some (some (fields.insert row.fieldName (readField mem g entry)))), ?_, ?_, ?_⟩
  · have hname : mem.string (readField mem g entry).fieldName = row.fieldName := hrow.fieldName_eq
    simp only [resolveVMStructsStep, if_neg hgo, hrow.typeName_eq, hname, hfound]
  · intro type
    by_cases htype : row.typeName = type
    · subst htype
      rw [Function.update_self, fieldLocations_append_self, ← hoffsets]
      simp only [Option.join_some, Option.map_some, offsets_insert, readField_offset hrow]
    · rw [Function.update_of_ne (Ne.symm htype), fieldLocations_append_of_ne htype]
      exact hfields type
  · intro type
    by_cases htype : type = row.typeName
    · subst htype
      rw [Function.update_self]
      exact fun h => nomatch h
    · rw [Function.update_of_ne htype]
      exact hnull type

/-- `resolveVMStructs` ends on a table in the memory, with the maps of its rows. -/
lemma exists_resolveVMStructs {mem : VmMemory} {g : HotSpotGlobals} {rows : List StructRow}
    (htable : Loop.TableAt (StructRow.At mem g) (StructsEndAt mem g)
      (· + g.gHotSpotVMStructEntryArrayStride) g.gHotSpotVMStructs rows)
    {n : ℕ} (hn : rows.length < n) :
    ∃ vmStructs, resolveVMStructs mem g n = some vmStructs ∧ FieldsOf rows vmStructs := by
  obtain ⟨q, vmStructs, hrun, hfields, -⟩ : ∃ q vmStructs,
      Loop.run (resolveVMStructsStep mem g) n (g.gHotSpotVMStructs, fun _ => none) =
        some (q, vmStructs) ∧ FieldsOf rows vmStructs ∧ ∀ type, vmStructs type ≠ some none :=
    Loop.exists_run_of_table
      (I := fun rows vmStructs => FieldsOf rows vmStructs ∧ ∀ type, vmStructs type ≠ some none)
      (fun p row rows vmStructs hrow hinv => FieldsOf.step hrow hinv.1 hinv.2)
      (fun p vmStructs hend => if_pos hend) htable ⟨fun type => rfl, fun type h => nomatch h⟩ hn
  exact ⟨vmStructs, by rw [resolveVMStructs, hrun]; rfl, hfields⟩

/-- Touching a key leads to no other map. -/
lemma FieldMaps.join_touch (vmStructs : FieldMaps) (key type : String) :
    (vmStructs.touch key type).join = (vmStructs type).join := by
  unfold FieldMaps.touch
  split_ifs with hnone
  · by_cases htype : type = key
    · subst htype
      rw [Function.update_self, Option.isNone_iff_eq_none.mp hnone]
      rfl
    · rw [Function.update_of_ne htype]
  · rfl

/-- Setting a type, in terms of the directory. -/
lemma directory_update (types : TypeMap) (key : String) (entry : VMTypeEntry) :
    TypeMap.directory (Function.update types key (some entry)) =
      { size := Function.update types.directory.size key (some entry.size)
        fields := Function.update types.directory.fields key
          (entry.fields.map FieldMap.offsets) } := by
  ext1
  · funext type
    by_cases htype : type = key
    · subst htype
      simp [TypeMap.directory]
    · simp [TypeMap.directory, htype]
  · funext type
    by_cases htype : type = key
    · subst htype
      simp [TypeMap.directory]
    · simp [TypeMap.directory, htype]

/-- A further row of the table of the types replaces the rows of its type. -/
lemma VmTables.directory_append (structs : List StructRow) (rows : List TypeRow) (row : TypeRow) :
    (VmTables.mk structs (rows ++ [row])).directory =
      { size := Function.update (typeSize rows) row.typeName (some row.size)
        fields := Function.update (VmTables.mk structs rows).directory.fields row.typeName
          (fieldLocations structs row.typeName) } := by
  ext1
  · funext type
    simp only [VmTables.directory, typeSize, List.reverse_append, List.reverse_singleton,
      List.singleton_append, List.find?_cons]
    by_cases htype : type = row.typeName
    · subst htype
      simp
    · rw [Function.update_of_ne htype, decide_eq_false (Ne.symm htype)]
      rfl
  · funext type
    by_cases htype : type = row.typeName
    · subst htype
      simp [VmTables.directory]
    · simp [VmTables.directory, htype]

/-- What `resolveVMTypes` establishes: the types of the rows are there, with the size of their last
row and the fields of the other table. -/
def TypesOf (structs : List StructRow) (rows : List TypeRow) (state : FieldMaps × TypeMap) : Prop :=
  FieldsOf structs state.1 ∧ state.2.directory = (VmTables.mk structs rows).directory

/-- An iteration of `resolveVMTypes` at a row sets the type of the row. -/
lemma TypesOf.step {mem : VmMemory} {g : HotSpotGlobals} {entry : UInt64} {row : TypeRow}
    {structs : List StructRow} {rows : List TypeRow} {state : FieldMaps × TypeMap}
    (hrow : row.At mem g entry) (htypes : TypesOf structs rows state) :
    ∃ state', resolveVMTypesStep mem g (entry, state) =
        some (.yield (entry + g.gHotSpotVMTypeEntryArrayStride, state')) ∧
      TypesOf structs (rows ++ [row]) state' := by
  obtain ⟨vmStructs, types⟩ := state
  obtain ⟨hfields, hdirectory⟩ := htypes
  refine ⟨_, (if_neg hrow.typeName_ne).trans rfl, ?_, ?_⟩
  · intro type
    rw [FieldMaps.join_touch]
    exact hfields type
  · dsimp only at hdirectory ⊢
    rw [directory_update, hdirectory, FieldMaps.join_touch, hfields, hrow.typeName_eq,
      hrow.size_eq, VmTables.directory_append]
    rfl

/-- **The maps have the directory of the tables.** On tables in the memory both walks end, and the
map of the types that they build has the directory of the tables. -/
lemma directory_resolveVMTypes {mem : VmMemory} {g : HotSpotGlobals} {tables : VmTables}
    (hlaidOut : tables.LaidOut mem g) {n : ℕ} (hstructs : tables.structs.length < n)
    (htypes : tables.types.length < n) :
    ∃ vmStructs types, resolveVMStructs mem g n = some vmStructs ∧
      resolveVMTypes mem g vmStructs n = some types ∧ types.directory = tables.directory := by
  obtain ⟨vmStructs, hvmStructs, hfields⟩ := exists_resolveVMStructs hlaidOut.structs hstructs
  obtain ⟨q, state, hrun, -, hdirectory⟩ : ∃ q state,
      Loop.run (resolveVMTypesStep mem g) n (g.gHotSpotVMTypes, vmStructs, fun _ => none) =
        some (q, state) ∧ TypesOf tables.structs tables.types state :=
    Loop.exists_run_of_table (I := TypesOf tables.structs)
      (fun p row rows state hrow hinv => TypesOf.step hrow hinv)
      (fun p state hend => if_pos hend) hlaidOut.types ⟨hfields, rfl⟩ htypes
  exact ⟨vmStructs, state.2, hvmStructs, by rw [resolveVMTypes, hrun]; rfl, hdirectory⟩

/-! ## The constructor of the code cache -/

/-- A lookup in a map is a check. -/
lemma getIfContains_eq_guard {α : Type} [Inhabited α] (map : String → Option α) (key : String) :
    getIfContains map key =
      Outcome.guard (if (map key).isSome then none else some (.exception (notFoundInVmStructs key)))
        ((map key).getD default) := by
  rw [getIfContains]
  cases map key <;> rfl

namespace TypeMap

/-- The entry of a type that is there. -/
def entry (types : TypeMap) (name : String) : VMTypeEntry := (types name).getD default

/-- A field that is there. -/
def field (types : TypeMap) (type name : String) : Field :=
  (((types type).bind VMTypeEntry.fields).bind fun fields => fields name).getD default

lemma directory_size (types : TypeMap) (name : String) :
    types.directory.size name = (types name).map VMTypeEntry.size := rfl

lemma directory_fields (types : TypeMap) (type : String) :
    types.directory.fields type =
      ((types type).bind VMTypeEntry.fields).map FieldMap.offsets := rfl

lemma directory_offset (types : TypeMap) (type name : String) :
    types.directory.offset type name = (types.field type name).offset := by
  rw [Directory.offset, directory_fields, TypeMap.field]
  cases (types type).bind VMTypeEntry.fields with
  | none => rfl
  | some fields =>
    simp only [Option.map_some, Option.bind_some, FieldMap.offsets]
    cases fields name <;> rfl

lemma getD_directory_size (types : TypeMap) (name : String) :
    (types.directory.size name).getD 0 = (types.entry name).size := by
  rw [directory_size, entry]
  cases types name <;> rfl

/-- Looking up a type. -/
lemma getIfContains_eq (types : TypeMap) (name : String) :
    getIfContains types name =
      Outcome.guard (types.directory.failure (.type name)) (types.entry name) := by
  rw [getIfContains_eq_guard, Directory.failure, directory_size, Option.isSome_map, entry]

/-- Looking up a field of a type that has been looked up. -/
lemma getField_eq (types : TypeMap) (type name : String) :
    (types.entry type).getField name =
      Outcome.guard (types.directory.failure (.field type name)) (types.field type name) := by
  simp only [Directory.failure, directory_fields, TypeMap.field, entry, VMTypeEntry.getField]
  cases types type with
  | none => rfl
  | some type =>
    simp only [Option.getD_some, Option.bind_some]
    cases type.fields with
    | none => rfl
    | some fields =>
      simp only [Option.map_some, FieldMap.offsets, Option.bind_some, Option.isSome_map]
      exact getIfContains_eq_guard fields name

/-- A type and one of its fields. -/
lemma compiledMethodField_eq (types : TypeMap) :
    JVMCodeCache.compiledMethodField types =
      Outcome.afterChecks
        [types.directory.failure (.type types.directory.compiledMethodType),
          types.directory.failure (.field types.directory.compiledMethodType "_method")]
        (types.field types.directory.compiledMethodType "_method") := by
  have hfield : ∀ type, (do
      let compiledMethodType ← getIfContains types type
      compiledMethodType.getField "_method") = Outcome.afterChecks
        [types.directory.failure (.type type), types.directory.failure (.field type "_method")]
        (types.field type "_method") := by
    intro type
    refine Outcome.bind_guard (types.getIfContains_eq type) fun _ => ?_
    rw [types.getField_eq]
    cases types.directory.failure (.field type "_method") <;> rfl
  have hsome : (types.directory.size "CompiledMethod").isSome =
      (types "CompiledMethod").isSome := by
    rw [directory_size, Option.isSome_map]
  rw [JVMCodeCache.compiledMethodField, Directory.compiledMethodType, hsome]
  split_ifs
  · exact hfield _
  · exact hfield _

end TypeMap

/-- **The constructor of the code cache** depends on the directory of its map only: it fails as the
first requirement that is not met, and otherwise has the offsets of the directory.

**Proof sketch.** One step for each lookup of the source, in its order. -/
lemma create_eq (mem : VmMemory) (types : TypeMap) :
    JVMCodeCache.create mem types =
      Outcome.afterChecks (types.directory.requirements.map types.directory.failure)
        (types.directory.codeCache mem) := by
  unfold JVMCodeCache.create Directory.requirements
  simp only [List.map_cons, List.map_nil]
  refine Outcome.bind_afterChecks types.compiledMethodField_eq fun _ => ?_
  have htype : ∀ {α : Type} {name : String} {f : VMTypeEntry → Outcome α} {cs a},
      f (types.entry name) = Outcome.afterChecks cs a →
      (getIfContains types name >>= f) =
        Outcome.afterChecks (types.directory.failure (.type name) :: cs) a :=
    fun h => Outcome.bind_guard (types.getIfContains_eq _) fun _ => h
  have hfield : ∀ {α : Type} {type name : String} {f : Field → Outcome α} {cs a},
      f (types.field type name) = Outcome.afterChecks cs a →
      ((types.entry type).getField name >>= f) =
        Outcome.afterChecks (types.directory.failure (.field type name) :: cs) a :=
    fun h => Outcome.bind_guard (types.getField_eq _ _) fun _ => h
  iterate 25 first | refine htype ?_ | refine hfield ?_
  rw [Outcome.afterChecks_nil]
  simp only [Directory.codeCache, TypeMap.directory_offset, TypeMap.getD_directory_size]

/-! ## The start -/

/-- `init` looks up one variable after the other.

**Proof sketch.** One step for each variable. -/
lemma init_eq (mem : VmMemory) (symbols : String → UInt64) :
    init mem symbols =
      Outcome.afterChecks (globalNames.map (missingVariable symbols)) (globalsAt mem symbols) := by
  have hvariable : ∀ {α : Type} {name : String} {f : UInt64 → Outcome α} {cs a},
      f (mem.word (symbols name)) = Outcome.afterChecks cs a →
      (getVariable mem symbols name >>= f) =
        Outcome.afterChecks (missingVariable symbols name :: cs) a := by
    intro α name f cs a hf
    refine Outcome.bind_guard ?_ fun _ => hf
    rw [getVariable, missingVariable]
    split_ifs <;> rfl
  unfold init globalNames
  simp only [List.map_cons, List.map_nil]
  iterate 24 refine hvariable ?_
  rfl

/-- No variable is missing iff each has an address. -/
lemma forall_missingVariable_iff {symbols : String → UInt64} :
    (∀ c ∈ globalNames.map (missingVariable symbols), c = none) ↔
      ∀ name ∈ globalNames, symbols name ≠ 0 := by
  simp [missingVariable]

/-- **The start of the agent.** On memory where the two tables of the VM lie, the start either
creates the code cache with the offsets and sizes of the tables, or fails in the way of the first of
these that is missing: the variables, in the order of `init`, and then the types and fields, in the
order of the constructor of `JVMCodeCache`. For a field with several rows the first one counts, for
a type the last one; a static field is found at its address; a type with no field at all makes the
start undefined as soon as a field of it is looked up. -/
theorem startVm_eq (mem : VmMemory) (symbols : String → UInt64) (tables : VmTables) (n : ℕ)
    (hlaidOut : (∀ name ∈ globalNames, symbols name ≠ 0) →
      tables.LaidOut mem (globalsAt mem symbols))
    (hstructs : tables.structs.length < n) (htypes : tables.types.length < n) :
    startVm mem symbols n =
      Outcome.afterChecks
        (globalNames.map (missingVariable symbols) ++
          tables.directory.requirements.map tables.directory.failure)
        (tables.directory.codeCache mem) := by
  refine Outcome.bind_afterChecks (init_eq mem symbols) fun hpresent => ?_
  obtain ⟨vmStructs, types, hvmStructs, htypes, hdirectory⟩ := directory_resolveVMTypes
    (hlaidOut (forall_missingVariable_iff.mp hpresent)) hstructs htypes
  rw [hvmStructs]
  change (ExceptT.lift (resolveVMTypes mem (globalsAt mem symbols) vmStructs n) >>=
    fun types => JVMCodeCache.create mem types) = _
  rw [htypes, ← hdirectory]
  exact create_eq mem types

/-- Tables with what the code cache needs, as a VM without `CompiledMethod` has them. -/
def sampleTables : VmTables where
  structs :=
    [⟨"nmethod", "_method", false, 24, 0⟩, ⟨"Method", "_constMethod", false, 8, 0⟩,
      ⟨"ConstMethod", "_constants", false, 8, 0⟩, ⟨"ConstMethod", "_method_idnum", false, 46, 0⟩,
      ⟨"ConstantPool", "_pool_holder", false, 24, 0⟩,
      ⟨"InstanceKlass", "_methods_jmethod_ids", false, 304, 0⟩,
      ⟨"GrowableArrayBase", "_len", false, 0, 0⟩, ⟨"CodeBlob", "_name", false, 40, 0⟩,
      ⟨"GrowableArray<int>", "_data", false, 8, 0⟩, ⟨"CodeHeap", "_memory", false, 8, 0⟩,
      ⟨"CodeHeap", "_segmap", false, 120, 0⟩, ⟨"CodeHeap", "_log2_segment_size", false, 252, 0⟩,
      ⟨"VirtualSpace", "_low", false, 16, 0⟩, ⟨"VirtualSpace", "_high", false, 24, 0⟩,
      ⟨"CodeCache", "_heaps", true, 0, 0x5000⟩]
  types :=
    [⟨"nmethod", 240⟩, ⟨"Method", 88⟩, ⟨"ConstMethod", 56⟩, ⟨"ConstantPool", 72⟩,
      ⟨"InstanceKlass", 472⟩, ⟨"GrowableArrayBase", 8⟩, ⟨"CodeBlob", 64⟩,
      ⟨"GrowableArray<int>", 24⟩, ⟨"CodeHeap", 320⟩, ⟨"VirtualSpace", 112⟩, ⟨"CodeCache", 1⟩,
      ⟨"HeapBlock", 16⟩]

/-- The variables for tables at `0x10000` and `0x20000`. -/
def sampleGlobals : List UInt64 :=
  [0x10000, 0x20000, 0x60000, 0x70000, 0, 8, 16, 24, 32, 40, 48, 0, 8, 16, 20, 24, 32, 40, 0, 8, 16,
    0, 8, 16]

/-- The variables lie one after the other from `0x1000` on. -/
def sampleSymbols (name : String) : UInt64 := 0x1000 + 8 * (globalNames.idxOf name).toUInt64

/-- A memory with the variables, the tables, and an array of heaps at `0x6000`. -/
def sampleMemory : VmMemory where
  word a :=
    if a = 0x5000 then 0x6000
    else if a = 0x6008 then 0x7000
    else if a < 0x10000 then sampleGlobals.getD ((a - 0x1000) / 8).toNat 0
    else if a < 0x20000 then
      let i := (a - 0x10000) / 48
      match sampleTables.structs[i.toNat]?, (a - 0x10000) % 48 with
      | none, _ => 0
      | some _, 0 => 0x30000 + i
      | some _, 8 => 0x40000 + i
      | some row, 32 => row.offset
      | some row, 40 => row.address
      | some _, _ => 0
    else
      let i := (a - 0x20000) / 40
      match sampleTables.types[i.toNat]?, (a - 0x20000) % 40 with
      | none, _ => 0
      | some _, 0 => 0x50000 + i
      | some row, 32 => row.size
      | some _, _ => 0
  int a :=
    match sampleTables.structs[((a - 0x10000) / 48).toNat]? with
    | none => 0
    | some row => if row.isStatic then 1 else 0
  u2 _ := 0
  byte _ := 0
  string a :=
    if a < 0x40000 then
      ((sampleTables.structs[(a - 0x30000).toNat]?).map StructRow.typeName).getD ""
    else if a < 0x50000 then
      ((sampleTables.structs[(a - 0x40000).toNat]?).map StructRow.fieldName).getD ""
    else ((sampleTables.types[(a - 0x50000).toNat]?).map TypeRow.typeName).getD ""
  isValid _ := true

lemma globalsAt_sampleMemory : globalsAt sampleMemory sampleSymbols =
    { gHotSpotVMStructs := 0x10000
      gHotSpotVMTypes := 0x20000
      gHotSpotVMIntConstants := 0x60000
      gHotSpotVMLongConstants := 0x70000
      gHotSpotVMStructEntryTypeNameOffset := 0
      gHotSpotVMStructEntryFieldNameOffset := 8
      gHotSpotVMStructEntryTypeStringOffset := 16
      gHotSpotVMStructEntryIsStaticOffset := 24
      gHotSpotVMStructEntryOffsetOffset := 32
      gHotSpotVMStructEntryAddressOffset := 40
      gHotSpotVMStructEntryArrayStride := 48
      gHotSpotVMTypeEntryTypeNameOffset := 0
      gHotSpotVMTypeEntrySuperclassNameOffset := 8
      gHotSpotVMTypeEntryIsOopTypeOffset := 16
      gHotSpotVMTypeEntryIsIntegerTypeOffset := 20
      gHotSpotVMTypeEntryIsUnsignedOffset := 24
      gHotSpotVMTypeEntrySizeOffset := 32
      gHotSpotVMTypeEntryArrayStride := 40
      gHotSpotVMIntConstantEntryNameOffset := 0
      gHotSpotVMIntConstantEntryValueOffset := 8
      gHotSpotVMIntConstantEntryArrayStride := 16
      gHotSpotVMLongConstantEntryNameOffset := 0
      gHotSpotVMLongConstantEntryValueOffset := 8
      gHotSpotVMLongConstantEntryArrayStride := 16 } := by
  simp only [globalsAt, sampleSymbols, globalNames, List.idxOf_cons_self, ne_eq, String.reduceEq,
    not_false_eq_true, List.idxOf_cons_ne]
  rfl

lemma sampleTables_laidOut :
    sampleTables.LaidOut sampleMemory (globalsAt sampleMemory sampleSymbols) := by
  rw [globalsAt_sampleMemory]
  constructor
  · simp only [sampleTables, Loop.TableAt]
    iterate 15 refine ⟨⟨by decide, by decide, rfl, rfl, by decide, rfl, rfl⟩, ?_⟩
    exact Or.inl rfl
  · simp only [sampleTables, Loop.TableAt]
    iterate 12 refine ⟨⟨by decide, rfl, rfl⟩, ?_⟩
    rfl

lemma sampleTables_present :
    ∀ c ∈ globalNames.map (missingVariable sampleSymbols) ++
      sampleTables.directory.requirements.map sampleTables.directory.failure, c = none := by
  decide +kernel

lemma codeCache_sampleTables : sampleTables.directory.codeCache sampleMemory =
    { vm := {
        compiledMethod := 24
        constMethod := 8
        constants := 8
        methodIdNum := 46
        poolHolder := 24
        jmethodIds := 304
        codeBlobName := 40
        memory := 8
        segmap := 120
        log2SegmentSize := 252
        low := 16
        high := 24
        heapBlockTypeSize := 16 }
      heaps := 0x6000
      heapsData := 0x7000
      heapsLength := 0x6000 } := by
  rfl

/-- The start on the sample memory creates the code cache with the offsets of the rows: nothing is
missing. -/
theorem startVm_sampleMemory :
    startVm sampleMemory sampleSymbols 16 = pure
      { vm := {
          compiledMethod := 24
          constMethod := 8
          constants := 8
          methodIdNum := 46
          poolHolder := 24
          jmethodIds := 304
          codeBlobName := 40
          memory := 8
          segmap := 120
          log2SegmentSize := 252
          low := 16
          high := 24
          heapBlockTypeSize := 16 }
        heaps := 0x6000
        heapsData := 0x7000
        heapsLength := 0x6000 } := by
  rw [startVm_eq sampleMemory sampleSymbols sampleTables 16 (fun _ => sampleTables_laidOut)
      (by decide) (by decide), Outcome.afterChecks_of_forall sampleTables_present,
    codeCache_sampleTables]

end KotlinTracer

import Milo.Rust

namespace Milo.Runtime.Wasmi

-- What derive(Debug) prints of a record, of a wrapper, of an option and of a slice.
def debugFields : List (String × String) → String
  | [] => ""
  | [(name, text)] => name ++ ": " ++ text
  | (name, text) :: rest => name ++ ": " ++ text ++ ", " ++ debugFields rest

def debugStruct (name : String) (fields : List (String × String)) : String :=
  name ++ " \x7b " ++ debugFields fields ++ " \x7d"

def debugTuple (name text : String) : String := name ++ "(" ++ text ++ ")"

def debugOption : Option String → String
  | none => "None"
  | some text => debugTuple "Some" text

def debugItems : List String → String
  | [] => ""
  | [text] => text
  | text :: rest => text ++ ", " ++ debugItems rest

def debugSlice (items : List String) : String := "[" ++ debugItems items ++ "]"

inductive ValType where
  | i32
  | i64
  | f32
  | f64
  | v128
  | funcRef
  | externRef

def ValType.debug : ValType → String
  | .i32 => "I32"
  | .i64 => "I64"
  | .f32 => "F32"
  | .f64 => "F64"
  | .v128 => "V128"
  | .funcRef => "FuncRef"
  | .externRef => "ExternRef"

inductive IndexType where
  | i32
  | i64

def IndexType.debug : IndexType → String
  | .i32 => "I32"
  | .i64 => "I64"

inductive Mutability where
  | const
  | var

def Mutability.debug : Mutability → String
  | .const => "Const"
  | .var => "Var"

structure GlobalType where
  content : ValType
  mutability : Mutability

def GlobalType.debug (ty : GlobalType) : String :=
  debugStruct "GlobalType" [("content", ty.content.debug), ("mutability", ty.mutability.debug)]

-- The type around the core's one.
def debugCore (name core : String) : String := debugStruct name [("core", core)]

structure TableType where
  element : ValType
  min : UInt64
  max : Option UInt64
  indexTy : IndexType

def TableType.debug (ty : TableType) : String :=
  debugCore "TableType" (debugStruct "TableType"
    [("element", ty.element.debug), ("min", toString ty.min.toNat),
      ("max", debugOption (ty.max.map fun max => toString max.toNat)), ("index_ty", ty.indexTy.debug)])

structure MemoryType where
  minimum : UInt64
  maximum : Option UInt64
  pageSizeLog2 : UInt8
  indexType : IndexType

def MemoryType.debug (ty : MemoryType) : String :=
  debugCore "MemoryType" (debugStruct "MemoryType" [("inner", debugStruct "MemoryTypeInner"
    [("minimum", toString ty.minimum.toNat),
      ("maximum", debugOption (ty.maximum.map fun maximum => toString maximum.toNat)),
      ("page_size_log2", toString ty.pageSizeLog2.toNat), ("index_type", ty.indexType.debug)])])

structure FuncType where
  params : List ValType
  results : List ValType

def FuncType.debug (ty : FuncType) : String :=
  debugCore "FuncType" (debugStruct "FuncType"
    [("params", debugSlice (ty.params.map ValType.debug)),
      ("results", debugSlice (ty.results.map ValType.debug))])

inductive ExternType where
  | global (ty : GlobalType)
  | table (ty : TableType)
  | memory (ty : MemoryType)
  | func (ty : FuncType)

def ExternType.debug : ExternType → String
  | .global ty => debugTuple "Global" ty.debug
  | .table ty => debugTuple "Table" ty.debug
  | .memory ty => debugTuple "Memory" ty.debug
  | .func ty => debugTuple "Func" ty.debug

-- An entity of a store, which prints under the name of its kind.
structure Stored where
  guardIdx : UInt32
  entityIdx : UInt32

def Stored.debug (kind : String) (entity : Stored) : String :=
  debugTuple kind (debugStruct "GuardedEntity"
    [("guard_idx", debugTuple "StoreIdx" (toString entity.guardIdx.toNat)),
      ("entity_idx", debugTuple (kind ++ "Idx") (toString entity.entityIdx.toNat))])

inductive Extern where
  | global (entity : Stored)
  | table (entity : Stored)
  | memory (entity : Stored)
  | func (entity : Stored)

def Extern.debug : Extern → String
  | .global entity => debugTuple "Global" (entity.debug "Global")
  | .table entity => debugTuple "Table" (entity.debug "Table")
  | .memory entity => debugTuple "Memory" (entity.debug "Memory")
  | .func entity => debugTuple "Func" (entity.debug "Func")

inductive TrapCode where
  | unreachableCodeReached
  | memoryOutOfBounds
  | tableOutOfBounds
  | indirectCallToNull
  | integerDivisionByZero
  | integerOverflow
  | badConversionToInteger
  | stackOverflow
  | badSignature
  | outOfFuel
  | growthOperationLimited

def TrapCode.trapMessage : TrapCode → String
  | .unreachableCodeReached => "wasm \x60unreachable\x60 instruction executed"
  | .memoryOutOfBounds => "out of bounds memory access"
  | .tableOutOfBounds => "undefined element: out of bounds table access"
  | .indirectCallToNull => "uninitialized element 2"
  | .integerDivisionByZero => "integer divide by zero"
  | .integerOverflow => "integer overflow"
  | .badConversionToInteger => "invalid conversion to integer"
  | .stackOverflow => "call stack exhausted"
  | .badSignature => "indirect call type mismatch"
  | .outOfFuel => "all fuel consumed by WebAssembly"
  | .growthOperationLimited => "growth operation limited"

inductive GlobalError where
  | immutableWrite
  | typeMismatch

def GlobalError.display : GlobalError → String
  | .immutableWrite => "tried to write to immutable global variable"
  | .typeMismatch => "tried to write value of non-matching type to global variable"

inductive MemoryError where
  | outOfSystemMemory
  | outOfBoundsGrowth
  | outOfBoundsAccess
  | invalidMemoryType
  | invalidStaticBufferSize
  | resourceLimiterDeniedAllocation
  | minimumSizeOverflow
  | maximumSizeOverflow
  | outOfFuel (requiredFuel : UInt64)

def MemoryError.display : MemoryError → String
  | .outOfSystemMemory => "tried to allocate more virtual memory than available on the system"
  | .outOfBoundsGrowth => "out of bounds memory growth"
  | .outOfBoundsAccess => "out of bounds memory access"
  | .invalidMemoryType => "tried to create an invalid linear memory type"
  | .invalidStaticBufferSize => "tried to use too small static buffer"
  | .resourceLimiterDeniedAllocation =>
      "a resource limiter denied to allocate or grow the linear memory"
  | .minimumSizeOverflow => "the minimum size of the memory type overflows the system index type"
  | .maximumSizeOverflow => "the maximum size of the memory type overflows the system index type"
  | .outOfFuel requiredFuel => "not enough fuel. required=" ++ toString requiredFuel.toNat

inductive TableError where
  | outOfSystemMemory
  | minimumSizeOverflow
  | maximumSizeOverflow
  | resourceLimiterDeniedAllocation
  | growOutOfBounds
  | initOutOfBounds
  | fillOutOfBounds
  | setOutOfBounds
  | copyOutOfBounds
  | elementTypeMismatch
  | outOfFuel (requiredFuel : UInt64)

def TableError.display : TableError → String
  | .outOfSystemMemory => "tried to allocate more virtual memory than available on the system"
  | .minimumSizeOverflow => "the minimum table size overflows the system bounds"
  | .maximumSizeOverflow => "the maximum table size overflows the system bounds"
  | .resourceLimiterDeniedAllocation => "a resource limiter denied to allocate or grow the table"
  | .growOutOfBounds => "out of bounds table access: \x60table.growth\x60"
  | .initOutOfBounds => "out of bounds table access: \x60table.init\x60"
  | .fillOutOfBounds => "out of bounds table access: \x60table.fill\x60"
  | .copyOutOfBounds => "out of bounds table access: \x60table.copy\x60"
  | .setOutOfBounds => "out of bounds table access: \x60table.set\x60"
  | .elementTypeMismatch => "encountered mismatching table element type"
  | .outOfFuel requiredFuel => "not enough fuel: required=" ++ toString requiredFuel.toNat

inductive FuelError where
  | fuelMeteringDisabled
  | outOfFuel (requiredFuel : UInt64)

def FuelError.display : FuelError → String
  | .fuelMeteringDisabled => "fuel metering is disabled"
  | .outOfFuel requiredFuel => "ouf of fuel. required=" ++ toString requiredFuel.toNat

-- The names are the module's.
structure ImportName where
  module : String
  field : String

def ImportName.display (name : ImportName) : String := name.module ++ "::" ++ name.field

inductive LinkerError where
  | duplicateDefinition (importName : ImportName)
  | missingDefinition (name : ImportName) (ty : ExternType)
  | invalidTypeDefinition (name : ImportName) (expected found : ExternType)

def LinkerError.display : LinkerError → String
  | .duplicateDefinition importName =>
      "encountered duplicate definition with name \x60" ++ importName.display ++ "\x60"
  | .missingDefinition name ty =>
      "cannot find definition for import " ++ name.display ++ " with type " ++ ty.debug
  | .invalidTypeDefinition name expected found =>
      "found definition for import " ++ name.display ++ " with type " ++ expected.debug ++
        " but found type " ++ found.debug

inductive InstantiationError where
  | invalidNumberOfImports (required given : UInt64)
  | importsExternalsMismatch (expected : ExternType) (actual : Extern)
  | globalTypeMismatch (expected actual : GlobalType)
  | funcTypeMismatch (expected actual : FuncType)
  | tableTypeMismatch (expected actual : TableType)
  | memoryTypeMismatch (expected actual : MemoryType)
  | elementSegmentDoesNotFit (table : Stored) (tableIndex : UInt64) (len : UInt32)
  | unexpectedStartFn (index : UInt32)
  | tooManyInstances
  | tooManyTables
  | tooManyMemories
  | failedToInstantiateMemory (error : MemoryError)
  | failedToInstantiateTable (error : TableError)

def mismatch (kind expected actual : String) : String :=
  "imported " ++ kind ++ " type mismatch. expected " ++ expected ++ " but found " ++ actual

def InstantiationError.display : InstantiationError → String
  | .invalidNumberOfImports required given =>
      "invalid number of imports: required = " ++ toString required.toNat ++ ", given = " ++
        toString given.toNat
  | .importsExternalsMismatch expected actual =>
      "expected " ++ expected.debug ++ " external for import but found " ++ actual.debug
  | .globalTypeMismatch expected actual => mismatch "global" expected.debug actual.debug
  | .funcTypeMismatch expected actual => mismatch "function" expected.debug actual.debug
  | .tableTypeMismatch expected actual => mismatch "table" expected.debug actual.debug
  | .memoryTypeMismatch expected actual => mismatch "memory" expected.debug actual.debug
  | .elementSegmentDoesNotFit table tableIndex len =>
      "out of bounds table access: " ++ table.debug "Table" ++ " does not fit " ++
        toString len.toNat ++ " elements starting from offset " ++ toString tableIndex.toNat
  | .unexpectedStartFn index => "found an unexpected start function with index " ++ toString index.toNat
  | .tooManyInstances => "tried to instantiate too many instances"
  | .tooManyTables => "tried to instantiate too many tables"
  | .tooManyMemories => "tried to instantiate too many linear memories"
  | .failedToInstantiateMemory error => "failed to instantiate memory: " ++ error.display
  | .failedToInstantiateTable error => "failed to instantiate table: " ++ error.display

inductive FuncError where
  | exportedFuncNotFound
  | mismatchingParameterType
  | mismatchingParameterLen
  | mismatchingResultType
  | mismatchingResultLen

def FuncError.display : FuncError → String
  | .exportedFuncNotFound => "could not find exported function"
  | .mismatchingParameterType => "encountered incorrect function parameter type"
  | .mismatchingParameterLen => "encountered an incorrect number of parameters"
  | .mismatchingResultType => "encountered incorrect function result type"
  | .mismatchingResultLen => "encountered an incorrect number of results"

inductive ReadError where
  | endOfStream
  | unknownError

def ReadError.display : ReadError → String
  | .endOfStream => "encountered unexpected end of stream"
  | .unknownError => "encountered unknown error"

-- The two types are printed by the parser's own code.
inductive TranslationError where
  | unsupportedBlockType (debug : String)
  | unsupportedValueType (debug : String)
  | branchTableTargetsOutOfBounds
  | branchOffsetOutOfBounds
  | blockFuelOutOfBounds
  | allocatedTooManySlots
  | slotOutOfBounds
  | emulatedValueStackOverflow
  | providerSliceOverflow
  | tooManyFuncLocalConstValues
  | tooManyFunctionResults
  | tooManyFunctionParams
  | tooManyLocalVariables
  | lazyCompilationFailed

def TranslationError.display : TranslationError → String
  | .unsupportedBlockType debug => "encountered unsupported Wasm block type: " ++ debug
  | .unsupportedValueType debug => "encountered unsupported Wasm value type: " ++ debug
  | .branchTableTargetsOutOfBounds => "branch table targets are out of bounds for wasmi bytecode"
  | .branchOffsetOutOfBounds => "branching offset is out of bounds for wasmi bytecode"
  | .blockFuelOutOfBounds => "fuel required to execute a block is out of bounds for wasmi bytecode"
  | .allocatedTooManySlots => "translation requires more registers for a function than available"
  | .slotOutOfBounds => "tried to access out of bounds register index"
  | .emulatedValueStackOverflow => "function requires value stack with out of bounds depth"
  | .providerSliceOverflow => "tried to allocate too many or too large provider slices"
  | .tooManyFuncLocalConstValues => "tried to allocate too many function local constant values"
  | .tooManyFunctionResults => "encountered function with too many function results"
  | .tooManyFunctionParams => "encountered function with too many function parameters"
  | .tooManyLocalVariables => "encountered function with too many local variables"
  | .lazyCompilationFailed =>
      "lazy function compilation encountered a Wasm validation or translation error"

inductive EnforcedLimitsError where
  | tooManyGlobals (limit : UInt32)
  | tooManyTables (limit : UInt32)
  | tooManyFunctions (limit : UInt32)
  | tooManyMemories (limit : UInt32)
  | tooManyElementSegments (limit : UInt32)
  | tooManyDataSegments (limit : UInt32)
  | tooManyParameters (limit : UInt64)
  | tooManyResults (limit : UInt64)
  | minAvgBytesPerFunction (limit avg : UInt32)

def exceeds (subject : String) (limit : Nat) (items : String) : String :=
  subject ++ " exceeds the limit of " ++ toString limit ++ items

def EnforcedLimitsError.display : EnforcedLimitsError → String
  | .tooManyGlobals limit => exceeds "the Wasm module" limit.toNat " global variables"
  | .tooManyTables limit => exceeds "the Wasm module" limit.toNat " tables"
  | .tooManyFunctions limit => exceeds "the Wasm modules" limit.toNat " functions"
  | .tooManyMemories limit => exceeds "the Wasm module" limit.toNat " memories"
  | .tooManyElementSegments limit => exceeds "the Wasm module" limit.toNat " active element segments"
  | .tooManyDataSegments limit => exceeds "the Wasm module" limit.toNat " active data segments"
  | .tooManyParameters limit => exceeds "a function type" limit.toNat " parameters"
  | .tooManyResults limit => exceeds "a function type" limit.toNat " results"
  | .minAvgBytesPerFunction limit avg =>
      "the Wasm module failed to meet the minimum average bytes per function of " ++
        toString limit.toNat ++ ": avg=" ++ toString avg.toNat

-- The errors of wasmi, without the text format. The text of a host's error, of a parser's
-- and of the bytecode's is printed elsewhere.
inductive Error where
  | trapCode (error : TrapCode)
  | message (message : String)
  | i32ExitStatus (status : Int32)
  | host (display : String)
  | resumableHostTrap (display : String)
  | resumableOutOfFuel (requiredFuel : UInt64)
  | global (error : GlobalError)
  | memory (error : MemoryError)
  | table (error : TableError)
  | linker (error : LinkerError)
  | instantiation (error : InstantiationError)
  | fuel (error : FuelError)
  | func (error : FuncError)
  | read (error : ReadError)
  | wasm (message : String) (offset : UInt64)
  | translation (error : TranslationError)
  | limits (error : EnforcedLimitsError)
  | ir (display : String)

namespace Error

def display : Error → String
  | .trapCode error => error.trapMessage
  | .message text => text
  | .i32ExitStatus status => "Exited with i32 exit status " ++ toString status.toInt ++ "\n"
  | .host text => text
  | .resumableHostTrap text => text
  | .resumableOutOfFuel requiredFuel =>
      "ran out of fuel while calling a resumable function: required_fuel=" ++
        toString requiredFuel.toNat
  | .global error => error.display
  | .memory error => error.display
  | .table error => error.display
  | .linker error => error.display
  | .instantiation error => error.display
  | .fuel error => error.display
  | .func error => error.display
  | .read error => error.display
  | .wasm text offset =>
      text ++ " (at offset 0x" ++ String.ofList (Nat.toDigits 16 offset.toNat) ++ ")"
  | .translation error => error.display
  | .limits error => error.display
  | .ir text => text

def isOutOfFuel : Error → Bool
  | .trapCode .outOfFuel | .resumableOutOfFuel _ | .memory (.outOfFuel _) | .table (.outOfFuel _)
  | .fuel (.outOfFuel _) => true
  | _ => false

end Error

end Milo.Runtime.Wasmi

import SmoFramework.Compiler.Smir
import SmoFramework.Genesis.Json
import SmoFramework.Library.Attempt
import SmoFramework.Library.WasmBinary

/-! The emitter of WebAssembly modules (`compiler/wasm/wasm_emitter`). Its headers are not part of the
sources: the configuration has the fields that the emitter reads, and the two names that the runtime
gives to host functions are parameters. Sizes of vectors are numbers and do not wrap. -/
namespace SmoFramework.Compiler
open Library Library.Attempt Leb128
open Library.WasmBinary (FuncType sized)

structure HostNames where
  hostNamespace : Bytes
  loggerDebug : Bytes

structure HostImport where
  name : Bytes
  paramTypes : List UInt8 := []
  resultTypes : List UInt8 := []

structure WasmMetadata where
  hasInitialize : Bool := false
  hasValidate : Bool := false
  maxMemoryBytes : UInt64 := 0

structure WasmEmitterConfig where
  imports : List HostImport := []
  metadata : WasmMetadata := {}

def VALTYPE_I32 : UInt8 := 0x7F

def SECTION_TYPE : UInt8 := 1
def SECTION_IMPORT : UInt8 := 2
def SECTION_FUNCTION : UInt8 := 3
def SECTION_MEMORY : UInt8 := 5
def SECTION_EXPORT : UInt8 := 7
def SECTION_CODE : UInt8 := 10

def OP_UNREACHABLE : UInt8 := 0x00
def OP_NOP : UInt8 := 0x01
def OP_IF : UInt8 := 0x04
def OP_ELSE : UInt8 := 0x05
def OP_END : UInt8 := 0x0B
def OP_RETURN : UInt8 := 0x0F
def OP_CALL : UInt8 := 0x10
def OP_LOCAL_GET : UInt8 := 0x20
def OP_LOCAL_SET : UInt8 := 0x21
def OP_I32_LOAD : UInt8 := 0x28
def OP_I32_CONST : UInt8 := 0x41
def BLOCKTYPE_VOID : UInt8 := 0x40

structure FunctionTables where
  importFuncIndices : AssocMap Bytes UInt32 := .empty
  localFuncIndices : AssocMap Bytes UInt32 := .empty
  funcTypes : List FuncType := []

structure WasmEmitter where
  binary : Bytes := []
  localIndices : AssocMap Bytes UInt32 := .empty
  localTypes : List UInt8 := []
  tables : FunctionTables := {}

inductive StollFault
  | invalidArgument
  | outOfRange
  deriving DecidableEq

abbrev Emit := Attempt WasmEmitter StollFault

/-! Bytes. -/

def writeBytes (data : Bytes) : Emit Unit := update fun e => { e with binary := e.binary ++ data }

def writeByte (byte : UInt8) : Emit Unit := writeBytes [byte]

def writeUleb128 (val : ℕ) : Emit Unit := writeBytes (write val)

def sleb128Groups : ℕ → Int64 → Bytes
  | 0,_ => []
  | n+1,val =>
    let byte := val.toUInt64.toUInt8 &&& 0x7F
    let val := val >>> 7
    let signBit := byte &&& 0x40 ≠ 0
    if (val = 0 ∧ ¬signBit) ∨ (val = -1 ∧ signBit) then [byte]
    else (byte ||| 0x80)::sleb128Groups n val

def sleb128 (val : Int64) : Bytes := sleb128Groups 10 val

def writeSleb128 (val : Int64) : Emit Unit := writeBytes (sleb128 val)

/-- `std::stoll`: blanks, a sign, then the digits as far as they go. -/
def stoll (s : Bytes) : Except StollFault Int64 :=
  let (negative,rest) : Bool × Bytes := match s.dropWhile Genesis.isSpace with
    | 45::rest => (true,rest)
    | 43::rest => (false,rest)
    | rest => (false,rest)
  let digits := rest.takeWhile (Numeral.isDigit 10)
  if digits = [] then .error .invalidArgument
  else
    let magnitude : ℤ := Numeral.value 10 digits
    let val := if negative then -magnitude else magnitude
    if val < -2^63 ∨ 2^63 ≤ val then .error .outOfRange else .ok (.ofInt val)

def writeSection (id : UInt8) (payload : Bytes) : Emit Unit := do
  writeByte id
  writeUleb128 payload.length
  writeBytes payload

/-! The function types. -/

variable (t : FunctionTables)

def declareImport (imp : HostImport) : FunctionTables :=
  { t with
    importFuncIndices := t.importFuncIndices.insert imp.name (UInt32.ofNat t.funcTypes.length)
    funcTypes := t.funcTypes ++ [⟨imp.paramTypes,imp.resultTypes⟩] }

def declareLocal (f : Bytes × FuncType) : FunctionTables :=
  { t with
    localFuncIndices := t.localFuncIndices.insert f.1 (UInt32.ofNat t.funcTypes.length)
    funcTypes := t.funcTypes ++ [f.2] }

variable (cfg : WasmEmitterConfig)

def localFunctions : List (Bytes × FuncType) :=
  [(literal "execute",⟨[VALTYPE_I32,VALTYPE_I32],[VALTYPE_I32,VALTYPE_I32]⟩)] ++
  (if cfg.metadata.hasInitialize then
    [(literal "initialize",⟨[VALTYPE_I32,VALTYPE_I32],[VALTYPE_I32]⟩)] else []) ++
  [(literal "shutdown",⟨[],[VALTYPE_I32]⟩)] ++
  (if cfg.metadata.hasValidate then
    [(literal "validate",⟨[VALTYPE_I32,VALTYPE_I32],[VALTYPE_I32]⟩)] else []) ++
  [(literal "metadata",⟨[],[VALTYPE_I32,VALTYPE_I32]⟩)]

def declareTypes (t : FunctionTables) : FunctionTables :=
  (localFunctions cfg).foldl declareLocal (cfg.imports.foldl declareImport t)

def writeFuncType (ft : FuncType) : Bytes := 0x60::(sized ft.params ++ sized ft.results)

def emitTypeSection : Emit Unit := do
  update fun e => { e with tables := declareTypes cfg e.tables }
  let funcTypes ← view (·.tables.funcTypes)
  writeSection SECTION_TYPE (write funcTypes.length ++ funcTypes.flatMap writeFuncType)

/-! Imports, functions, memory and exports. -/

def writeImport (host : HostNames) (t : FunctionTables) (imp : HostImport) : Bytes :=
  sized host.hostNamespace ++ (sized imp.name ++
    (0x00::write ((t.importFuncIndices.find imp.name).getD 0).toNat))

def emitImportSection (host : HostNames) (cfg : WasmEmitterConfig) : Emit Unit := do
  let t ← view (·.tables)
  writeSection SECTION_IMPORT
    (write cfg.imports.length ++ cfg.imports.flatMap (writeImport host t))

def FunctionTables.declared : List Bytes :=
  [literal "execute",literal "initialize",literal "shutdown",literal "validate",
    literal "metadata"].filter t.localFuncIndices.contains

def emitFunctionSection : Emit Unit := do
  let t ← view (·.tables)
  writeSection SECTION_FUNCTION (write t.declared.length ++
    t.declared.flatMap fun name => write ((t.localFuncIndices.find name).getD 0).toNat)

/-- One page at least, and the maximum is the initial size. -/
def initialPages : UInt32 :=
  max 1 (cfg.metadata.maxMemoryBytes/65536).toUInt32

def emitMemorySection : Emit Unit :=
  writeSection SECTION_MEMORY (1::(0x01::(write (initialPages cfg).toNat ++
    write (initialPages cfg).toNat)))

/-- Name, kind and index. The indices of the functions count from 0. -/
def exports (cfg : WasmEmitterConfig) : List (Bytes × UInt8 × UInt32) :=
  let exports := [(literal "execute",0x00,0)]
  let funcIdx : UInt32 := 1
  let (exports,funcIdx) := if cfg.metadata.hasInitialize then
      (exports ++ [(literal "initialize",0x00,funcIdx)],funcIdx+1) else (exports,funcIdx)
  let (exports,funcIdx) := (exports ++ [(literal "shutdown",0x00,funcIdx)],funcIdx+1)
  let (exports,funcIdx) := if cfg.metadata.hasValidate then
      (exports ++ [(literal "validate",0x00,funcIdx)],funcIdx+1) else (exports,funcIdx)
  let exports := exports ++ [(literal "metadata",0x00,funcIdx)]
  exports ++ [(literal "memory",0x02,0)]

def writeExport (e : Bytes × UInt8 × UInt32) : Bytes := sized e.1 ++ (e.2.1::write e.2.2.toNat)

def emitExportSection : Emit Unit :=
  writeSection SECTION_EXPORT (write (exports cfg).length ++ (exports cfg).flatMap writeExport)

/-! Instructions. -/

/-- The new local is entered under its number, not under the name that was asked for. -/
def allocateLocal (wasmType : UInt8) : Emit UInt32 := do
  let idx ← view fun e => UInt32.ofNat e.localTypes.length
  update fun e => { e with
    localIndices := e.localIndices.insert (Genesis.decimal idx.toNat) idx
    localTypes := e.localTypes ++ [wasmType] }
  pure idx

def getLocalIndex (name : Bytes) : Emit UInt32 := do
  match ← view (·.localIndices.find name) with
  | some idx => pure idx
  | none => allocateLocal VALTYPE_I32

def localGet (name : String) : Emit Unit := do
  let idx ← getLocalIndex (literal name)
  writeByte OP_LOCAL_GET
  writeUleb128 idx.toNat

def localSet (name : String) : Emit Unit := do
  let idx ← getLocalIndex (literal name)
  writeByte OP_LOCAL_SET
  writeUleb128 idx.toNat

def i32Const (value : String) : Emit Unit := do
  writeByte OP_I32_CONST
  let val ← lift (stoll (literal value))
  writeSleb128 val

def onlyIf (c : Prop) [Decidable c] (x : Emit Unit) : Emit Unit := if c then x else pure ()

def SmirOperand.inLocal (op : SmirOperand) : Bool := op.type = .identifier ∨ op.type = .temp

def pushOperand (op : SmirOperand) : Emit Unit :=
  if op.type = .literal then i32Const op.value
  else onlyIf op.inLocal (localGet op.value)

def storeResult (dst : SmirOperand) : Emit Unit := onlyIf (dst.type ≠ .none) (localSet dst.value)

section
variable (host : HostNames) (cfg : WasmEmitterConfig) (funcName : Bytes)

def emitCall : Emit Unit := do
  let t ← view (·.tables)
  match t.importFuncIndices.find funcName with
  | some idx => do
    writeByte OP_CALL
    writeUleb128 idx.toNat
  | none => match t.localFuncIndices.find funcName with
    | some idx => do
      let importCount := UInt32.ofNat cfg.imports.length
      writeByte OP_CALL
      writeUleb128 (importCount+idx).toNat
    | none => writeByte OP_UNREACHABLE

variable (instr : SmirInstruction)

def emitLoad : Emit Unit := do
  onlyIf instr.lhs.inLocal (localGet instr.lhs.value)
  onlyIf (instr.rhs.type ≠ .none) do
    onlyIf (instr.rhs.type = .literal) (i32Const instr.rhs.value)
    writeBytes [OP_I32_LOAD,0,0]
  storeResult instr.dst

def emitDebug : Emit Unit := do
  match ← view (·.tables.importFuncIndices.find host.loggerDebug) with
  | some idx => do
    writeBytes [OP_I32_CONST,0,OP_I32_CONST,0,OP_CALL]
    writeUleb128 idx.toNat
  | none => pure ()

def emitInstruction : Emit Unit :=
  match instr.opcode with
  | .nop => writeByte OP_NOP
  | .call => emitCall cfg (literal instr.lhs.value)
  | .load => emitLoad instr
  | .store => do
    pushOperand instr.rhs
    onlyIf instr.lhs.inLocal (localSet instr.lhs.value)
  | .cond => do
    pushOperand instr.lhs
    writeBytes [OP_IF,BLOCKTYPE_VOID,OP_ELSE,OP_END]
  | .seq => pure ()
  | .parallel => pure ()
  | .bindInput => onlyIf (instr.dst.type ≠ .none) do
    writeBytes [OP_LOCAL_GET,0,OP_LOCAL_GET,1]
    localSet instr.dst.value
  | .bindOutput => onlyIf (instr.lhs.type ≠ .none) (localGet instr.lhs.value)
  | .literal => do
    onlyIf (instr.lhs.type = .literal) (i32Const instr.lhs.value)
    storeResult instr.dst
  | .move => do
    onlyIf (instr.lhs.type ≠ .none) (localGet instr.lhs.value)
    storeResult instr.dst
  | .assert => do
    pushOperand instr.lhs
    writeBytes [OP_IF,BLOCKTYPE_VOID,OP_UNREACHABLE,OP_END]
  | .debug => emitDebug host

def emitBlock (block : SmirBasicBlock) : Emit Unit := each (emitInstruction host cfg) block.instructions

/-! Function bodies. -/

variable (localTypes : List UInt8)

def typeCounts : List (UInt8 × ℕ) :=
  (((List.range 256).map UInt8.ofNat).filter (· ∈ localTypes)).map fun t => (t,localTypes.count t)

def emitLocalsDecl : Emit Unit := do
  writeUleb128 (typeCounts localTypes).length
  each (fun (t,count) => do
    writeUleb128 count
    writeByte t) (typeCounts localTypes)

def parameters : AssocMap Bytes UInt32 :=
  if funcName = literal "execute" ∨ funcName = literal "validate" then
    (AssocMap.empty.insert (literal "input_ptr") 0).insert (literal "input_len") 1
  else if funcName = literal "initialize" then
    (AssocMap.empty.insert (literal "config_ptr") 0).insert (literal "config_len") 1
  else AssocMap.empty

/-- A new buffer in place of the binary, and the parameters as the only locals. -/
def enterFunction : Emit Unit := do
  update fun e => { e with binary := [], localIndices := parameters funcName, localTypes := [] }
  let localTypes ← view (·.localTypes)
  emitLocalsDecl localTypes

def closing : Bytes :=
  (if funcName = literal "execute" ∨ funcName = literal "metadata" then
    [OP_I32_CONST,0,OP_I32_CONST,0] else [OP_I32_CONST,0]) ++ [OP_RETURN,OP_END]

variable (smir : SmirModule)

/-- The binary is put aside while the body is written. -/
def emitFunctionBody (funcName : Bytes) : Emit Bytes := do
  let savedBinary ← view (·.binary)
  enterFunction funcName
  each (emitBlock host cfg) smir.blocks
  writeBytes (closing funcName)
  let funcBody ← view (·.binary)
  update fun e => { e with binary := savedBinary }
  pure funcBody

def emitDeclaredBody (funcName : Bytes) : Emit (List Bytes) := do
  if ← view (·.tables.localFuncIndices.contains funcName) then do
    let funcBody ← emitFunctionBody host cfg smir funcName
    pure [funcBody]
  else pure []

/-- The bodies of shutdown and metadata are emitted without a look at the table. -/
def emitCodeSection : Emit Unit := do
  let declared ← view (·.tables.declared)
  let executeBody ← emitDeclaredBody host cfg smir (literal "execute")
  let initializeBody ← emitDeclaredBody host cfg smir (literal "initialize")
  let shutdownBody ← emitFunctionBody host cfg smir (literal "shutdown")
  let validateBody ← emitDeclaredBody host cfg smir (literal "validate")
  let metadataBody ← emitFunctionBody host cfg smir (literal "metadata")
  let bodies := executeBody ++ initializeBody ++ [shutdownBody] ++ validateBody ++ [metadataBody]
  writeSection SECTION_CODE (write declared.length ++ bodies.flatMap sized)

def emit : Emit Bytes := do
  update fun _ => {}
  writeBytes [0x00,0x61,0x73,0x6D]
  writeBytes [0x01,0x00,0x00,0x00]
  emitTypeSection cfg
  emitImportSection host cfg
  emitFunctionSection
  emitMemorySection cfg
  emitExportSection cfg
  emitCodeSection host cfg smir
  view (·.binary)

end

end SmoFramework.Compiler

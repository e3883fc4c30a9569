import SmoFramework.Library.Leb128

/-! The binary format of WebAssembly modules, as far as it holds functions: a reader that takes a
whole input apart into the sections for types, imports, functions, memories, exports and code, and
the function index space of what it has read. Sizes and indices are read whatever their width. -/
namespace SmoFramework.Library.WasmBinary
open Reader Reads Reader.Reads Leb128.Reads

abbrev Parser (α : Type) := Reader UInt8 Unit α

def byte : Parser UInt8 := symbol ()

def number : Parser ℕ := Leb128.read ()

def block : Parser (List UInt8) := do
  let n ← number
  let part ← vector n ()
  pure part.toList

def list {α : Type} (item : Parser α) : Parser (List α) := do
  let n ← number
  times item n

def exactly (b : UInt8) : Parser Unit := do
  let c ← byte
  lift (if c = b then .ok () else .error ())

def whole {α : Type} (p : Parser α) (content : List UInt8) : Except Unit α := do
  let (a,rest) ← p.run content
  if rest = [] then .ok a else .error ()

structure FuncType where
  params : List UInt8
  results : List UInt8
  deriving DecidableEq

structure Import where
  moduleName : List UInt8
  name : List UInt8
  kind : UInt8
  index : ℕ
  deriving DecidableEq

structure Limits where
  min : ℕ
  max : Option ℕ
  deriving DecidableEq

structure Export where
  name : List UInt8
  kind : UInt8
  index : ℕ
  deriving DecidableEq

def funcType : Parser FuncType := do
  exactly 0x60
  let params ← block
  let results ← block
  pure ⟨params,results⟩

def importEntry : Parser Import := do
  let moduleName ← block
  let name ← block
  let kind ← byte
  let index ← number
  pure ⟨moduleName,name,kind,index⟩

def limits : Parser Limits := do
  let flags ← byte
  let min ← number
  if flags = 1 then do
    let max ← number
    pure ⟨min,some max⟩
  else pure ⟨min,none⟩

def exportEntry : Parser Export := do
  let name ← block
  let kind ← byte
  let index ← number
  pure ⟨name,kind,index⟩

/-- An id, a size, and content of this size that the reader uses up. -/
def sectionOf {α : Type} (id : UInt8) (p : Parser α) : Parser α := do
  exactly id
  let content ← block
  lift (whole p content)

def header : List UInt8 := [0x00,0x61,0x73,0x6D,0x01,0x00,0x00,0x00]

def headerOf : Parser Unit := do
  let v ← vector 8 ()
  lift (if v.toList = header then .ok () else .error ())

structure Module where
  types : List FuncType
  imports : List Import
  functions : List ℕ
  memories : List Limits
  exports : List Export
  code : List (List UInt8)
  deriving DecidableEq

/-- The header and exactly the six sections, each once and in this order. -/
def moduleOf : Parser Module := do
  headerOf
  let types ← sectionOf 1 (list funcType)
  let imports ← sectionOf 2 (list importEntry)
  let functions ← sectionOf 3 (list number)
  let memories ← sectionOf 5 (list limits)
  let exports ← sectionOf 7 (list exportEntry)
  let code ← sectionOf 10 (list block)
  pure ⟨types,imports,functions,memories,exports,code⟩

def parse (bytes : List UInt8) : Except Unit Module := whole moduleOf bytes

/-! The function index space. -/

inductive Func
  | imported (name : List UInt8)
  | body (position : ℕ) (code : List UInt8)
  deriving DecidableEq

/-- Imported functions first, then the bodies in the order of the code section. -/
def Module.functionSpace (m : Module) : List Func :=
  (m.imports.filter (·.kind = 0)).map (fun i => .imported i.name) ++
    m.code.zipIdx.map (fun (code,position) => .body position code)

def Module.denoted (m : Module) (index : ℕ) : Option Func := m.functionSpace[index]?

/-! Writing, and what is read back. -/

def sized (content : List UInt8) : List UInt8 := Leb128.write content.length ++ content

variable {α ι : Type} {p : Parser α} {content : List UInt8} {a : α}

lemma Reads.block (content : List UInt8) : Reads block (sized content) content :=
  (leb128 () content.length).bind (part () rfl).bind_pure

lemma Reads.list {write : ι → List UInt8} {value : ι → α} {xs : List ι}
    (h : ∀ x ∈ xs, Reads p (write x) (value x)) :
    Reads (list p) (Leb128.write xs.length ++ xs.flatMap write) (xs.map value) :=
  (leb128 () xs.length).bind (times h)

lemma Reads.list_one (h : Reads p content a) : Reads (WasmBinary.list p) (1::content) [a] := by
  have hone : Leb128.write 1 = [1] := rfl
  have hlist := (leb128 () 1).bind (f := times p) h.bind_pure
  rw [hone] at hlist
  exact hlist

lemma Reads.exactly (b : UInt8) : Reads (exactly b) [b] () :=
  (symbol () b).bind_nil (lift (if_pos rfl))

lemma Reads.whole (h : Reads p content a) : whole p content = .ok a := by
  have hrun := h []
  rw [List.append_nil] at hrun
  unfold WasmBinary.whole
  rw [hrun]
  rfl

lemma Reads.sectionOf (id : UInt8) (h : Reads p content a) :
    Reads (sectionOf id p) (id::sized content) a :=
  (exactly id).bind ((block content).bind_nil (lift (whole h)))

lemma Reads.funcType (t : FuncType) :
    Reads funcType (0x60::(sized t.params ++ sized t.results)) t :=
  (exactly 0x60).bind ((block t.params).bind (block t.results).bind_pure)

lemma Reads.importEntry (i : Import) :
    Reads importEntry (sized i.moduleName ++ (sized i.name ++ (i.kind::Leb128.write i.index))) i :=
  (block i.moduleName).bind ((block i.name).bind
    ((symbol () i.kind).bind (leb128 () i.index).bind_pure))

lemma Reads.limits (min max : ℕ) :
    Reads limits (0x01::(Leb128.write min ++ Leb128.write max)) ⟨min,some max⟩ :=
  (symbol () 0x01).bind ((leb128 () min).bind
    (leb128 () max).bind_pure)

lemma Reads.exportEntry (e : Export) :
    Reads exportEntry (sized e.name ++ (e.kind::Leb128.write e.index)) e :=
  (block e.name).bind ((symbol () e.kind).bind
    (leb128 () e.index).bind_pure)

lemma Reads.headerOf : Reads headerOf header () :=
  (vector () ⟨header,rfl⟩).bind_nil (lift (if_pos rfl))

lemma parse_sections
    (htypes : Reads (list funcType) types m.types) (himports : Reads (list importEntry) imports m.imports)
    (hfunctions : Reads (list number) functions m.functions)
    (hmemories : Reads (list limits) memories m.memories)
    (hexports : Reads (list exportEntry) exports m.exports) (hcode : Reads (list block) code m.code) :
    parse (header ++ (1::sized types ++ (2::sized imports ++ (3::sized functions ++
      (5::sized memories ++ (7::sized exports ++ (10::sized code))))))) = .ok m := by
  apply Reads.whole
  exact Reads.headerOf.bind ((Reads.sectionOf 1 htypes).bind ((Reads.sectionOf 2 himports).bind
    ((Reads.sectionOf 3 hfunctions).bind ((Reads.sectionOf 5 hmemories).bind
      ((Reads.sectionOf 7 hexports).bind (Reads.sectionOf 10 hcode).bind_pure)))))

end SmoFramework.Library.WasmBinary

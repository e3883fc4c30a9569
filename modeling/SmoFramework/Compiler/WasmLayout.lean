import SmoFramework.Compiler.WasmEmitter

/-! The layout of an emitted module: what is written instruction by instruction and body by body, and
the sections that a reader finds in the output. -/
namespace SmoFramework.Compiler
open Library Library.Attempt Library.Reader WasmBinary.Reads List WasmBinary Leb128 AssocMap
open Library.WasmBinary (FuncType sized parse)

/-! The function tables. -/

variable (cfg : WasmEmitterConfig)

def tablesOf : FunctionTables := declareTypes cfg {}

def localNames : List Bytes := (localFunctions cfg).map Prod.fst

lemma localNames_nodup : (localNames cfg).Nodup := by
  unfold localNames localFunctions
  cases cfg.metadata.hasInitialize <;> cases cfg.metadata.hasValidate <;> decide +kernel

lemma foldl_declareImport (imports : List HostImport) (t : FunctionTables) :
    (imports.foldl declareImport t).localFuncIndices = t.localFuncIndices ∧
      (imports.foldl declareImport t).funcTypes =
        t.funcTypes ++ imports.map fun imp => ⟨imp.paramTypes,imp.resultTypes⟩ := by
  induction imports generalizing t with
  | nil => simp
  | cons imp imports ih =>
    obtain ⟨hlocal,htypes⟩ := ih (declareImport t imp)
    rw [foldl_cons,hlocal,htypes]
    simp [declareImport]

lemma foldl_declareLocal (fs : List (Bytes × FuncType)) (t : FunctionTables) :
    (fs.foldl declareLocal t).importFuncIndices = t.importFuncIndices ∧
      (fs.foldl declareLocal t).funcTypes = t.funcTypes ++ fs.map Prod.snd ∧
      (fs.foldl declareLocal t).localFuncIndices =
        ((fs.map Prod.fst).zipIdx t.funcTypes.length).foldl
          (fun m p => m.insert p.1 (UInt32.ofNat p.2)) t.localFuncIndices := by
  induction fs generalizing t with
  | nil => simp
  | cons f fs ih =>
    obtain ⟨himport,htypes,hlocal⟩ := ih (declareLocal t f)
    rw [foldl_cons,himport,htypes,hlocal]
    simp [declareLocal]

lemma tablesOf_funcTypes : (tablesOf cfg).funcTypes =
    (cfg.imports.map fun imp => ⟨imp.paramTypes,imp.resultTypes⟩) ++
      (localFunctions cfg).map Prod.snd := by
  unfold tablesOf declareTypes
  rw [(foldl_declareLocal _ _).2.1,(foldl_declareImport _ _).2]
  rfl

lemma tablesOf_find (name : Bytes) :
    (tablesOf cfg).localFuncIndices.find name =
      (findIn name ((localNames cfg).zipIdx cfg.imports.length)).map UInt32.ofNat := by
  unfold tablesOf declareTypes
  have hnodup : (((localNames cfg).zipIdx cfg.imports.length).map Prod.fst).Nodup := by
    rw [zipIdx_map_fst]
    exact localNames_nodup cfg
  rw [(foldl_declareLocal _ _).2.2,(foldl_declareImport _ _).1,(foldl_declareImport _ _).2]
  rw [nil_append,length_map]
  exact (find_foldl_insert UInt32.ofNat hnodup empty name).trans (Option.or_none)

variable {cfg}

lemma tablesOf_find_at (h : (localNames cfg)[k]? = some name) :
    (tablesOf cfg).localFuncIndices.find name = some (UInt32.ofNat (cfg.imports.length+k)) := by
  have hmem : (name,cfg.imports.length+k) ∈ (localNames cfg).zipIdx cfg.imports.length :=
    mk_add_mem_zipIdx_iff_getElem?.mpr h
  have hnodup : (((localNames cfg).zipIdx cfg.imports.length).map Prod.fst).Nodup := by
    rw [zipIdx_map_fst]
    exact localNames_nodup cfg
  rw [tablesOf_find,findIn_of_mem hnodup hmem]
  rfl

lemma tablesOf_contains (cfg : WasmEmitterConfig) (name : Bytes) :
    (tablesOf cfg).localFuncIndices.contains name = true ↔ name ∈ localNames cfg := by
  constructor
  · intro h
    by_contra hname
    rw [AssocMap.contains,tablesOf_find,AssocMap.findIn_eq_none] at h
    · cases h
    · rwa [zipIdx_map_fst]
  · intro h
    obtain ⟨k,hk⟩ := getElem?_of_mem h
    rw [AssocMap.contains,tablesOf_find_at hk]
    rfl

lemma declared_eq (cfg : WasmEmitterConfig) : (tablesOf cfg).declared = localNames cfg := by
  have hcontains : (tablesOf cfg).localFuncIndices.contains = fun name => decide (name ∈ localNames cfg) := by
    funext name
    rw [Bool.eq_iff_iff,tablesOf_contains,decide_eq_true_iff]
  unfold FunctionTables.declared
  rw [hcontains]
  unfold localNames localFunctions
  cases cfg.metadata.hasInitialize <;> cases cfg.metadata.hasValidate <;> decide +kernel

/-! What one program keeps. -/

/-- Bytes may have been added; the tables are as they were. -/
structure Extends (base e : WasmEmitter) : Prop where
  tables : e.tables = base.tables
  binary : base.binary <+: e.binary

section
variable {base : WasmEmitter} {host : HostNames} {cfg : WasmEmitterConfig}

lemma keeps_writeBytes (data : Bytes) : Keeps (Extends base) (writeBytes data) :=
  .update fun _ h => ⟨h.tables,h.binary.trans (prefix_append _ _)⟩

lemma keeps_writeByte (byte : UInt8) : Keeps (Extends base) (writeByte byte) := keeps_writeBytes _

lemma keeps_writeUleb128 (val : ℕ) : Keeps (Extends base) (writeUleb128 val) := keeps_writeBytes _

lemma keeps_getLocalIndex (name : Bytes) : Keeps (Extends base) (getLocalIndex name) := by
  refine (Keeps.view _).bind fun idx => ?_
  cases idx with
  | some idx => exact .pure idx
  | none =>
    refine (Keeps.view _).bind fun idx => Keeps.bind ?_ fun _ => .pure idx
    exact .update fun _ h => ⟨h.tables,h.binary⟩

lemma keeps_localGet (name : String) : Keeps (Extends base) (localGet name) :=
  (keeps_getLocalIndex _).bind fun _ => (keeps_writeByte _).bind fun _ => keeps_writeUleb128 _

lemma keeps_localSet (name : String) : Keeps (Extends base) (localSet name) :=
  (keeps_getLocalIndex _).bind fun _ => (keeps_writeByte _).bind fun _ => keeps_writeUleb128 _

lemma keeps_i32Const (value : String) : Keeps (Extends base) (i32Const value) :=
  (keeps_writeByte _).bind fun _ => (Keeps.lift _).bind fun _ => keeps_writeBytes _

lemma keeps_onlyIf {c : Prop} [Decidable c] (h : Keeps (Extends base) x) :
    Keeps (Extends base) (onlyIf c x) := .ite h (.pure ())

lemma keeps_pushOperand (op : SmirOperand) : Keeps (Extends base) (pushOperand op) :=
  .ite (keeps_i32Const _) (keeps_onlyIf (keeps_localGet _))

lemma keeps_storeResult (dst : SmirOperand) : Keeps (Extends base) (storeResult dst) :=
  keeps_onlyIf (keeps_localSet _)

lemma keeps_emitCall (funcName : Bytes) : Keeps (Extends base) (emitCall cfg funcName) := by
  refine (Keeps.view _).bind fun t => ?_
  cases t.importFuncIndices.find funcName with
  | some idx => exact (keeps_writeByte _).bind fun _ => keeps_writeUleb128 _
  | none =>
    cases t.localFuncIndices.find funcName with
    | some idx => exact (keeps_writeByte _).bind fun _ => keeps_writeUleb128 _
    | none => exact keeps_writeByte _

variable (instr : SmirInstruction)

lemma keeps_emitLoad : Keeps (Extends base) (emitLoad instr) := by
  refine (keeps_onlyIf (keeps_localGet _)).bind fun _ => ?_
  refine (keeps_onlyIf ?_).bind fun _ => keeps_storeResult _
  exact (keeps_onlyIf (keeps_i32Const _)).bind fun _ => keeps_writeBytes _

lemma keeps_emitDebug : Keeps (Extends base) (emitDebug host) := by
  refine (Keeps.view _).bind fun idx => ?_
  cases idx with
  | some idx => exact (keeps_writeBytes _).bind fun _ => keeps_writeUleb128 _
  | none => exact .pure ()

lemma keeps_emitInstruction :
    Keeps (Extends base) (emitInstruction host cfg instr) := by
  unfold emitInstruction
  cases instr.opcode with
  | nop => exact keeps_writeByte _
  | call => exact keeps_emitCall _
  | load => exact keeps_emitLoad _
  | store => exact (keeps_pushOperand _).bind fun _ => keeps_onlyIf (keeps_localSet _)
  | cond => exact (keeps_pushOperand _).bind fun _ => keeps_writeBytes _
  | seq => exact .pure ()
  | parallel => exact .pure ()
  | bindInput => exact keeps_onlyIf ((keeps_writeBytes _).bind fun _ => keeps_localSet _)
  | bindOutput => exact keeps_onlyIf (keeps_localGet _)
  | literal => exact (keeps_onlyIf (keeps_i32Const _)).bind fun _ => keeps_storeResult _
  | move => exact (keeps_onlyIf (keeps_localGet _)).bind fun _ => keeps_storeResult _
  | assert => exact (keeps_pushOperand _).bind fun _ => keeps_writeBytes _
  | debug => exact keeps_emitDebug

/-! Bodies, instruction by instruction. -/

def SmirModule.instructions (smir : SmirModule) : List SmirInstruction :=
  smir.blocks.flatMap (·.instructions)

variable (host cfg) in
inductive Contributes : WasmEmitter → List SmirInstruction → List Bytes → WasmEmitter → Prop
  | nil (s : WasmEmitter) : Contributes s [] [] s
  | cons {s t u : WasmEmitter} {instr : SmirInstruction} {instrs : List SmirInstruction}
      {chunk : Bytes} {chunks : List Bytes}
      (emitted : Returns (emitInstruction host cfg instr) s () t)
      (added : t.binary = s.binary ++ chunk)
      (rest : Contributes t instrs chunks u) : Contributes s (instr::instrs) (chunk::chunks) u

variable {s u : WasmEmitter} {instrs : List SmirInstruction} {chunks : List Bytes}

lemma Contributes.tables (h : Contributes host cfg s instrs chunks u) : u.tables = s.tables := by
  induction h with
  | nil s => rfl
  | @cons s t u instr instrs chunk chunks emitted added rest ih =>
    exact ih.trans (keeps_emitInstruction instr _ _ _ emitted ⟨rfl,prefix_rfl⟩).tables

lemma Contributes.binary (h : Contributes host cfg s instrs chunks u) :
    u.binary = s.binary ++ chunks.flatten := by
  induction h with
  | nil s => simp
  | @cons s t u instr instrs chunk chunks emitted added rest ih =>
    rw [ih,added,flatten_cons,append_assoc]

lemma contributes_of_each (h : Returns (each (emitInstruction host cfg) instrs) s () u) :
    ∃ chunks, Contributes host cfg s instrs chunks u := by
  induction instrs generalizing s with
  | nil =>
    obtain ⟨-,rfl⟩ := returns_pure.mp h
    exact ⟨[],.nil u⟩
  | cons instr instrs ih =>
    obtain ⟨_,t,hfirst,hrest⟩ := returns_bind.mp h
    obtain ⟨chunk,hchunk⟩ := (keeps_emitInstruction instr _ _ _ hfirst ⟨rfl,prefix_rfl⟩).binary
    obtain ⟨chunks,hchunks⟩ := ih hrest
    exact ⟨chunk::chunks,.cons hfirst hchunk.symm hchunks⟩

def entered (s : WasmEmitter) (funcName : Bytes) : WasmEmitter :=
  { s with binary := write 0, localIndices := parameters funcName, localTypes := [] }

variable {funcName : Bytes} {v : Unit}

lemma returns_enterFunction :
    Returns (enterFunction funcName) s v t ↔ t = entered s funcName := by
  have hnone : typeCounts [] = [] := rfl
  simp [enterFunction,emitLocalsDecl,hnone,each,writeUleb128,writeBytes,entered]

variable (host cfg) in
def BodyOf (smir : SmirModule) (funcName body : Bytes) (chunks : List Bytes) : Prop :=
  ∃ s u, s.tables = tablesOf cfg ∧
    Contributes host cfg (entered s funcName) smir.instructions chunks u ∧
    body = write 0 ++ (chunks.flatten ++ closing funcName)

variable {smir : SmirModule} {body : Bytes} {s' : WasmEmitter}

lemma emitFunctionBody_returns (h : Returns (emitFunctionBody host cfg smir funcName) s body s')
    (ht : s.tables = tablesOf cfg) :
    s'.tables = s.tables ∧ s'.binary = s.binary ∧ ∃ chunks, BodyOf host cfg smir funcName body chunks := by
  unfold emitFunctionBody at h
  have hblocks : each (emitBlock host cfg) smir.blocks =
      each (emitInstruction host cfg) smir.instructions := each_flatMap _ _ _
  rw [hblocks] at h
  simp only [returns_bind,returns_update,returns_enterFunction,writeBytes] at h
  obtain ⟨_,_,⟨rfl,rfl⟩,_,_,rfl,_,u,heach,_,_,rfl,_,_,⟨rfl,rfl⟩,_,_,rfl,rfl,rfl⟩ := h
  obtain ⟨chunks,hchunks⟩ := contributes_of_each heach
  refine ⟨hchunks.tables,rfl,chunks,_,u,ht,hchunks,?_⟩
  rw [hchunks.binary]
  rfl

lemma BodyOf.getLast? (h : BodyOf host cfg smir funcName body chunks) :
    body.getLast? = some OP_END := by
  obtain ⟨s,u,-,-,rfl⟩ := h
  simp [closing]

variable (host cfg) in
def EmittedBody (smir : SmirModule) (funcName body : Bytes) : Prop :=
  ∃ s s', s.tables = tablesOf cfg ∧ Returns (emitFunctionBody host cfg smir funcName) s body s'

lemma EmittedBody.bodyOf (h : EmittedBody host cfg smir funcName body) :
    ∃ chunks, BodyOf host cfg smir funcName body chunks := by
  obtain ⟨s,s',ht,hret⟩ := h
  exact (emitFunctionBody_returns hret ht).2.2

/-! The code section. -/

lemma emitDeclaredBody_returns (h : Returns (emitDeclaredBody host cfg smir funcName) s bodies s')
    (ht : s.tables = tablesOf cfg) : s'.tables = s.tables ∧ s'.binary = s.binary ∧
      List.Forall₂ (EmittedBody host cfg smir)
        ([funcName].filter (tablesOf cfg).localFuncIndices.contains) bodies := by
  unfold emitDeclaredBody at h
  rw [returns_bind] at h
  obtain ⟨declared,t,hview,h⟩ := h
  obtain ⟨rfl,rfl⟩ := returns_view.mp hview
  rw [ht] at h
  by_cases hdeclared : (tablesOf cfg).localFuncIndices.contains funcName = true
  · rw [if_pos hdeclared,returns_bind] at h
    obtain ⟨body,t',hbody,h⟩ := h
    obtain ⟨rfl,rfl⟩ := returns_pure.mp h
    obtain ⟨htables,hbinary,-⟩ := emitFunctionBody_returns hbody ht
    refine ⟨htables,hbinary,?_⟩
    rw [filter_cons_of_pos hdeclared]
    exact .cons ⟨_,_,ht,hbody⟩ .nil
  · rw [if_neg hdeclared] at h
    obtain ⟨rfl,rfl⟩ := returns_pure.mp h
    refine ⟨rfl,rfl,?_⟩
    rw [filter_cons_of_neg hdeclared]
    exact .nil

lemma returns_writeSection {id : UInt8} :
    Returns (writeSection id payload) s v s' ↔
      s' = { s with binary := s.binary ++ id::sized payload } := by
  simp [writeSection,writeByte,writeUleb128,writeBytes,sized]

lemma declared_split (cfg : WasmEmitterConfig) : (tablesOf cfg).declared =
    [literal "execute"].filter (tablesOf cfg).localFuncIndices.contains ++
    [literal "initialize"].filter (tablesOf cfg).localFuncIndices.contains ++
    [literal "shutdown"] ++
    [literal "validate"].filter (tablesOf cfg).localFuncIndices.contains ++
    [literal "metadata"] := by
  have hshutdown : [literal "shutdown"].filter (tablesOf cfg).localFuncIndices.contains =
      [literal "shutdown"] := by
    apply filter_cons_of_pos
    simp [tablesOf_contains,localNames,localFunctions]
  have hmetadata : [literal "metadata"].filter (tablesOf cfg).localFuncIndices.contains =
      [literal "metadata"] := by
    apply filter_cons_of_pos
    simp [tablesOf_contains,localNames,localFunctions]
  change ([literal "execute"] ++ [literal "initialize"] ++ [literal "shutdown"] ++
    [literal "validate"] ++ [literal "metadata"]).filter _ = _
  rw [filter_append,filter_append,filter_append,filter_append,hshutdown,hmetadata]

lemma emitCodeSection_returns (h : Returns (emitCodeSection host cfg smir) s v s')
    (ht : s.tables = tablesOf cfg) :
    ∃ bodies, List.Forall₂ (EmittedBody host cfg smir) (localNames cfg) bodies ∧
      s'.binary = s.binary ++ SECTION_CODE::sized (write bodies.length ++ bodies.flatMap sized) := by
  unfold emitCodeSection at h
  simp only [returns_bind,returns_view,returns_writeSection] at h
  obtain ⟨_,_,⟨rfl,rfl⟩,execute,s₁,h₁,initial,s₂,h₂,shutdown,s₃,h₃,validate,s₄,h₄,metadata,s₅,h₅,rfl⟩ := h
  obtain ⟨ht₁,hb₁,hexecute⟩ := emitDeclaredBody_returns h₁ ht
  have ht₁ := ht₁.trans ht
  obtain ⟨ht₂,hb₂,hinitial⟩ := emitDeclaredBody_returns h₂ ht₁
  have ht₂ := ht₂.trans ht₁
  obtain ⟨ht₃,hb₃,-⟩ := emitFunctionBody_returns h₃ ht₂
  have ht₃ := ht₃.trans ht₂
  obtain ⟨ht₄,hb₄,hvalidate⟩ := emitDeclaredBody_returns h₄ ht₃
  have ht₄ := ht₄.trans ht₃
  obtain ⟨-,hb₅,-⟩ := emitFunctionBody_returns h₅ ht₄
  have hbodies : List.Forall₂ (EmittedBody host cfg smir) (localNames cfg)
      (execute ++ initial ++ [shutdown] ++ validate ++ [metadata]) := by
    have hshutdown : List.Forall₂ (EmittedBody host cfg smir) [literal "shutdown"] [shutdown] :=
      .cons ⟨_,_,ht₂,h₃⟩ .nil
    have hmetadata : List.Forall₂ (EmittedBody host cfg smir) [literal "metadata"] [metadata] :=
      .cons ⟨_,_,ht₄,h₅⟩ .nil
    rw [← declared_eq,declared_split]
    exact rel_append (rel_append (rel_append (rel_append hexecute hinitial)
      hshutdown) hvalidate) hmetadata
  refine ⟨_,hbodies,?_⟩
  rw [hb₅,hb₄,hb₃,hb₂,hb₁,ht,declared_eq,hbodies.length_eq]

/-! The whole output. -/

variable (host cfg) in
def preamble : Bytes :=
  WasmBinary.header ++
  (SECTION_TYPE::sized (write (tablesOf cfg).funcTypes.length ++
    (tablesOf cfg).funcTypes.flatMap writeFuncType)) ++
  (SECTION_IMPORT::sized (write cfg.imports.length ++
    cfg.imports.flatMap (writeImport host (tablesOf cfg)))) ++
  (SECTION_FUNCTION::sized (write (localNames cfg).length ++ (localNames cfg).flatMap fun name =>
    write (((tablesOf cfg).localFuncIndices.find name).getD 0).toNat)) ++
  (SECTION_MEMORY::sized (1::(0x01::(write (initialPages cfg).toNat ++
    write (initialPages cfg).toNat)))) ++
  (SECTION_EXPORT::sized (write (exports cfg).length ++ (exports cfg).flatMap writeExport))

def AddsSection (id : UInt8) (payload : Bytes) (s s' : WasmEmitter) : Prop :=
  s'.tables = s.tables ∧ s'.binary = s.binary ++ id::sized payload

lemma addsSection_of_returns {id : UInt8}
    (h : Returns (writeSection id payload) s v s') : AddsSection id payload s s' := by
  rw [returns_writeSection.mp h]
  exact ⟨rfl,rfl⟩

lemma emitTypeSection_returns (h : Returns (emitTypeSection cfg) s v s') (ht : s.tables = {}) :
    s'.tables = tablesOf cfg ∧
      s'.binary = s.binary ++ SECTION_TYPE::sized (write (tablesOf cfg).funcTypes.length ++
        (tablesOf cfg).funcTypes.flatMap writeFuncType) := by
  simp only [emitTypeSection,returns_bind,returns_update] at h
  obtain ⟨_,t,rfl,_,_,⟨rfl,rfl⟩,h⟩ := h
  have hadds := addsSection_of_returns h
  rw [ht] at hadds
  exact hadds

lemma emitImportSection_returns (h : Returns (emitImportSection host cfg) s v s') :
    AddsSection SECTION_IMPORT
      (write cfg.imports.length ++ cfg.imports.flatMap (writeImport host s.tables)) s s' := by
  simp only [emitImportSection,returns_bind] at h
  obtain ⟨_,_,⟨rfl,rfl⟩,h⟩ := h
  exact addsSection_of_returns h

lemma emitFunctionSection_returns (h : Returns emitFunctionSection s v s') :
    AddsSection SECTION_FUNCTION
      (write s.tables.declared.length ++ s.tables.declared.flatMap fun name =>
        write ((s.tables.localFuncIndices.find name).getD 0).toNat) s s' := by
  simp only [emitFunctionSection,returns_bind] at h
  obtain ⟨_,_,⟨rfl,rfl⟩,h⟩ := h
  exact addsSection_of_returns h

lemma emit_returns (h : Returns (emit host cfg smir) s out s') :
    ∃ bodies, List.Forall₂ (EmittedBody host cfg smir) (localNames cfg) bodies ∧
      out = preamble host cfg ++
        SECTION_CODE::sized (write bodies.length ++ bodies.flatMap sized) := by
  simp only [emit,returns_bind,returns_update,writeBytes] at h
  obtain ⟨_,_,rfl,_,_,rfl,_,_,rfl,_,s₁,h₁,_,s₂,h₂,_,s₃,h₃,_,s₄,h₄,_,s₅,h₅,_,s₆,h₆,rfl,rfl⟩ := h
  obtain ⟨ht₁,hb₁⟩ := emitTypeSection_returns h₁ rfl
  obtain ⟨ht₂,hb₂⟩ := emitImportSection_returns h₂
  have ht₂ := ht₂.trans ht₁
  obtain ⟨ht₃,hb₃⟩ := emitFunctionSection_returns h₃
  have ht₃ := ht₃.trans ht₂
  obtain ⟨ht₄,hb₄⟩ := addsSection_of_returns h₄
  have ht₄ := ht₄.trans ht₃
  obtain ⟨ht₅,hb₅⟩ := addsSection_of_returns h₅
  obtain ⟨bodies,hbodies,hb₆⟩ := emitCodeSection_returns h₆ (ht₅.trans ht₄)
  refine ⟨bodies,hbodies,hb₆.trans ?_⟩
  rw [hb₅,hb₄,hb₃,hb₂,hb₁,ht₁,ht₂,declared_eq]
  rfl

variable (bodies : List Bytes)

variable (host cfg) in
def emittedModule : WasmBinary.Module where
  types := (tablesOf cfg).funcTypes
  imports := cfg.imports.map fun imp => ⟨host.hostNamespace,imp.name,0,
    (((tablesOf cfg).importFuncIndices.find imp.name).getD 0).toNat⟩
  functions := (localNames cfg).map fun name =>
    (((tablesOf cfg).localFuncIndices.find name).getD 0).toNat
  memories := [⟨(initialPages cfg).toNat,some (initialPages cfg).toNat⟩]
  exports := (exports cfg).map fun e => ⟨e.1,e.2.1,e.2.2.toNat⟩
  code := bodies

/-- Sizes, counts and entries of all sections are read as they were meant. -/
theorem parse_emitted :
    parse (preamble host cfg ++ SECTION_CODE::sized (write bodies.length ++ bodies.flatMap sized)) =
      .ok (emittedModule host cfg bodies) := by
  have htypes : Reads (list funcType) _ ((tablesOf cfg).funcTypes.map id) :=
    list fun t _ => funcType t
  have himports : Reads (list importEntry) _ (emittedModule host cfg bodies).imports :=
    list fun _ _ => importEntry _
  have hfunctions : Reads (list number) _ (emittedModule host cfg bodies).functions :=
    list fun _ _ => Leb128.Reads.leb128 () _
  have hmemories : Reads (list limits) _ (emittedModule host cfg bodies).memories :=
    list_one (limits _ _)
  have hexports : Reads (list exportEntry) _ (emittedModule host cfg bodies).exports :=
    list fun _ _ => exportEntry _
  have hcode : Reads (list block) _ (bodies.map id) :=
    list fun body _ => block body
  rw [map_id] at htypes hcode
  have hparse := parse_sections (m := emittedModule host cfg bodies) htypes himports
    hfunctions hmemories hexports hcode
  refine (congrArg parse ?_).trans hparse
  unfold preamble
  simp only [append_assoc]
  rfl

end

/-- What stands at one place of the second list is related to what stands there in the first. -/
theorem exists_related {α β : Type} {R : α → β → Prop} {as : List α} {bs : List β}
    (h : List.Forall₂ R as bs) {k : ℕ} {b : β} (hk : bs[k]? = some b) :
    ∃ a, as[k]? = some a ∧ R a b := by
  induction h generalizing k with
  | nil => cases hk
  | @cons a b' as bs hR _ ih =>
    cases k with
    | zero =>
      obtain rfl := Option.some.inj hk
      exact ⟨a,rfl,hR⟩
    | succ k => exact ih hk

/-- If the emitter returns, its output is the header and six sections of the sizes they announce,
with one type for every import and local function, as many bodies as functions, and the end opcode
at the end of every body. -/
theorem emitted_module_wellFormed (host : HostNames) (cfg : WasmEmitterConfig) (smir : SmirModule)
    (s s' : WasmEmitter) (out : Bytes) (h : Returns (emit host cfg smir) s out s') :
    (∃ types imports functions memories exports code : Bytes,
      out = [0x00,0x61,0x73,0x6D,0x01,0x00,0x00,0x00] ++ (1::sized types) ++ (2::sized imports) ++
        (3::sized functions) ++ (5::sized memories) ++ (7::sized exports) ++ (10::sized code)) ∧
    ∃ m, parse out = .ok m ∧ m.imports.length = cfg.imports.length ∧
      m.functions.length = (localFunctions cfg).length ∧
      m.types.length = m.imports.length+m.functions.length ∧
      m.code.length = m.functions.length ∧ ∀ body ∈ m.code, body.getLast? = some OP_END := by
  obtain ⟨bodies,hbodies,rfl⟩ := emit_returns h
  refine ⟨⟨_,_,_,_,_,_,rfl⟩,emittedModule host cfg bodies,parse_emitted bodies,?_,?_,?_,?_,?_⟩
  · exact length_map _
  · rw [emittedModule,length_map,localNames,length_map]
  · simp [emittedModule,tablesOf_funcTypes,localNames]
  · rw [emittedModule,length_map]
    exact hbodies.length_eq.symm
  · intro body hbody
    obtain ⟨k,hk⟩ := getElem?_of_mem hbody
    obtain ⟨funcName,-,hemitted⟩ := exists_related hbodies hk
    obtain ⟨chunks,hchunks⟩ := hemitted.bodyOf
    exact hchunks.getLast?

def sampleHost : HostNames := ⟨literal "smo:v1",literal "log_debug"⟩

def sampleConfig : WasmEmitterConfig where
  imports := [{ name := literal "log" }]
  metadata := { hasInitialize := true }

def sampleSmir : SmirModule where
  blocks := [{ instructions := [{ opcode := .call, lhs := ⟨.identifier,"shutdown"⟩ }] }]

lemma emit_sample : ∃ out s', Returns (emit sampleHost sampleConfig sampleSmir) {} out s' :=
  exists_returns (by decide +kernel)

theorem sample_module_wellFormed : ∃ out s', Returns (emit sampleHost sampleConfig sampleSmir) {} out s' ∧
    ∃ m, parse out = .ok m ∧ m.imports.length = 1 ∧ m.types.length = 5 ∧ m.code.length = 4 := by
  obtain ⟨out,s',h⟩ := emit_sample
  obtain ⟨-,m,hparse,himports,hfunctions,htypes,hcode,-⟩ :=
    emitted_module_wellFormed sampleHost sampleConfig sampleSmir {} s' out h
  have hlocal : (localFunctions sampleConfig).length = 4 := by decide +kernel
  rw [himports,hfunctions] at htypes
  rw [hfunctions] at hcode
  exact ⟨out,s',h,m,hparse,himports,htypes,hcode⟩

end SmoFramework.Compiler

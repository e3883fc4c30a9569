import SmoFramework.Compiler.WasmLayout

/-! The function indices of an emitted module against the function index space of the format: imports
first, then the bodies in the order of the code section. The export section and the calls of local
functions count differently, and both are right only without imports. -/
namespace SmoFramework.Compiler
open Library Library.Attempt List WasmBinary.Module
open Library.WasmBinary (parse)

section
variable (host : HostNames) (cfg : WasmEmitterConfig) (smir : SmirModule)

def Denotes (m : WasmBinary.Module) (index : ℕ) (funcName : Bytes) : Prop :=
  ∃ position body, m.denoted index = some (.body position body) ∧
    (localNames cfg)[position]? = some funcName ∧ EmittedBody host cfg smir funcName body

/-- Every exported function name stands for its body, and so does every call that was emitted, in
whichever body, for a call of a local function. -/
structure WellIndexed (m : WasmBinary.Module) : Prop where
  exported : ∀ e ∈ m.exports, e.kind = 0 → Denotes host cfg smir m e.index e.name
  called : ∀ (position : ℕ) (funcName body : Bytes), (localNames cfg)[position]? = some funcName →
    m.code[position]? = some body → ∃ chunks, BodyOf host cfg smir funcName body chunks ∧
      ∀ p ∈ smir.instructions.zip chunks, p.1.opcode = .call →
        literal p.1.lhs.value ∈ localNames cfg →
        ∃ index, p.2 = OP_CALL::Leb128.write index ∧
          Denotes host cfg smir m index (literal p.1.lhs.value)

end

variable {host : HostNames} {cfg : WasmEmitterConfig} {smir : SmirModule} {bodies : List Bytes}

/-! The index space. -/

lemma functionSpace_emitted (host : HostNames) (cfg : WasmEmitterConfig) (bodies : List Bytes) :
    (emittedModule host cfg bodies).functionSpace =
      (cfg.imports.map fun imp => .imported imp.name) ++
        bodies.zipIdx.map fun (body,position) => .body position body := by
  unfold functionSpace emittedModule
  rw [filter_eq_self.mpr,map_map]
  · rfl
  · intro i hi
    obtain ⟨imp,-,rfl⟩ := mem_map.mp hi
    rfl

lemma denoted_body (h : bodies[position]? = some body) :
    (emittedModule host cfg bodies).denoted (cfg.imports.length+position) =
      some (.body position body) := by
  unfold denoted
  rw [functionSpace_emitted,getElem?_append_right (by simp),length_map,
    Nat.add_sub_cancel_left,getElem?_map,getElem?_zipIdx,h]
  simp

lemma denotes_local (hbodies : List.Forall₂ (EmittedBody host cfg smir) (localNames cfg) bodies)
    (h : (localNames cfg)[position]? = some funcName) :
    Denotes host cfg smir (emittedModule host cfg bodies) (cfg.imports.length+position) funcName := by
  have hlt : position < bodies.length := by
    rw [← hbodies.length_eq]
    exact (List.getElem?_eq_some_iff.mp h).1
  have hbody : bodies[position]? = some bodies[position] := List.getElem?_eq_getElem hlt
  obtain ⟨name,hname,hemitted⟩ := exists_related hbodies hbody
  obtain rfl := Option.some.inj (hname.symm.trans h)
  exact ⟨position,_,denoted_body hbody,h,hemitted⟩

/-! Exports. -/

lemma exports_eq (cfg : WasmEmitterConfig) : exports cfg =
    ((localNames cfg).zipIdx.map fun p => (p.1,(0x00 : UInt8),UInt32.ofNat p.2)) ++
      [(literal "memory",(0x02 : UInt8),(0 : UInt32))] := by
  unfold exports localNames localFunctions
  cases cfg.metadata.hasInitialize <;> cases cfg.metadata.hasValidate <;> rfl

lemma length_localNames_le (cfg : WasmEmitterConfig) : (localNames cfg).length ≤ 5 := by
  unfold localNames localFunctions
  cases cfg.metadata.hasInitialize <;> cases cfg.metadata.hasValidate <;> simp

lemma exported_index (he : e ∈ (emittedModule host cfg bodies).exports)
    (hkind : e.kind = 0) : (localNames cfg)[e.index]? = some e.name := by
  obtain ⟨x,hx,rfl⟩ := List.mem_map.mp he
  rw [exports_eq] at hx
  rcases List.mem_append.mp hx with hx | hx
  · obtain ⟨⟨name,k⟩,hk,rfl⟩ := List.mem_map.mp hx
    have hname : (localNames cfg)[k]? = some name := List.mk_mem_zipIdx_iff_getElem?.mp hk
    have hsmall : k < 2^32 := by
      have hlt := (List.getElem?_eq_some_iff.mp hname).1
      have hle := length_localNames_le cfg
      omega
    rw [UInt32.toNat_ofNat_of_lt' hsmall,hname]
  · obtain rfl := List.mem_singleton.mp hx
    cases hkind

lemma execute_exported (host : HostNames) (cfg : WasmEmitterConfig) (bodies : List Bytes) :
    ⟨literal "execute",0,0⟩ ∈ (emittedModule host cfg bodies).exports := by
  apply mem_map.mpr
  refine ⟨(literal "execute",0,0),?_,rfl⟩
  rw [exports_eq]
  simp [localNames,localFunctions]

/-! Calls. -/

lemma Contributes.emitted (h : Contributes host cfg s instrs chunks u)
    (hp : p ∈ instrs.zip chunks) : ∃ a b, a.tables = s.tables ∧
      Returns (emitInstruction host cfg p.1) a () b ∧ b.binary = a.binary ++ p.2 := by
  induction h with
  | nil s => cases hp
  | @cons s t u instr instrs chunk chunks emitted added rest ih =>
    rcases mem_cons.mp hp with rfl | hp
    · exact ⟨s,t,rfl,emitted,added⟩
    · obtain ⟨a,b,htables,hret,hadded⟩ := ih hp
      have ht := (keeps_emitInstruction instr _ _ _ emitted ⟨rfl,prefix_rfl⟩).tables
      exact ⟨a,b,htables.trans ht,hret,hadded⟩

lemma call_chunk
    (ht : s.tables = tablesOf cfg) (hret : Returns (emitInstruction host cfg instr) s () t)
    (hadded : t.binary = s.binary ++ chunk) (hop : instr.opcode = .call)
    (himport : (tablesOf cfg).importFuncIndices.find (literal instr.lhs.value) = none)
    (hlocal : (localNames cfg)[k]? = some (literal instr.lhs.value)) : chunk = OP_CALL::Leb128.write
      (UInt32.ofNat cfg.imports.length+UInt32.ofNat (cfg.imports.length+k)).toNat := by
  unfold emitInstruction at hret
  rw [hop] at hret
  unfold emitCall at hret
  rw [returns_bind] at hret
  obtain ⟨tables,_,hview,hret⟩ := hret
  obtain ⟨rfl,rfl⟩ := returns_view.mp hview
  rw [ht] at hret
  simp only [himport,tablesOf_find_at hlocal,writeByte,writeUleb128,writeBytes,returns_bind,
    returns_update] at hret
  obtain ⟨_,_,rfl,rfl⟩ := hret
  rw [append_assoc] at hadded
  exact (append_cancel_left hadded).symm

/-! Without imports. -/

lemma wellIndexed_of_no_imports (hnone : cfg.imports = [])
    (hbodies : List.Forall₂ (EmittedBody host cfg smir) (localNames cfg) bodies) :
    WellIndexed host cfg smir (emittedModule host cfg bodies) := by
  have hdenotes : ∀ {k funcName}, (localNames cfg)[k]? = some funcName →
      Denotes host cfg smir (emittedModule host cfg bodies) k funcName := by
    intro k funcName hk
    have h := denotes_local hbodies hk
    rwa [hnone,List.length_nil,Nat.zero_add] at h
  refine ⟨fun e he hkind => hdenotes (exported_index he hkind),?_⟩
  intro position funcName body hname hbody
  obtain ⟨name,hname',hemitted⟩ := exists_related hbodies hbody
  obtain rfl := Option.some.inj (hname'.symm.trans hname)
  obtain ⟨chunks,hchunks⟩ := hemitted.bodyOf
  refine ⟨chunks,hchunks,?_⟩
  intro p hp hop htarget
  obtain ⟨s,u,ht,hcontributes,-⟩ := hchunks
  obtain ⟨a,b,htables,hret,hadded⟩ := hcontributes.emitted hp
  obtain ⟨k,hk⟩ := List.getElem?_of_mem htarget
  have himport : (tablesOf cfg).importFuncIndices.find (literal p.1.lhs.value) = none := by
    unfold tablesOf declareTypes
    rw [(foldl_declareLocal _ _).1,hnone]
    rfl
  have hchunk := call_chunk (htables.trans ht) hret hadded hop himport hk
  have hsmall : k < 2^32 := by
    have hlt := (List.getElem?_eq_some_iff.mp hk).1
    have hle := length_localNames_le cfg
    omega
  refine ⟨k,?_,hdenotes hk⟩
  rw [hchunk,hnone,List.length_nil,Nat.zero_add]
  change OP_CALL::Leb128.write (0+UInt32.ofNat k).toNat = _
  rw [UInt32.zero_add,UInt32.toNat_ofNat_of_lt' hsmall]

/-- Whatever the program: the indices of an emitted module stand for the functions they were written
for exactly if the configuration has no imports. -/
theorem wellIndexed_iff_no_imports (host : HostNames) (cfg : WasmEmitterConfig) (smir : SmirModule)
    (s s' : WasmEmitter) (out : Bytes) (h : Returns (emit host cfg smir) s out s') :
    ∃ m, parse out = .ok m ∧ (WellIndexed host cfg smir m ↔ cfg.imports = []) := by
  obtain ⟨bodies,hbodies,rfl⟩ := emit_returns h
  refine ⟨_,parse_emitted bodies,?_,fun hnone => wellIndexed_of_no_imports hnone hbodies⟩
  intro hindexed
  -- The index of execute is 0, which is an import if there is one.
  obtain ⟨position,body,hdenoted,-,-⟩ := hindexed.exported _ (execute_exported host cfg bodies) rfl
  unfold denoted at hdenoted
  rw [functionSpace_emitted] at hdenoted
  cases himports : cfg.imports with
  | nil => rfl
  | cons imp imports =>
    rw [himports] at hdenoted
    cases hdenoted

theorem wellIndexed_sample : ∃ out s', Returns (emit sampleHost {} sampleSmir) {} out s' ∧
    ∃ m, parse out = .ok m ∧ WellIndexed sampleHost {} sampleSmir m := by
  have hreturns : ∃ out s', Returns (emit sampleHost {} sampleSmir) {} out s' :=
    exists_returns (by decide +kernel)
  obtain ⟨out,s',h⟩ := hreturns
  obtain ⟨m,hparse,hiff⟩ := wellIndexed_iff_no_imports sampleHost {} sampleSmir {} s' out h
  exact ⟨out,s',h,m,hparse,hiff.mpr rfl⟩

/-- The exported name execute stands for the import, and a call of shutdown is emitted with the
index of metadata. -/
theorem import_shifts_indices :
    ∃ out s', Returns (emit sampleHost sampleConfig sampleSmir) {} out s' ∧
    ∃ m, parse out = .ok m ∧
      ⟨literal "execute",0,0⟩ ∈ m.exports ∧ m.denoted 0 = some (.imported (literal "log")) ∧
      (localNames sampleConfig)[2]? = some (literal "shutdown") ∧
      (∃ body, m.code[0]? = some body ∧
        BodyOf sampleHost sampleConfig sampleSmir (literal "execute") body [[OP_CALL,4]]) ∧
      (localNames sampleConfig)[3]? = some (literal "metadata") ∧
      ∃ body, m.denoted 4 = some (.body 3 body) := by
  obtain ⟨out,s',h⟩ := emit_sample
  obtain ⟨bodies,hbodies,rfl⟩ := emit_returns h
  have hnames : localNames sampleConfig =
      [literal "execute",literal "initialize",literal "shutdown",literal "metadata"] := rfl
  have hlen : bodies.length = 4 := by
    rw [← hbodies.length_eq]
    rfl
  obtain ⟨body,hbody⟩ : ∃ body, bodies[0]? = some body := ⟨_,getElem?_eq_getElem (by omega)⟩
  obtain ⟨last,hlast⟩ : ∃ body, bodies[3]? = some body := ⟨_,getElem?_eq_getElem (by omega)⟩
  obtain ⟨name,hname,hemitted⟩ := exists_related hbodies hbody
  obtain rfl : literal "execute" = name := Option.some.inj hname
  obtain ⟨chunks,hchunks⟩ := hemitted.bodyOf
  have hcall : chunks = [[OP_CALL,4]] := by
    obtain ⟨s,u,ht,hcontributes,-⟩ := hchunks
    cases hcontributes with
    | @cons _ t _ _ _ chunk chunks emitted added rest =>
      cases rest with
      | nil =>
        have ht : (entered s (literal "execute")).tables = tablesOf sampleConfig := ht
        have hlocal : (localNames sampleConfig)[2]? = some (literal "shutdown") := rfl
        have himport : (tablesOf sampleConfig).importFuncIndices.find (literal "shutdown") = none := rfl
        rw [call_chunk ht emitted added rfl himport hlocal]
        rfl
  rw [hcall] at hchunks
  exact ⟨_,s',h,_,parse_emitted bodies,execute_exported _ _ _,rfl,rfl,⟨body,hbody,hchunks⟩,rfl,
    last,denoted_body hlast⟩

end SmoFramework.Compiler

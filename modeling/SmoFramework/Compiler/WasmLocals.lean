import SmoFramework.Compiler.WasmLayout
import SmoFramework.Compiler.WasmNumbers
import SmoFramework.Library.WasmCode

/-! The locals of an emitted body against what the body declares. The declaration is written before the
first local is allocated and so declares none, and a new local is not entered under its name. -/
namespace SmoFramework.Compiler
open Library Library.Attempt Library.Reader List WasmCode SmirOperand Instr
open Library.WasmBinary (parse)
open Library.WasmCode (Instr Spells)

/-- An operand that is read as a local only if it names one. -/
def SmirOperand.ifLocal (op : SmirOperand) : List (Option String) :=
  if op.inLocal then [some op.value] else []

def SmirOperand.ifGiven (op : SmirOperand) : List (Option String) :=
  if op.type ≠ .none then [some op.value] else []

/-- The operands for which an instruction emits accesses to locals, in order. -/
def SmirInstruction.locals (instr : SmirInstruction) : List (Option String) :=
  match instr.opcode with
  | .load => instr.lhs.ifLocal ++ instr.dst.ifGiven
  | .store => instr.rhs.ifLocal ++ instr.lhs.ifLocal
  | .cond | .assert => instr.lhs.ifLocal
  | .bindInput => if instr.dst.type ≠ .none then [none,none,some instr.dst.value] else []
  | .bindOutput => instr.lhs.ifGiven
  | .literal => instr.dst.ifGiven
  | .move => instr.lhs.ifGiven ++ instr.dst.ifGiven
  | .nop | .call | .seq | .parallel | .debug => []

/-- A body in which every index is one of a parameter or of a declared local, and operands have the
same index exactly if they have the same name. -/
structure SoundLocals (params : ℕ) (names : List (Option String)) (body : WasmCode.Body) : Prop where
  inRange : ∀ index ∈ body.code.filterMap local?, index < params+(body.locals.map Prod.fst).sum
  named : ∀ (j k : ℕ) (name name' : String), names[j]? = some (some name) → names[k]? = some (some name') →
    ((body.code.filterMap local?)[j]? = (body.code.filterMap local?)[k]? ↔ name = name')

def ModuleSound (cfg : WasmEmitterConfig) (smir : SmirModule) (m : WasmBinary.Module) : Prop :=
  ∀ (position : ℕ) (name : Bytes) (type : WasmBinary.FuncType) (bytes : Bytes),
    (localFunctions cfg)[position]? = some (name,type) → m.code[position]? = some bytes →
    ∃ body, WasmCode.body bytes = .ok body ∧
      SoundLocals type.params.length (smir.instructions.flatMap (·.locals)) body

/-! What a program adds to a body. -/

def Adds {α : Type} (n : ℕ) (x : Emit α) : Prop :=
  ∀ s a t, Returns x s a t → ∃ word code, t.binary = s.binary ++ word ∧ Spells word code ∧
    (code.filterMap local?).length = n

section
variable {α β : Type} {m n : ℕ} {x : Emit α} {f : α → Emit β}

lemma Adds.bind (h : Adds m x) (h' : ∀ a, Adds n (f a)) : Adds (m+n) (x >>= f) := by
  intro s b t hret
  obtain ⟨a,mid,hx,hf⟩ := returns_bind.mp hret
  obtain ⟨word,code,hword,hspells,hlen⟩ := h s a mid hx
  obtain ⟨word',code',hword',hspells',hlen'⟩ := h' a mid b t hf
  refine ⟨word ++ word',code ++ code',?_,hspells.append hspells',?_⟩
  · rw [hword',hword,append_assoc]
  · rw [filterMap_append,length_append,hlen,hlen']

lemma Adds.after (h : Adds 0 x) (h' : ∀ a, Adds n (f a)) : Adds n (x >>= f) := by
  rw [← Nat.zero_add n]
  exact h.bind h'

lemma Adds.pure (a : α) : Adds 0 (Pure.pure a : Emit α) := by
  intro s b t hret
  obtain ⟨-,rfl⟩ := returns_pure.mp hret
  exact ⟨[],[],by simp,.nil,rfl⟩

lemma Adds.view {g : WasmEmitter → α} : Adds 0 (Attempt.view g : Emit α) := by
  intro s b t hret
  obtain ⟨-,rfl⟩ := returns_view.mp hret
  exact ⟨[],[],by simp,.nil,rfl⟩

lemma Adds.writeBytes {code : List Instr} (h : Spells word code) :
    Adds (code.filterMap local?).length (writeBytes word) := by
  intro s b t hret
  obtain rfl := returns_update.mp hret
  exact ⟨word,code,rfl,h,rfl⟩

lemma Adds.writeOp (h : Reads (immediates op) word i) :
    Adds ([i].filterMap local?).length (do
      writeByte op
      Compiler.writeBytes word) := by
  intro s b t hret
  simp only [writeByte,Compiler.writeBytes,returns_bind,returns_update] at hret
  obtain ⟨_,_,rfl,rfl⟩ := hret
  exact ⟨op::word,[i],by simp,.one h,rfl⟩

lemma adds_getLocalIndex (name : Bytes) : Adds 0 (getLocalIndex name) := by
  refine Adds.view.after fun idx => ?_
  cases idx with
  | some idx => exact .pure idx
  | none =>
    intro s b t hret
    simp only [allocateLocal,returns_bind,returns_view,returns_update,returns_pure] at hret
    obtain ⟨_,_,⟨rfl,rfl⟩,_,_,rfl,-,rfl⟩ := hret
    exact ⟨[],[],by simp,.nil,rfl⟩

lemma adds_localGet (name : String) : Adds 1 (localGet name) := by
  refine (adds_getLocalIndex _).after fun idx => ?_
  exact .writeOp (reads_localGet idx.toNat)

lemma adds_localSet (name : String) : Adds 1 (localSet name) := by
  refine (adds_getLocalIndex _).after fun idx => ?_
  exact .writeOp (reads_localSet idx.toNat)

lemma reads_const (v : Int64) : Reads (immediates OP_I32_CONST) (sleb128 v) (.const v.toInt) := by
  rw [sleb128,sleb128Groups_eq]
  exact (Leb128.Form.reads_groups (f := Leb128.signed) ⟨v.le_toInt,v.toInt_lt⟩ (by decide)
    (by decide)).bind_pure

lemma adds_i32Const (value : String) : Adds 0 (i32Const value) := by
  intro s b t hret
  simp only [i32Const,writeByte,writeSleb128,Compiler.writeBytes,returns_bind,returns_update,returns_lift]
    at hret
  obtain ⟨_,_,rfl,val,_,⟨-,rfl⟩,rfl⟩ := hret
  exact ⟨OP_I32_CONST::sleb128 val,[.const val.toInt],by simp,.one (reads_const val),rfl⟩

lemma adds_ifLocal {op : SmirOperand} {x : Emit Unit} (h : Adds 1 x) :
    Adds op.ifLocal.length (onlyIf op.inLocal x) := by
  unfold ifLocal onlyIf
  split_ifs
  · exact h
  · exact .pure ()

lemma adds_ifGiven {op : SmirOperand} {x : Emit Unit} (h : Adds 1 x) :
    Adds op.ifGiven.length (onlyIf (op.type ≠ .none) x) := by
  unfold ifGiven onlyIf
  by_cases hgiven : op.type ≠ .none
  · simpa [hgiven] using h
  · simpa [hgiven] using Adds.pure ()

lemma adds_onlyIf {c : Prop} [Decidable c] {x : Emit Unit} (h : Adds 0 x) : Adds 0 (onlyIf c x) := by
  unfold onlyIf
  split_ifs
  · exact h
  · exact .pure ()

lemma adds_pushOperand (op : SmirOperand) : Adds op.ifLocal.length (pushOperand op) := by
  unfold pushOperand
  split_ifs with hliteral
  · rw [ifLocal,if_neg (by simp [inLocal,hliteral])]
    exact adds_i32Const _
  · exact adds_ifLocal (adds_localGet _)

/-- Opcodes without immediates. -/
theorem spells_plain (h : op ∈ [0x00,0x01,0x05,0x0B,0x0F]) : Spells [op] [.plain op] := by
  refine .one ?_
  rw [immediates,if_pos h]
  exact .pure _

lemma spells_zero : Spells [OP_I32_CONST,0] [.const 0] := .one (reads_const 0)

lemma spells_if : Spells [OP_IF,BLOCKTYPE_VOID] [.block BLOCKTYPE_VOID] :=
  .one (Reads.symbol () BLOCKTYPE_VOID).bind_pure

lemma spells_load : Spells [OP_I32_LOAD,0,0] [.load 0 0] :=
  .one ((Leb128.Reads.leb128 () 0).bind (Leb128.Reads.leb128 () 0).bind_pure)

variable {host : HostNames} {cfg : WasmEmitterConfig}

lemma adds_emitCall (funcName : Bytes) : Adds 0 (emitCall cfg funcName) := by
  refine Adds.view.after fun t => ?_
  cases t.importFuncIndices.find funcName with
  | some idx => exact .writeOp (reads_call idx.toNat)
  | none =>
    dsimp only
    cases t.localFuncIndices.find funcName with
    | some idx => exact .writeOp (reads_call _)
    | none => exact .writeBytes (spells_plain (by decide))

lemma adds_emitDebug : Adds 0 (emitDebug host) := by
  refine Adds.view.after fun idx => ?_
  cases idx with
  | none => exact .pure ()
  | some idx =>
    intro s b t hret
    simp only [Compiler.writeBytes,writeUleb128,returns_bind,returns_update] at hret
    obtain ⟨_,_,rfl,rfl⟩ := hret
    have hspells := (spells_zero.append spells_zero).append (.one (reads_call idx.toNat))
    exact ⟨_,_,append_assoc _ _ _,hspells,rfl⟩

lemma adds_emitInstruction (instr : SmirInstruction) :
    Adds instr.locals.length (emitInstruction host cfg instr) := by
  unfold emitInstruction SmirInstruction.locals
  cases instr.opcode with
  | nop => exact .writeBytes (spells_plain (by decide))
  | call => exact adds_emitCall _
  | load =>
    dsimp only
    rw [length_append]
    refine (adds_ifLocal (adds_localGet _)).bind fun _ => ?_
    refine (adds_onlyIf ?_).after fun _ => adds_ifGiven (adds_localSet _)
    exact (adds_onlyIf (adds_i32Const _)).after fun _ => .writeBytes spells_load
  | store =>
    dsimp only
    rw [length_append]
    exact (adds_pushOperand _).bind fun _ => adds_ifLocal (adds_localSet _)
  | cond =>
    refine Adds.bind (n := 0) (adds_pushOperand _) fun _ => ?_
    exact .writeBytes (spells_if.append ((spells_plain (by decide)).append (spells_plain (by decide))))
  | seq => exact .pure ()
  | parallel => exact .pure ()
  | bindInput =>
    dsimp only [onlyIf]
    by_cases hgiven : instr.dst.type ≠ .none
    · rw [if_pos hgiven,if_pos hgiven]
      refine Adds.bind (m := 2) ?_ fun _ => adds_localSet _
      exact .writeBytes ((Spells.one (reads_localGet 0)).append (.one (reads_localGet 1)))
    · rw [if_neg hgiven,if_neg hgiven]
      exact .pure ()
  | bindOutput => exact adds_ifGiven (adds_localGet _)
  | literal => exact (adds_onlyIf (adds_i32Const _)).after fun _ => adds_ifGiven (adds_localSet _)
  | move =>
    dsimp only
    rw [length_append]
    exact (adds_ifGiven (adds_localGet _)).bind fun _ => adds_ifGiven (adds_localSet _)
  | assert =>
    refine Adds.bind (n := 0) (adds_pushOperand _) fun _ => ?_
    exact .writeBytes (spells_if.append ((spells_plain (by decide)).append (spells_plain (by decide))))
  | debug => exact adds_emitDebug

end

/-! Bodies. -/

variable {host : HostNames} {cfg : WasmEmitterConfig} {smir : SmirModule}

lemma Contributes.spells
    (h : Contributes host cfg s instrs chunks u) : ∃ code, Spells chunks.flatten code ∧
      (code.filterMap local?).length = (instrs.flatMap (·.locals)).length := by
  induction h with
  | nil s => exact ⟨[],.nil,rfl⟩
  | @cons s t u instr instrs chunk chunks emitted added rest ih =>
    obtain ⟨word,code,hword,hspells,hlen⟩ := adds_emitInstruction instr s () t emitted
    obtain rfl : chunk = word := append_cancel_left (added.symm.trans hword)
    obtain ⟨code',hspells',hlen'⟩ := ih
    refine ⟨code ++ code',hspells.append hspells',?_⟩
    rw [filterMap_append,length_append,hlen,hlen',flatMap_cons,length_append]

lemma spells_closing (funcName : Bytes) :
    ∃ code, Spells (closing funcName) code ∧ code.filterMap local? = [] := by
  have hreturn : Spells [OP_RETURN] [.plain OP_RETURN] := spells_plain (by decide)
  have hend := hreturn.append (spells_plain (by decide) : Spells [OP_END] _)
  unfold closing
  split_ifs
  · exact ⟨_,(spells_zero.append spells_zero).append hend,rfl⟩
  · exact ⟨_,spells_zero.append hend,rfl⟩

/-- A body declares no locals, and accesses one for every operand that is read as a local. -/
theorem EmittedBody.read (h : EmittedBody host cfg smir funcName bytes) :
    ∃ code, body bytes = .ok ⟨[],code⟩ ∧
      (code.filterMap local?).length = (smir.instructions.flatMap (·.locals)).length := by
  obtain ⟨chunks,s,u,-,hchunks,rfl⟩ := h.bodyOf
  obtain ⟨code,hspells,hlen⟩ := hchunks.spells
  obtain ⟨code',hspells',hnone⟩ := spells_closing funcName
  refine ⟨code ++ code',(hspells.append hspells').body_eq,?_⟩
  rw [filterMap_append,hnone,append_nil,hlen]

/-- The locals of an emitted module are sound exactly if no instruction of the program reads an operand
as a local: shutdown, which has the same instructions as every other function, has no parameters. -/
theorem moduleSound_iff_no_locals (host : HostNames) (cfg : WasmEmitterConfig) (smir : SmirModule)
    (s s' : WasmEmitter) (out : Bytes) (h : Returns (emit host cfg smir) s out s') :
    ∃ m, parse out = .ok m ∧
      (ModuleSound cfg smir m ↔ ∀ instr ∈ smir.instructions, instr.locals = []) := by
  obtain ⟨bodies,hbodies,rfl⟩ := emit_returns h
  refine ⟨_,parse_emitted bodies,?_⟩
  rw [← List.flatMap_eq_nil_iff]
  constructor
  · intro hsound
    have hmem : (literal "shutdown",⟨[],[VALTYPE_I32]⟩) ∈ localFunctions cfg := by simp [localFunctions]
    obtain ⟨k,hk⟩ := List.getElem?_of_mem hmem
    have hlt : k < bodies.length := by
      rw [← hbodies.length_eq,localNames,List.length_map]
      exact (List.getElem?_eq_some_iff.mp hk).1
    have hbody : bodies[k]? = some bodies[k] := List.getElem?_eq_getElem hlt
    obtain ⟨body,hread,hlocals⟩ := hsound k _ _ _ hk hbody
    obtain ⟨name,-,hemitted⟩ := exists_related hbodies hbody
    obtain ⟨code,hcode,hlen⟩ := hemitted.read
    obtain rfl := Except.ok.inj (hread.symm.trans hcode)
    rw [← List.length_eq_zero_iff,← hlen,List.length_eq_zero_iff,List.eq_nil_iff_forall_not_mem]
    exact fun index hindex => Nat.not_lt_zero _ (hlocals.inRange index hindex)
  · intro hnone position name type bytes hname hbody
    obtain ⟨_,-,hemitted⟩ := exists_related hbodies hbody
    obtain ⟨code,hcode,hlen⟩ := hemitted.read
    rw [hnone,List.length_nil,List.length_eq_zero_iff] at hlen
    refine ⟨_,hcode,?_,?_⟩
    · simp [hlen]
    · simp [hnone]

theorem moduleSound_sample : ∃ out s', Returns (emit sampleHost sampleConfig sampleSmir) {} out s' ∧
    ∃ m, parse out = .ok m ∧ ModuleSound sampleConfig sampleSmir m := by
  obtain ⟨out,s',h⟩ := emit_sample
  obtain ⟨m,hparse,hiff⟩ := moduleSound_iff_no_locals sampleHost sampleConfig sampleSmir {} s' out h
  exact ⟨out,s',h,m,hparse,hiff.mpr (by decide)⟩

def moveSmir : SmirModule where
  blocks := [{ instructions := [{ opcode := .move, lhs := ⟨.identifier,"x"⟩, dst := ⟨.identifier,"x"⟩ }] }]

/-- The one operand of the program is local 0 where it is read and local 1 where it is written. -/
theorem move_breaks_locals : ∃ out s', Returns (emit sampleHost {} moveSmir) {} out s' ∧
    ∃ m, parse out = .ok m ∧
      (localFunctions {})[1]? = some (literal "shutdown",⟨[],[VALTYPE_I32]⟩) ∧
      ∃ bytes, m.code[1]? = some bytes ∧ WasmCode.body bytes =
        .ok ⟨[],[.localGet 0,.localSet 1,.const 0,.plain OP_RETURN,.plain OP_END]⟩ := by
  have hbytes : ((emit sampleHost {} moveSmir).outcome {}).any (fun r => r.1.toOption.any fun out =>
      (parse out).toOption.any fun m => m.code[1]? = some [0,0x20,0,0x21,1,0x41,0,0x0F,0x0B]) = true := by
    decide +kernel
  obtain ⟨out,s',h⟩ : ∃ out s', Returns (emit sampleHost {} moveSmir) {} out s' :=
    exists_returns (by decide +kernel)
  rw [show (emit sampleHost {} moveSmir).outcome {} = _ from h] at hbytes
  change (parse out).toOption.any _ = true at hbytes
  refine ⟨out,s',h,?_⟩
  cases hparse : parse out with
  | error e =>
    rw [hparse] at hbytes
    cases hbytes
  | ok m =>
    rw [hparse] at hbytes
    exact ⟨m,rfl,rfl,_,of_decide_eq_true hbytes,by decide +kernel⟩

end SmoFramework.Compiler

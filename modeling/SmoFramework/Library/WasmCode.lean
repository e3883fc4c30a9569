import SmoFramework.Library.WasmBinary

/-! Function bodies of WebAssembly: a reader for the declared locals and for those instructions that need
no table of types. Blocks are not nested here: their openings and ends are instructions of the list.
Constants are read with 64 bits. -/
namespace SmoFramework.Library.WasmCode
open Reader WasmBinary Leb128.Reads

inductive Instr
  | plain (opcode : UInt8)
  | block (type : UInt8)
  | call (index : ℕ)
  | localGet (index : ℕ)
  | localSet (index : ℕ)
  | load (align offset : ℕ)
  | const (value : ℤ)
  deriving DecidableEq

def Instr.local? : Instr → Option ℕ
  | .localGet index => some index
  | .localSet index => some index
  | _ => none

def immediates (opcode : UInt8) : Parser Instr :=
  if opcode ∈ [0x00,0x01,0x05,0x0B,0x0F] then pure (.plain opcode)
  else if opcode = 0x04 then do
    let type ← byte
    pure (.block type)
  else if opcode = 0x10 then do
    let index ← number
    pure (.call index)
  else if opcode = 0x20 then do
    let index ← number
    pure (.localGet index)
  else if opcode = 0x21 then do
    let index ← number
    pure (.localSet index)
  else if opcode = 0x28 then do
    let align ← number
    let offset ← number
    pure (.load align offset)
  else if opcode = 0x41 then do
    let value ← (Leb128.signed.read () 64 : Parser ℤ)
    pure (.const value)
  else lift (.error ())

def instr : Parser Instr := do
  let opcode ← byte
  immediates opcode

/-- Instructions up to the end of the input, of which the fuel bounds the number. -/
def code : ℕ → List UInt8 → Except Unit (List Instr)
  | _,[] => .ok []
  | 0,_::_ => .error ()
  | fuel+1,b::input => do
    let (i,rest) ← instr.run (b::input)
    let is ← code fuel rest
    pure (i::is)

structure Body where
  locals : List (ℕ × UInt8)
  code : List Instr
  deriving DecidableEq

def localGroup : Parser (ℕ × UInt8) := do
  let count ← number
  let type ← byte
  pure (count,type)

def body (input : List UInt8) : Except Unit Body := do
  let (locals,rest) ← (list localGroup).run input
  let instrs ← code rest.length rest
  pure ⟨locals,instrs⟩

/-! Words that are read as instructions. -/

lemma reads_call (n : ℕ) : Reads (immediates 0x10) (Leb128.write n) (.call n) :=
  (leb128 () n).bind_pure

lemma reads_localGet (n : ℕ) : Reads (immediates 0x20) (Leb128.write n) (.localGet n) :=
  (leb128 () n).bind_pure

lemma reads_localSet (n : ℕ) : Reads (immediates 0x21) (Leb128.write n) (.localSet n) :=
  (leb128 () n).bind_pure

inductive Spells : List UInt8 → List Instr → Prop
  | nil : Spells [] []
  | cons {b : UInt8} {word rest : List UInt8} {i : Instr} {is : List Instr}
      (first : Reads (immediates b) word i) (more : Spells rest is) :
      Spells (b::(word ++ rest)) (i::is)

lemma Spells.one (h : Reads (immediates b) word i) :
    Spells (b::word) [i] := by
  have hspells := Spells.cons h .nil
  rwa [List.append_nil] at hspells

lemma Spells.append (h : Spells word is)
    (h' : Spells word' is') : Spells (word ++ word') (is ++ is') := by
  induction h with
  | nil => exact h'
  | cons first more ih =>
    rw [List.cons_append,List.append_assoc]
    exact .cons first ih

lemma Spells.code_eq (h : Spells word is)
    (hfuel : word.length ≤ fuel) : code fuel word = .ok is := by
  induction h generalizing fuel with
  | nil => cases fuel <;> rfl
  | @cons b word rest i is first more ih =>
    rw [List.length_cons,List.length_append] at hfuel
    obtain ⟨fuel,rfl⟩ : ∃ k, fuel = k+1 := ⟨fuel-1,by omega⟩
    have hinstr : instr.run (b::(word ++ rest)) = .ok (i,rest) := (Reads.symbol () b).bind first rest
    rw [code,hinstr]
    change (code fuel rest >>= _) = _
    rw [ih (by omega)]
    rfl

lemma Spells.body_eq (h : Spells word is) :
    body (Leb128.write 0 ++ word) = .ok ⟨[],is⟩ := by
  have hlocals : (list localGroup).run (Leb128.write 0 ++ word) = .ok ([],word) :=
    ((leb128 () 0).bind (.pure [])) word
  rw [body,hlocals]
  change (code word.length word >>= _) = _
  rw [h.code_eq le_rfl]
  rfl

end SmoFramework.Library.WasmCode

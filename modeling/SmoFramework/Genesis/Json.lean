import Mathlib.Tactic.IntervalCases
import SmoFramework.Errors
import SmoFramework.Library.Numeral
import SmoFramework.Library.TextSearch

/-! The hand-written JSON text of the genesis files (`core/genesis/recovery_package`,
`core/genesis/genesis_manifest`), with the number parsing it calls and the hex form of
`core/types`. A position in a text is the text from there on. -/
namespace SmoFramework.Genesis
open Library.TextSearch Library.Numeral List

def text (s : String) : Bytes := s.toUTF8.data.toList

/-! Writing. -/

/-- `bytes_to_hex`: two lower-case digits for every byte. -/
def bytesToHex (data : Bytes) : Bytes :=
  data.flatMap fun b => [digitChar (b.toNat/16),digitChar (b.toNat%16)]

def decimal (n : ℕ) : Bytes := render 10 n

def escaped (s : Bytes) : Bytes := s.flatMap fun c => if c = 34 ∨ c = 92 then [92,c] else [c]

/-- `json_esc`: in quotes, with a backslash before every quote and every backslash. -/
def jsonEsc (s : Bytes) : Bytes := 34::(escaped s ++ [34])

def jsonField (key : String) (value : Bytes) : Bytes :=
  text "  \"" ++ (text key ++ (text "\": " ++ value))

def jsonLine (field : String × Bytes) : Bytes := jsonField field.1 field.2 ++ text ",\n"

/-! Reading. -/

/-- `json_extract_str`: the first occurrence of the key, then a colon, then the text between the
next two quotes. -/
def jsonExtractStr (key json : Bytes) : Bytes :=
  Option.getD (do
    let pos ← find key json
    let pos ← findFirst (· == 58) pos
    let pos ← findFirst (· == 34) pos
    let pos := pos.drop 1
    let _ ← findFirst (· == 34) pos
    some (pos.takeWhile (· != 34))) []

def isSpace (c : UInt8) : Bool := c == 32 || (9 ≤ c && c ≤ 13)

def skipBase (b : ℕ) : Bytes → Bytes
  | 48::x::d::rest => if b = 16 ∧ (x = 120 ∨ x = 88) ∧ isDigit 16 d then d::rest else 48::x::d::rest
  | s => s

def clamp (negative : Bool) (v : ℕ) : UInt64 :=
  if 2^64 ≤ v then UInt64.ofNat (2^64-1)
  else if negative then 0-UInt64.ofNat v else UInt64.ofNat v

/-- `strtoul` and `strtoull`, both of 64 bits: blanks, a sign, then digits as far as they go. -/
def strtoul (b : ℕ) (s : Bytes) : UInt64 :=
  match s.dropWhile isSpace with
  | 45::rest => clamp true (scan b (skipBase b rest))
  | 43::rest => clamp false (scan b (skipBase b rest))
  | rest => clamp false (scan b (skipBase b rest))

/-- `json_extract_int`: the number at the first digit after the key and a colon. -/
def jsonExtractInt (key json : Bytes) : UInt64 :=
  Option.getD (do
    let pos ← find key json
    let pos ← findFirst (· == 58) pos
    let pos ← findFirst (isDigit 10) pos
    some (strtoul 10 pos)) 0

/-- The vector has half as many places as the text has characters, so a last odd digit is written
past its end: no result. -/
def decodeHex : Bytes → Option Bytes
  | [] => some []
  | [_] => none
  | a::b::rest => (decodeHex rest).map fun bytes => (strtoul 16 [a,b]).toUInt8::bytes

/-! Hex text. -/

lemma strtoul_hex_pair :
    ∀ n < 256, (strtoul 16 [digitChar (n/16),digitChar (n%16)]).toUInt8 = UInt8.ofNat n := by
  decide +kernel

lemma decodeHex_bytesToHex (data : Bytes) : decodeHex (bytesToHex data) = some data := by
  induction data with
  | nil => rfl
  | cons b data ih =>
    have hpair := strtoul_hex_pair b.toNat b.toNat_lt
    simp only [bytesToHex] at ih
    simp [bytesToHex,decodeHex,ih,hpair]

lemma bytesToHex_injective : Function.Injective bytesToHex := by
  intro data data' h
  have hdecoded := congrArg decodeHex h
  rw [decodeHex_bytesToHex,decodeHex_bytesToHex] at hdecoded
  exact Option.some.inj hdecoded

lemma digitChar_hex : ∀ d < 16, isDigit 16 (digitChar d) = true := by decide

variable {c : UInt8}

lemma isDigit_of_mem_bytesToHex (h : c ∈ bytesToHex data) :
    isDigit 16 c = true := by
  obtain ⟨b,-,hc⟩ := mem_flatMap.mp h
  have hb := b.toNat_lt
  simp only [mem_cons,not_mem_nil,or_false] at hc
  rcases hc with rfl | rfl
  · exact digitChar_hex _ (by omega)
  · exact digitChar_hex _ (by omega)

/-! Decimal text. -/

lemma isDigit_of_mem_decimal (h : c ∈ decimal n) : isDigit 10 c = true :=
  isDigit_of_mem_render (by decide) (by decide) h

lemma isSpace_of_isDigit : isDigit 10 c = true → isSpace c = false ∧ c ≠ 45 ∧ c ≠ 43 :=
  forall_byte (P := fun c => isDigit 10 c = true → isSpace c = false ∧ c ≠ 45 ∧ c ≠ 43)
    (by decide +kernel) c

lemma strtoul_digit (hc : isDigit 10 c = true) (rest : Bytes) :
    strtoul 10 (c::rest) = clamp false (scan 10 (c::rest)) := by
  obtain ⟨hspace,hminus,hplus⟩ := isSpace_of_isDigit hc
  have hskip : skipBase 10 (c::rest) = c::rest := by
    unfold skipBase
    split <;> simp_all
  rw [strtoul,dropWhile_cons_of_neg (by simp [hspace])]
  split
  · simp_all
  · simp_all
  · rw [hskip]

lemma strtoul_decimal (hn : n < 2^64) (hc : isDigit 10 c = false) (rest : Bytes) :
    strtoul 10 (decimal n ++ c::rest) = UInt64.ofNat n := by
  have hscan := scan_render (b := 10) (by decide) (by decide) n hc rest
  obtain ⟨d,ds,hd⟩ := exists_cons_of_ne_nil (render_ne_nil (b := 10) n)
  have hdigit : isDigit 10 d = true := isDigit_of_mem_decimal (n := n) (by simp [decimal,hd])
  rw [hd,cons_append] at hscan
  rw [decimal,hd,cons_append,strtoul_digit hdigit,hscan,clamp,if_neg (by omega)]
  simp

/-! Escaped text. -/

/-- Text that `json_esc` only puts in quotes. -/
def Plain (s : Bytes) : Prop := 34 ∉ s ∧ 92 ∉ s

instance (s : Bytes) : Decidable (Plain s) := inferInstanceAs (Decidable (_ ∧ _))

lemma escaped_eq_self (h : Plain s) : escaped s = s := by
  induction s with
  | nil => rfl
  | cons c s ih =>
    simp only [Plain,mem_cons,not_or] at h
    have hs := ih ⟨h.1.2,h.2.2⟩
    simp only [escaped] at hs
    simp [escaped,hs,Ne.symm h.1.1,Ne.symm h.2.1]

lemma length_escaped (s : Bytes) :
    (escaped s).length = s.length+s.countP (fun c => c = 34 ∨ c = 92) := by
  induction s with
  | nil => rfl
  | cons c s ih =>
    simp only [escaped] at ih
    by_cases hc : c = 34 ∨ c = 92
    · simp [escaped,hc,ih]
      omega
    · simp [escaped,hc,ih]
      omega

lemma quote_mem_escaped (h : 34 ∈ escaped s) : 34 ∈ s := by
  obtain ⟨c,hc,hmem⟩ := mem_flatMap.mp h
  split_ifs at hmem with hesc
  · have h34 : 34 = c := by simpa using hmem
    exact h34 ▸ hc
  · have h34 : 34 = c := by simpa using hmem
    exact h34 ▸ hc

theorem takeWhile_escaped : (escaped s).takeWhile (· != 34) = s ↔ Plain s := by
  constructor
  · intro h
    have hquote : 34 ∉ s := by
      intro hm
      rw [← h] at hm
      simpa using mem_takeWhile_imp hm
    have hall : (escaped s).takeWhile (· != 34) = escaped s := takeWhile_eq_self_iff.mpr
      (fun c hc => by
        have hne : c ≠ 34 := fun hc34 => hquote (quote_mem_escaped (hc34 ▸ hc))
        simpa using hne)
    have hlen := length_escaped s
    rw [← hall,h] at hlen
    have hnone : s.countP (fun c => c = 34 ∨ c = 92) = 0 := by omega
    refine ⟨hquote,fun hm => ?_⟩
    simpa using countP_eq_zero.mp hnone 92 hm
  · intro h
    rw [escaped_eq_self h]
    exact takeWhile_eq_self_iff.mpr (fun c hc => by
      have hne : c ≠ 34 := fun hc34 => h.1 (hc34 ▸ hc)
      simpa using hne)

/-! Keys and lines. -/

def isKeyChar (c : UInt8) : Bool := c == 95 || isDigit 10 c || (97 ≤ c && c ≤ 122)

/-- A name in lower case with an underscore, as every key that is looked up is. -/
def IsKey (key : Bytes) : Prop := 95 ∈ key ∧ ∀ c ∈ key, isKeyChar c = true

instance (key : Bytes) : Decidable (IsKey key) := inferInstanceAs (Decidable (_ ∧ _))

variable {key : Bytes}

lemma IsKey.not_mem (hkey : IsKey key) (hc : isKeyChar c = false) :
    c ∉ key := fun hm => by simp [hkey.2 c hm] at hc

lemma IsKey.not_within (hkey : IsKey key) (hl : 95 ∉ l) : ¬key <:+: l := not_infix_of_mem hkey.1 hl

lemma jsonField_append (key : String) (value rest : Bytes) : jsonField key value ++ rest =
    [32,32] ++ 34::((text key ++ [34,58]) ++ 32::(value ++ rest)) := by
  have hopen : text "  \"" = [32,32,34] := by decide +kernel
  have hclose : text "\": " = [34,58,32] := by decide +kernel
  simp [jsonField,hopen,hclose]

variable {rest : Bytes}

lemma find_jsonField (hkey : IsKey key) {value : Bytes} (hc : isKeyChar c = false)
    (hname : ¬key <:+: text name) (hvalue : ¬key <:+: value) :
    find key (jsonField name value ++ c::rest) = find key rest := by
  have hquote : ¬key <:+: text name ++ [34,58] := by
    rw [infix_append_cons (hkey.not_mem (by decide))]
    exact not_or.mpr ⟨hname,hkey.not_within (by decide)⟩
  rw [jsonField_append,find_append_cons (hkey.not_mem (by decide)) (hkey.not_within (by decide)),
    find_append_cons (hkey.not_mem (by decide)) hquote,find_append_cons (hkey.not_mem hc) hvalue]

lemma find_lines (hkey : IsKey key) {fields : List (String × Bytes)}
    (hfields : ∀ f ∈ fields, ¬key <:+: text f.1 ∧ ¬key <:+: f.2) (rest : Bytes) :
    find key (fields.flatMap jsonLine ++ rest) = find key rest := by
  have hcomma : text ",\n" = [44,10] := by decide +kernel
  induction fields with
  | nil => rfl
  | cons f fields ih =>
    obtain ⟨hname,hvalue⟩ := hfields f mem_cons_self
    have hstep : (f::fields).flatMap jsonLine ++ rest =
        jsonField f.1 f.2 ++ 44::([] ++ 10::(fields.flatMap jsonLine ++ rest)) := by
      simp [jsonLine,hcomma]
    rw [hstep,find_jsonField hkey (by decide) hname hvalue,
      find_append_cons (hkey.not_mem (by decide)) (hkey.not_within (by decide))]
    exact ih (fun g hg => hfields g (mem_cons_of_mem _ hg))

lemma find_jsonField_self {key : String} (hkey : IsKey (text key)) (value rest : Bytes) :
    find (text key) (jsonField key value ++ rest) =
      some (text key ++ 34::58::32::(value ++ rest)) := by
  rw [jsonField_append,find_append_cons (hkey.not_mem (by decide)) (hkey.not_within (by decide))]
  simpa using find_append_self (text key) (34::58::32::(value ++ rest))

/-! What a reader takes from the position of a key. -/

lemma findFirst_colon (hkey : IsKey key) (rest : Bytes) :
    findFirst (· == 58) (key ++ 34::58::rest) = some (58::rest) := by
  have h := findFirst_append_cons (p := (· == 58)) (c := (58 : UInt8)) (a := key ++ [34])
    (b := rest) (by
      intro x hx
      rcases mem_append.mp hx with hx | hx
      · exact beq_eq_false_iff_ne.mpr (fun h => hkey.not_mem (by decide) (h ▸ hx))
      · simp_all) (by decide)
  simpa using h

lemma jsonExtractStr_of_find (hkey : IsKey key)
    (hfind : find key json = some (key ++ 34::58::32::34::(body ++ 34::rest))) :
    jsonExtractStr key json = body.takeWhile (· != 34) := by
  obtain ⟨x,-,hend⟩ := findFirst_stops (p := (· == 34)) (c := (34 : UInt8)) (by decide) body rest
  have hquote : findFirst (· == 34) (58::32::34::(body ++ 34::rest)) =
      some (34::(body ++ 34::rest)) := by simp [findFirst]
  simp [jsonExtractStr,hfind,findFirst_colon hkey,hquote,hend,
    takeWhile_append_cons (p := (· != 34)) (c := (34 : UInt8))]

lemma jsonExtractInt_of_find (hkey : IsKey key) (hn : n < 2^64)
    (hc : isDigit 10 c = false)
    (hfind : find key json = some (key ++ 34::58::32::(decimal n ++ c::rest))) :
    jsonExtractInt key json = UInt64.ofNat n := by
  obtain ⟨d,ds,hd⟩ := exists_cons_of_ne_nil (render_ne_nil (b := 10) n)
  have hdigit : isDigit 10 d = true := isDigit_of_mem_decimal (n := n) (by simp [decimal,hd])
  have hfirst : findFirst (isDigit 10) (58::32::(decimal n ++ c::rest)) =
      some (decimal n ++ c::rest) := by
    have h58 : isDigit 10 58 = false := by decide
    have h32 : isDigit 10 32 = false := by decide
    simp [findFirst,h58,h32,decimal,hd,hdigit]
  simp [jsonExtractInt,hfind,findFirst_colon hkey,hfirst,strtoul_decimal hn hc]

lemma quote_not_mem_jsonExtractStr (key json : Bytes) : 34 ∉ jsonExtractStr key json := by
  have hget : ∀ o : Option Bytes, (∀ v, o = some v → 34 ∉ v) → 34 ∉ o.getD [] := by
    rintro (_ | v) h
    · simp
    · exact h v rfl
  apply hget
  intro v hv
  simp only [Option.bind_eq_bind,Option.bind_eq_some_iff,Option.some.injEq] at hv
  obtain ⟨_,_,_,_,_,_,_,_,rfl⟩ := hv
  intro hm
  simpa using mem_takeWhile_imp hm

lemma jsonExtractStr_cases (key pre body rest : Bytes) :
    jsonExtractStr key (pre ++ (key ++ 34::58::32::34::(body ++ 34::rest))) =
        body.takeWhile (· != 34) ∨
      ∀ c ∈ jsonExtractStr key (pre ++ (key ++ 34::58::32::34::(body ++ 34::rest))),
        c ∈ pre ++ (key ++ [34,58,32]) := by
  obtain ⟨x,hx,hfind⟩ := find_stops key pre (34::58::32::34::(body ++ 34::rest))
  obtain ⟨y,hy,hcolon⟩ := findFirst_stops (p := (· == 58)) (c := (58 : UInt8)) (by decide)
    (x ++ (key ++ [34])) (32::34::(body ++ 34::rest))
  obtain ⟨z,hz,hquote⟩ := findFirst_stops (p := (· == 34)) (c := (34 : UInt8)) (by decide)
    (y ++ [58,32]) (body ++ 34::rest)
  simp only [append_assoc,cons_append,nil_append] at hcolon hquote
  cases z with
  | nil =>
    left
    obtain ⟨w,-,hend⟩ := findFirst_stops (p := (· == 34)) (c := (34 : UInt8)) (by decide) body rest
    simp [jsonExtractStr,hfind,hcolon,hquote,hend,
      takeWhile_append_cons (p := (· != 34)) (c := (34 : UInt8))]
  | cons q z =>
    right
    obtain ⟨w,-,hend⟩ := findFirst_stops (p := (· == 34)) (c := (34 : UInt8)) (by decide) z
      (body ++ 34::rest)
    have hread : jsonExtractStr key (pre ++ (key ++ 34::58::32::34::(body ++ 34::rest))) =
        z.takeWhile (· != 34) := by
      simp [jsonExtractStr,hfind,hcolon,hquote,hend,
        takeWhile_append_cons (p := (· != 34)) (c := (34 : UInt8))]
    intro c hc
    rw [hread] at hc
    have hcz : c ∈ y ∨ c = 58 ∨ c = 32 := by
      simpa using hz.subset (mem_cons_of_mem q ((takeWhile_subset _) hc))
    have hcy : c ∈ y → c ∈ x ∨ c ∈ key ∨ c = 34 := fun h => by simpa using hy.subset h
    have hcx : c ∈ x → c ∈ pre := fun h => hx.subset h
    simp only [mem_append,mem_cons]
    tauto

end SmoFramework.Genesis

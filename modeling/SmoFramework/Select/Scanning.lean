import SmoFramework.Library.TokenParser
import SmoFramework.Select.Expression

/-! What the lexer delivers. A text *scans* as a list of tokens if it is read as these tokens up to its
end, and a lexer *holds* the tokens that it still has to deliver, the lookahead first. To a parser
nothing else of the lexer is visible. -/
namespace SmoFramework.Select
open Library List

def Scans : Text → List Token → Prop
  | src,[] => skipWhitespace src = []
  | src,t::ts => (advance src).1 = t ∧ t.type ≠ .eof ∧ Scans (advance src).2 ts

instance Scans.decide : (src : Text) → (toks : List Token) → Decidable (Scans src toks)
  | _,[] => inferInstanceAs (Decidable (_ = _))
  | src,_::ts =>
    have := Scans.decide (advance src).2 ts
    inferInstanceAs (Decidable (_ ∧ _ ∧ _))

def front (toks : List Token) : Token := toks.headD .eof

lemma advance_of_skipWhitespace (h : skipWhitespace src = []) :
    advance src = (.eof,[]) := by
  unfold advance
  rw [h]

namespace Scans
variable {src : Text} {toks : List Token}

lemma advance (h : Scans src toks) :
    (advance src).1 = front toks ∧ Scans (Select.advance src).2 toks.tail := by
  cases toks with
  | nil =>
    rw [advance_of_skipWhitespace h]
    exact ⟨rfl,rfl⟩
  | cons t ts => exact ⟨h.1,h.2.2⟩

lemma eq_nil (h : Scans src toks) (heof : (front toks).type = .eof) : toks = [] := by
  cases toks with
  | nil => rfl
  | cons t ts => exact absurd heof h.2.1

end Scans

def Lexer.Holds (lex : Lexer) (toks : List Token) : Prop :=
  if lex.lookahead.type = .eof then Scans lex.src toks
  else ∃ rest, toks = lex.lookahead::rest ∧ Scans lex.src rest

lemma Lexer.holds_start (h : Scans text toks) :
    Lexer.Holds ⟨text,.eof⟩ toks := by
  unfold Lexer.Holds
  exact (if_pos rfl).mpr h

lemma parses_peek (toks : List Token) : Parses Lexer.Holds peek toks (front toks) toks := by
  intro lex hlex
  unfold peek
  by_cases heof : lex.lookahead.type = .eof
  · unfold Lexer.Holds at hlex
    rw [if_pos heof] at hlex
    obtain ⟨hnext,hrest⟩ := hlex.advance
    rw [if_neg (not_not.mpr heof),hnext]
    refine ⟨_,rfl,?_⟩
    unfold Lexer.Holds
    split_ifs with hend
    · rw [hlex.eq_nil hend] at hrest ⊢
      exact hrest
    · cases toks with
      | nil => exact absurd rfl hend
      | cons t ts => exact ⟨ts,rfl,hrest⟩
  · have hheld := hlex
    unfold Lexer.Holds at hheld
    rw [if_neg heof] at hheld
    obtain ⟨rest,rfl,_⟩ := hheld
    rw [if_pos heof]
    exact ⟨lex,rfl,hlex⟩

lemma parses_consume (toks : List Token) :
    Parses Lexer.Holds consume toks (front toks) toks.tail := by
  intro lex hlex
  unfold consume
  unfold Lexer.Holds at hlex
  by_cases heof : lex.lookahead.type = .eof
  · rw [if_pos heof] at hlex
    obtain ⟨hnext,hrest⟩ := hlex.advance
    rw [if_neg (not_not.mpr heof),hnext]
    exact ⟨_,rfl,Lexer.holds_start hrest⟩
  · rw [if_neg heof] at hlex
    obtain ⟨rest,rfl,hrest⟩ := hlex
    rw [if_pos heof]
    exact ⟨_,rfl,Lexer.holds_start hrest⟩

/-! Every token takes at least one character. -/

lemma length_ite_le {c : Prop} [Decidable c] {out other : Token × Text}
    (hout : c → out.2.length ≤ n) (hother : other.2.length ≤ n) :
    (if c then out else other).2.length ≤ n := by
  by_cases hc : c
  · rw [if_pos hc]
    exact hout hc
  · rw [if_neg hc]
    exact hother

lemma isIdentChar_of_start (h : c.isAlpha ∨ c = '_') : isIdentChar c := by
  apply decide_eq_true
  rcases h with h | h
  · exact .inl (Bool.or_eq_true_iff.mpr (.inl h))
  · exact .inr (.inl h)

lemma length_scanToken_le (c : Char) (rest : Text) : (scanToken c rest).2.length ≤ rest.length := by
  have hself : rest.length ≤ rest.length := le_rfl
  have htail : rest.tail.length ≤ rest.length := by simp
  have hdrop : ∀ p, (rest.dropWhile p).length ≤ rest.length :=
    fun p => (dropWhile_suffix p).length_le
  unfold scanToken
  apply length_ite_le
  · intro _
    unfold scanString
    rw [length_tail]
    exact (Nat.sub_le _ _).trans (hdrop _)
  iterate 4 refine length_ite_le (fun _ => by assumption) ?_
  iterate 2 refine length_ite_le (fun _ => length_ite_le (fun _ => htail) hself) ?_
  iterate 3 refine length_ite_le (fun _ => by assumption) ?_
  apply length_ite_le
  · intro hc
    rw [dropWhile_cons_of_pos (isIdentChar_of_start hc)]
    exact hdrop _
  apply length_ite_le
  · intro hc
    have hnumber : isNumberChar c := decide_eq_true hc
    rw [dropWhile_cons_of_pos hnumber]
    exact hdrop _
  exact hself

lemma length_advance_lt (h : (advance src).1.type ≠ .eof) :
    (advance src).2.length < src.length := by
  have hskip : (skipWhitespace src).length ≤ src.length := (dropWhile_suffix _).length_le
  cases hsrc : skipWhitespace src with
  | nil => exact absurd (by rw [advance_of_skipWhitespace hsrc]; rfl) h
  | cons c rest =>
    rw [hsrc,length_cons] at hskip
    unfold advance
    rw [hsrc]
    exact (Nat.lt_succ_of_le (length_scanToken_le c rest)).trans_le hskip

lemma Scans.length_le (h : Scans src toks) :
    toks.length ≤ src.length := by
  induction toks generalizing src with
  | nil => exact Nat.zero_le _
  | cons t ts ih =>
    obtain ⟨rfl,hneof,hrest⟩ := h
    exact (Nat.succ_le_succ (ih hrest)).trans (length_advance_lt hneof)

/-! Every list of tokens is the reading of a text: the tokens as they are spelled, each with a space
behind it. -/

/-- The texts that a token can stand for. -/
def Token.Lexeme (t : Token) : Prop :=
  match t.type with
  | .ident => ∃ c cs, t.value = c::cs ∧ (c.isAlpha ∨ c = '_') ∧ ∀ d ∈ cs, isIdentChar d
  | .number => ∃ c cs, t.value = c::cs ∧ ∀ d ∈ c::cs, isNumberChar d
  | .str => '"' ∉ t.value
  | .eq => t.value = ['=','=']
  | .neq => t.value = ['!','=']
  | .lt => t.value = ['<']
  | .gt => t.value = ['>']
  | .le => t.value = ['<','=']
  | .ge => t.value = ['>','=']
  | .and => t.value = ['&','&']
  | .or => t.value = ['|','|']
  | .not => t.value = ['!']
  | .lParen => t.value = ['(']
  | .rParen => t.value = [')']
  | .eof => False

def Token.spelling (t : Token) : Text :=
  if t.type = .str then '"'::(t.value ++ ['"']) else t.value

def spaced (toks : List Token) : Text := toks.flatMap (fun t => t.spelling ++ [' '])

variable {p : Char → Bool}

lemma takeWhile_space (hp : p ' ' = false)
    (hcs : ∀ d ∈ cs, p d) : (cs ++ ' '::rest).takeWhile p = cs := by
  rw [takeWhile_append_of_pos hcs,takeWhile_cons_of_neg (by simp [hp]),append_nil]

lemma dropWhile_space (hp : p ' ' = false)
    (hcs : ∀ d ∈ cs, p d) : (cs ++ ' '::rest).dropWhile p = ' '::rest := by
  rw [dropWhile_append_of_pos hcs,dropWhile_cons_of_neg (by simp [hp])]

def signs : Text := [' ','\t','\n','"','(',')','=','!','>','<','&','|']

lemma not_mem_signs (h : c.isAlpha ∨ c = '_' ∨ c.isDigit ∨ c = '.') : c ∉ signs := by
  have hall : signs.all (fun d => ¬ (d.isAlpha ∨ d = '_' ∨ d.isDigit ∨ d = '.')) := by decide
  intro hmem
  exact of_decide_eq_true (all_eq_true.mp hall c hmem) h

lemma not_isAlpha_of_isDigit {c : Char} (h : c.isDigit) : ¬ c.isAlpha := by
  have hnine : c.val ≤ '9'.val := of_decide_eq_true (Bool.and_eq_true_iff.mp h).2
  have hnine : c.val.toNat ≤ 57 := UInt32.le_iff_toNat_le.mp hnine
  intro halpha
  rcases Bool.or_eq_true_iff.mp halpha with hupper | hlower
  · have hA : 'A'.val ≤ c.val := (of_decide_eq_true hupper).1
    have hA : 65 ≤ c.val.toNat := UInt32.le_iff_toNat_le.mp hA
    omega
  · have ha : 'a'.val ≤ c.val := of_decide_eq_true (Bool.and_eq_true_iff.mp hlower).1
    have ha : 97 ≤ c.val.toNat := UInt32.le_iff_toNat_le.mp ha
    omega

lemma advance_word (h : c.isAlpha ∨ c = '_' ∨ c.isDigit ∨ c = '.') (rest : Text) :
    advance (c::rest) =
      if c.isAlpha ∨ c = '_' then
        (⟨.ident,(c::rest).takeWhile isIdentChar⟩,(c::rest).dropWhile isIdentChar)
      else (⟨.number,(c::rest).takeWhile isNumberChar⟩,(c::rest).dropWhile isNumberChar) := by
  have hsign := not_mem_signs h
  simp only [signs,mem_cons,not_mem_nil,or_false,not_or] at hsign
  obtain ⟨hspace,htab,hline,hquote,hl,hr,heq,hnot,hgt,hlt,hand,hor⟩ := hsign
  have hskip : skipWhitespace (c::rest) = c::rest :=
    dropWhile_cons_of_neg (by simp [hspace,htab,hline])
  unfold advance
  rw [hskip]
  dsimp only
  unfold scanToken
  rw [if_neg hquote,if_neg hl,if_neg hr,if_neg (fun h => heq h.1),if_neg (fun h => hnot h.1),
    if_neg hgt,if_neg hlt,if_neg (fun h => hand h.1),if_neg (fun h => hor h.1),if_neg hnot]
  by_cases hident : c.isAlpha ∨ c = '_'
  · rw [if_pos hident,if_pos hident]
  · rw [if_neg hident,if_neg hident,if_pos ((or_assoc.mpr h).resolve_left hident)]

lemma advance_spelling (h : t.Lexeme) (rest : Text) :
    advance (t.spelling ++ ' '::rest) = (t,' '::rest) := by
  obtain ⟨type,value⟩ := t
  cases type
  case ident =>
    obtain ⟨c,cs,rfl,hc,hcs⟩ := h
    have hall : ∀ d ∈ c::cs, isIdentChar d := forall_mem_cons.mpr ⟨isIdentChar_of_start hc,hcs⟩
    change advance (c::(cs ++ ' '::rest)) = _
    rw [advance_word (or_assoc.mp (.inl hc)),if_pos hc,← cons_append,takeWhile_space rfl hall,
      dropWhile_space rfl hall]
  case number =>
    obtain ⟨c,cs,rfl,hall⟩ := h
    have hc : c.isDigit ∨ c = '.' := of_decide_eq_true (hall c mem_cons_self)
    have hident : ¬ (c.isAlpha ∨ c = '_') := by
      rcases hc with hc | rfl
      · rintro (ha | rfl)
        · exact not_isAlpha_of_isDigit hc ha
        · exact absurd hc (by decide)
      · decide
    change advance (c::(cs ++ ' '::rest)) = _
    rw [advance_word (.inr (.inr hc)),if_neg hident,← cons_append,takeWhile_space rfl hall,
      dropWhile_space rfl hall]
  case str =>
    have hall : ∀ d ∈ value, decide (d ≠ '"') := fun d hd => decide_eq_true (fun e => h (e ▸ hd))
    change scanString (value ++ ['"'] ++ ' '::rest) = _
    unfold scanString
    rw [append_assoc,takeWhile_append_of_pos hall,dropWhile_append_of_pos hall]
    simp
  case eof => exact h.elim
  all_goals
    cases h
    rfl

lemma scans_blank (rest : Text) (toks : List Token) : Scans (' '::rest) toks ↔ Scans rest toks := by
  cases toks <;> rfl

lemma scans_spaced (h : ∀ t ∈ toks, t.Lexeme) : Scans (spaced toks) toks := by
  induction toks with
  | nil => rfl
  | cons t ts ih =>
    obtain ⟨ht,hts⟩ := forall_mem_cons.mp h
    have hadv : advance (spaced (t::ts)) = (t,' '::spaced ts) := by
      rw [← advance_spelling ht (spaced ts)]
      simp [spaced]
    refine ⟨by rw [hadv],?_,?_⟩
    · intro heof
      unfold Token.Lexeme at ht
      rw [heof] at ht
      exact ht
    · rw [hadv]
      exact (scans_blank _ _).mpr (ih hts)

end SmoFramework.Select

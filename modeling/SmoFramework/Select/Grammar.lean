import SmoFramework.Select.Scanning

/-! The grammar of the expression language, and how the evaluator relates to it. In `a && b` with a
false `a` the evaluation of `b` is skipped, and with it the reading: the tokens of `b` are left
behind the operator. All loops end then, and each open parenthesis takes one token of `b` for its
closing one. What the evaluator returns is the value of the expression read so far. -/
namespace SmoFramework.Select
open Library List

inductive CompareOp
  | eq | neq | lt | gt | le | ge
  deriving DecidableEq, Repr

def CompareOp.token : CompareOp → Token
  | eq => ⟨.eq,['=','=']⟩
  | neq => ⟨.neq,['!','=']⟩
  | lt => ⟨.lt,['<']⟩
  | gt => ⟨.gt,['>']⟩
  | le => ⟨.le,['<','=']⟩
  | ge => ⟨.ge,['>','=']⟩

inductive ValueKind
  | str | number | ident
  deriving DecidableEq, Repr

def ValueKind.type : ValueKind → TokenType
  | str => .str
  | number => .number
  | ident => .ident

structure Atom where
  field : Text
  op : CompareOp
  kind : ValueKind
  value : Text

/-- The operators that form chains, `or := and ("||" and)*` and `and := prim ("&&" prim)*`. -/
inductive Connective
  | or | and
  deriving DecidableEq, Repr

inductive Level
  | prim
  | chain (c : Connective)

namespace Connective

def token : Connective → Token
  | or => .or
  | and => .and

def operand : Connective → Level
  | or => .chain .and
  | and => .prim

def apply : Connective → Bool → Bool → Bool
  | or => Bool.or
  | and => Bool.and

def decided : Connective → Bool
  | or => true
  | and => false

end Connective

/-- Derivations of the grammar. A chain is its first operand and the rest behind the operator. -/
inductive Expr : Level → Type
  | one (c : Connective) (p : Expr c.operand) : Expr (.chain c)
  | more (c : Connective) (p : Expr c.operand) (rest : Expr (.chain c)) : Expr (.chain c)
  | not (p : Expr .prim) : Expr .prim
  | paren (e : Expr (.chain .or)) : Expr .prim
  | atom (a : Atom) : Expr .prim

def Atom.tokens (a : Atom) : List Token := [⟨.ident,a.field⟩,a.op.token,⟨a.kind.type,a.value⟩]

def Expr.tokens : {l : Level} → Expr l → List Token
  | _,.one _ p => p.tokens
  | _,.more c p rest => p.tokens ++ c.token::rest.tokens
  | _,.not p => .not::p.tokens
  | _,.paren e => .lParen::(e.tokens ++ [.rParen])
  | _,.atom a => a.tokens

namespace Atom
variable (ctx : EvalContext) (a : Atom)

def OnTags : Prop := a.field = "tag".toList ∨ a.field = "tags".toList
instance : Decidable a.OnTags := inferInstanceAs (Decidable (_ ∨ _))

/-- Tags are not ordered. -/
def evaluate : Bool :=
  if a.OnTags then
    match a.op with
    | .eq => ctx.tagsContain a.value
    | .neq => !ctx.tagsContain a.value
    | _ => false
  else ctx.compare a.field a.op.token.type a.value

/-- The tokens that are left when the comparison is evaluated: operator and value of an ordering of
the tags. -/
def unread : List Token :=
  if a.OnTags ∧ a.op ≠ .eq ∧ a.op ≠ .neq then [a.op.token,⟨a.kind.type,a.value⟩] else []

lemma parses_tagOperator (op : CompareOp) (after : List Token) :
    Parses Lexer.Holds EvalContext.tagOperator (op.token::after) (op = .eq ∨ op = .neq)
      (op.token::after) := by
  apply (parses_peek _).bind
  cases op with
  | eq => exact .pure true _
  | _ => exact (parses_peek _).map

lemma parses_comparison (after : List Token) :
    Parses Lexer.Holds ctx.comparison (a.tokens ++ after) (a.evaluate ctx) (a.unread ++ after) := by
  apply (parses_consume _).bind
  by_cases htags : a.OnTags
  · refine .ite (fun _ => ?_) (fun h => absurd htags h)
    apply (parses_tagOperator a.op _).bind
    -- only `==` and `!=` let the tags consume operator and value
    unfold evaluate unread
    simp only [htags,if_true,true_and]
    cases a.op with
    | eq | neq => exact (parses_consume _).bind (parses_consume _).map
    | _ => exact .pure false _
  · have hvalue : a.evaluate ctx = ctx.compare a.field a.op.token.type a.value := if_neg htags
    have hunread : a.unread = [] := if_neg (fun h => htags h.1)
    rw [hvalue,hunread]
    refine .ite (fun h => absurd h htags) (fun _ => ?_)
    exact (parses_consume _).bind (parses_consume _).map

end Atom

namespace Expr
variable (ctx : EvalContext)

/-- The standard value: `!` binds tightest, `&&` tighter than `||`, and parentheses group. -/
def value : {l : Level} → Expr l → Bool
  | _,.one _ p => p.value
  | _,.more c p rest => c.apply p.value rest.value
  | _,.not p => !p.value
  | _,.paren e => e.value
  | _,.atom a => a.evaluate ctx

/-- The tokens behind the place where the parser stops reading. -/
def unread : {l : Level} → Expr l → List Token
  | _,.one _ p => p.unread
  | _,.more c p rest =>
    if p.unread = [] then
      if p.value ctx = c.decided then rest.tokens else rest.unread
    else p.unread ++ c.token::rest.tokens
  | _,.not p => p.unread
  | _,.paren e => if e.unread = [] then [] else e.unread ++ [.rParen]
  | _,.atom a => a.unread

def pending : {l : Level} → Expr l → ℕ
  | _,.one _ p => p.pending
  | _,.more c p rest =>
    if p.unread ctx = [] then
      if p.value ctx = c.decided then 0 else rest.pending
    else p.pending
  | _,.not p => p.pending
  | _,.paren e => if e.unread ctx = [] then 0 else e.pending+1
  | _,.atom _ => 0

/-- The expression up to that place, with its chains ended there. -/
def read : {l : Level} → Expr l → Expr l
  | _,.one c p => .one c p.read
  | _,.more c p rest =>
    if p.unread ctx = [] ∧ p.value ctx ≠ c.decided then .more c p rest.read else .one c p.read
  | _,.not p => .not p.read
  | _,.paren e => .paren e.read
  | _,.atom a => .atom a

variable {l : Level}

lemma tokens_ne_nil (e : Expr l) : e.tokens ≠ [] := by
  induction e with
  | one c p ih => exact ih
  | more c p rest ihp ihr => exact append_ne_nil_of_right_ne_nil _ (cons_ne_nil _ _)
  | _ => exact cons_ne_nil _ _

variable {ctx} {e : Expr l}

lemma pending_of_unread (h : e.unread ctx = []) : e.pending ctx = 0 := by
  induction e with
  | one c p ih => exact ih h
  | more c p rest ihp ihr =>
    simp only [unread,pending] at h ⊢
    split_ifs at h ⊢ with hp hdecided
    · rfl
    · exact ihr h
    · exact absurd h (append_ne_nil_of_left_ne_nil hp _)
  | not p ih => exact ih h
  | paren e ih =>
    simp only [unread,pending] at h ⊢
    split_ifs at h ⊢ with he
    · rfl
    · exact absurd h (append_ne_nil_of_left_ne_nil he _)
  | atom a => rfl

lemma read_of_unread (h : e.unread ctx = []) : e.read ctx = e := by
  induction e with
  | one c p ih => exact congrArg _ (ih h)
  | more c p rest ihp ihr =>
    simp only [unread,read] at h ⊢
    split_ifs at h with hp hdecided
    · exact absurd h rest.tokens_ne_nil
    · rw [if_pos ⟨hp,hdecided⟩,ihr h]
    · exact absurd h (append_ne_nil_of_left_ne_nil hp _)
  | not p ih => exact congrArg _ (ih h)
  | paren e ih =>
    simp only [unread] at h
    split_ifs at h with he
    · exact congrArg _ (ih he)
    · exact absurd h (append_ne_nil_of_left_ne_nil he _)
  | atom a => rfl

end Expr

/-! The loops see an operator, or they end. -/

section Loop
variable {conn : TokenType} {decided left b : Bool} {operand : Parser Bool} {turns : ℕ} {t : Token}
  {toks rest : List Token}
open EvalContext

lemma parses_chainLoop_end (h : (front toks).type ≠ conn) :
    Parses Lexer.Holds (chainLoop conn decided operand (turns+1) left) toks left toks := by
  apply (parses_peek _).bind
  exact .ite (fun hc => absurd hc h) (fun _ => .pure left _)

lemma parses_chainLoop_decided (ht : t.type = conn) (hleft : left = decided)
    (h : Parses Lexer.Holds (chainLoop conn decided operand turns left) toks b rest) :
    Parses Lexer.Holds (chainLoop conn decided operand (turns+1) left) (t::toks) b rest := by
  apply (parses_peek _).bind
  refine .ite (fun _ => ?_) (fun hc => absurd ht hc)
  apply (parses_consume _).bind
  exact .ite (fun _ => h) (fun hc => absurd hleft hc)

lemma parses_chainLoop_next (ht : t.type = conn) (hleft : left ≠ decided)
    (h : Parses Lexer.Holds (chain conn decided operand turns) toks b rest) :
    Parses Lexer.Holds (chainLoop conn decided operand (turns+1) left) (t::toks) b rest := by
  apply (parses_peek _).bind
  refine .ite (fun _ => ?_) (fun hc => absurd ht hc)
  apply (parses_consume _).bind
  exact .ite (fun hc => absurd hc hleft) (fun _ => h)

end Loop

/-- The tokens at which a loop of the parser would go on. -/
def Token.Connects (t : Token) : Prop := t.type = .and ∨ t.type = .or
instance (t : Token) : Decidable t.Connects := inferInstanceAs (Decidable (_ ∨ _))

def Quiet (toks : List Token) (n : ℕ) : Prop := ∀ k < n, ¬ (front (toks.drop k)).Connects
instance (toks : List Token) (n : ℕ) : Decidable (Quiet toks n) :=
  inferInstanceAs (Decidable (∀ k < n, _))

lemma quiet_zero (toks : List Token) : Quiet toks 0 := fun k hk => absurd hk (Nat.not_lt_zero k)

def Level.Ends : Level → Token → Prop
  | .prim,_ => True
  | .chain .and,t => t.type ≠ .and
  | .chain .or,t => ¬ t.Connects

namespace Level.Ends
variable {c : Connective} {t : Token}

lemma type_ne (h : (Level.chain c).Ends t) : t.type ≠ c.token.type := by
  cases c with
  | or => exact fun ht => h (.inr ht)
  | and => exact h

lemma operand (h : (Level.chain c).Ends t) : c.operand.Ends t := by
  cases c with
  | or => exact fun ht => h (.inl ht)
  | and => trivial

/-- The operator of a chain ends its operands. -/
lemma token (c : Connective) : c.operand.Ends c.token := by
  cases c with
  | or => exact TokenType.noConfusion
  | and => trivial

end Level.Ends

namespace Connective
variable {c : Connective}

lemma apply_of_ne_decided (h : left ≠ c.decided) (right : Bool) :
    c.apply left right = right := by
  cases c <;> cases left <;> first | rfl | exact absurd rfl h

/-- `and_expr` hands less fuel to its operands than it has, which an operand of `or_expr` needs. -/
def slack : Connective → ℕ
  | or => 1
  | and => 0

def operandParser (ctx : EvalContext) (fuel : ℕ) : Connective → Parser Bool
  | or => ctx.andExpr fuel
  | and => ctx.primary fuel

end Connective

namespace Level
variable (ctx : EvalContext)

def slack : Level → ℕ
  | .prim => 0
  | .chain c => c.slack

/-- The parser of each level, with fuel for the operands and a bound on the turns of the loop. -/
def parser (fuel turns : ℕ) : Level → Parser Bool
  | .prim => ctx.primary fuel
  | .chain c => EvalContext.chain c.token.type c.decided (c.operandParser ctx fuel) turns

lemma operandParser_eq (fuel : ℕ) (c : Connective) :
    c.operandParser ctx (fuel + c.slack) = c.operand.parser ctx fuel fuel := by
  cases c <;> rfl

@[simp] lemma slack_operand (c : Connective) : c.operand.slack = 0 := by
  cases c <;> rfl

end Level

namespace Expr
variable {ctx : EvalContext} {l : Level}

/-- The part that was not read, less the tokens that were taken for closing parentheses. -/
def leftover (ctx : EvalContext) (e : Expr l) (after : List Token) : List Token :=
  (e.unread ctx ++ after).drop (e.pending ctx)

lemma leftover_of_unread {e : Expr l} (h : e.unread ctx = []) (after : List Token) :
    e.leftover ctx after = after := by
  unfold leftover
  rw [h,pending_of_unread h]
  rfl

/-- The parser of the expression's level returns the value of what it reads, provided that the tokens
taken for closing parentheses do not bring an operator to the front. -/
def Evaluates (ctx : EvalContext) (e : Expr l) : Prop :=
  ∀ fuel turns after, 3*e.tokens.length + l.slack ≤ fuel → e.tokens.length ≤ turns →
    Quiet (e.unread ctx ++ after) (e.pending ctx) → l.Ends (front (e.leftover ctx after)) →
    Parses Lexer.Holds (l.parser ctx fuel turns) (e.tokens ++ after) ((e.read ctx).value ctx)
      (e.leftover ctx after)

lemma Evaluates.operand {c : Connective} {p : Expr c.operand} (h : p.Evaluates ctx) {fuel : ℕ}
    (hfuel : 3*p.tokens.length + c.slack ≤ fuel) (after : List Token)
    (hquiet : Quiet (p.unread ctx ++ after) (p.pending ctx))
    (hends : c.operand.Ends (front (p.leftover ctx after))) :
    Parses Lexer.Holds (c.operandParser ctx fuel) (p.tokens ++ after) ((p.read ctx).value ctx)
      (p.leftover ctx after) := by
  obtain ⟨g,rfl⟩ := Nat.exists_eq_add_of_le' (Nat.le_of_add_left_le hfuel)
  rw [Level.operandParser_eq]
  apply h g g after _ _ hquiet hends
  · rw [Level.slack_operand]
    omega
  · omega

lemma evaluates_one {c : Connective} {p : Expr c.operand} (hp : p.Evaluates ctx) :
    (one c p).Evaluates ctx := by
  intro fuel turns after hfuel hturns hquiet hends
  obtain ⟨turns,rfl⟩ : ∃ n, turns = n+1 := by
    have := length_pos_iff.mpr p.tokens_ne_nil
    exact Nat.exists_eq_add_of_le' (this.trans_le hturns)
  exact (hp.operand hfuel after hquiet hends.operand).bind (parses_chainLoop_end hends.type_ne)

lemma evaluates_more {rest : Expr (.chain c)}
    (hp : p.Evaluates ctx) (hrest : rest.Evaluates ctx) : (more c p rest).Evaluates ctx := by
  intro fuel turns after hfuel hturns hquiet hends
  have hlen : (more c p rest).tokens.length = p.tokens.length + (rest.tokens.length+1) := by
    simp [tokens]
  have htokens : (more c p rest).tokens ++ after = p.tokens ++ c.token::(rest.tokens ++ after) := by
    simp [tokens]
  have hpos := length_pos_iff.mpr rest.tokens_ne_nil
  rw [hlen] at hfuel hturns
  change _ + c.slack ≤ fuel at hfuel
  obtain ⟨turns,rfl⟩ : ∃ n, turns = n+2 := Nat.exists_eq_add_of_le' (by omega)
  have hpfuel : 3*p.tokens.length + c.slack ≤ fuel := by omega
  have hoperand := hp.operand hpfuel (c.token::(rest.tokens ++ after))
  rw [htokens]
  unfold leftover at hends ⊢
  by_cases hwhole : p.unread ctx = []
  · have hleft := p.leftover_of_unread hwhole (c.token::(rest.tokens ++ after))
    rw [hleft,hwhole,pending_of_unread hwhole,read_of_unread hwhole] at hoperand
    have hfirst := hoperand (quiet_zero _) (Level.Ends.token c)
    apply hfirst.bind
    by_cases hdecided : p.value ctx = c.decided
    · -- the tokens of the rest stay where they are
      simp only [unread,pending,read,hwhole,hdecided,if_true,ne_eq,not_true_eq_false,and_false,
        if_false] at hends ⊢
      rw [read_of_unread hwhole]
      apply parses_chainLoop_decided rfl rfl
      rw [← hdecided]
      exact parses_chainLoop_end hends.type_ne
    · simp only [unread,pending,read,hwhole,hdecided,if_true,ne_eq,not_false_eq_true,and_true,
        if_false] at hends hquiet ⊢
      apply parses_chainLoop_next rfl hdecided
      have hvalue : (more c p (rest.read ctx)).value ctx = (rest.read ctx).value ctx :=
        Connective.apply_of_ne_decided hdecided _
      rw [hvalue]
      exact hrest fuel (turns+1) after (by change _ + c.slack ≤ fuel; omega) (by omega) hquiet hends
  · simp only [unread,pending,read,hwhole,if_false,false_and,append_assoc,
      cons_append] at hends hquiet ⊢
    exact (hoperand hquiet hends.operand).bind (parses_chainLoop_end hends.type_ne)

lemma evaluates_not (hp : p.Evaluates ctx) : (not p).Evaluates ctx := by
  intro fuel turns after hfuel hturns hquiet hends
  obtain ⟨fuel,rfl⟩ : ∃ n, fuel = n+1 := Nat.exists_eq_add_of_le' (by simp [tokens] at hfuel; omega)
  have hlen : (not p).tokens.length = p.tokens.length+1 := rfl
  change 3*_ + 0 ≤ fuel+1 at hfuel
  rw [hlen] at hfuel hturns
  apply (parses_peek _).bind
  refine .ite (fun _ => ?_) (fun h => absurd rfl h)
  apply (parses_consume _).bind
  exact (hp fuel turns after (by change _ + 0 ≤ fuel; omega) (by omega) hquiet trivial).map

lemma evaluates_atom (a : Atom) : (atom a).Evaluates ctx := by
  intro fuel turns after hfuel hturns hquiet hends
  obtain ⟨fuel,rfl⟩ : ∃ n, fuel = n+1 :=
    Nat.exists_eq_add_of_le' (by simp [tokens,Atom.tokens] at hfuel; omega)
  apply (parses_peek _).bind
  exact a.parses_comparison ctx after

lemma evaluates_paren {e : Expr (.chain .or)} (he : e.Evaluates ctx) : (paren e).Evaluates ctx := by
  intro fuel turns after hfuel hturns hquiet hends
  have hlen : (paren e).tokens.length = e.tokens.length+2 := by simp [tokens]
  have htokens : (paren e).tokens ++ after = .lParen::(e.tokens ++ .rParen::after) := by
    simp [tokens]
  change 3*_ + 0 ≤ fuel at hfuel
  rw [hlen] at hfuel
  obtain ⟨fuel,rfl⟩ : ∃ n, fuel = n+2 := Nat.exists_eq_add_of_le' (by omega)
  rw [htokens]
  apply (parses_peek _).bind
  refine .ite (fun h => nomatch h) (fun _ => .ite (fun _ => ?_) (fun h => absurd rfl h))
  apply (parses_consume _).bind
  have hinner := he fuel fuel (.rParen::after) (by change _ + 1 ≤ fuel; omega) (by omega)
  change Quiet _ _ → _ → Parses _ (ctx.orExpr (fuel+1)) _ _ _ at hinner
  by_cases hwhole : e.unread ctx = []
  · have hunread : (paren e).unread ctx = [] := if_pos hwhole
    rw [leftover_of_unread hwhole,hwhole,pending_of_unread hwhole] at hinner
    rw [leftover_of_unread hunread]
    have hclose : ¬ Token.rParen.Connects := by decide
    refine (hinner (quiet_zero _) hclose).bind ?_
    exact (parses_consume _).map
  · -- one of the tokens that were left is taken for the closing parenthesis
    have hunread : (paren e).unread ctx ++ after = e.unread ctx ++ .rParen::after := by
      simp [unread,hwhole]
    have hpending : (paren e).pending ctx = e.pending ctx+1 := if_neg hwhole
    rw [hunread,hpending] at hquiet
    have hrest : (paren e).leftover ctx after = (e.leftover ctx (.rParen::after)).tail := by
      unfold leftover
      rw [hunread,hpending,tail_drop]
    rw [hrest]
    refine (hinner (fun k hk => hquiet k (hk.trans (Nat.lt_succ_self _)))
      (hquiet _ (Nat.lt_succ_self _))).bind ?_
    exact (parses_consume _).map

lemma evaluates (ctx : EvalContext) (e : Expr l) : e.Evaluates ctx := by
  induction e with
  | one c p ih => exact evaluates_one ih
  | more c p rest ihp ihr => exact evaluates_more ihp ihr
  | not p ih => exact evaluates_not ih
  | paren e ih => exact evaluates_paren ih
  | atom a => exact evaluates_atom a

/-- Behind the place where it stops, the parser never finds an operator that would let it go on. -/
def InStep (ctx : EvalContext) (e : Expr l) : Prop := Quiet (e.unread ctx) (e.pending ctx+1)
instance (ctx : EvalContext) (e : Expr l) : Decidable (e.InStep ctx) :=
  inferInstanceAs (Decidable (Quiet _ _))

end Expr

lemma Quiet.cons (ht : ¬ t.Connects) (h : Quiet toks n) :
    Quiet (t::toks) (n+1) := by
  intro k hk
  cases k with
  | zero => exact ht
  | succ k => exact h k (Nat.lt_of_succ_lt_succ hk)

lemma Quiet.mono (h : Quiet toks n) (hmn : m ≤ n) : Quiet toks m :=
  fun k hk => h k (hk.trans_le hmn)

lemma quiet_nil (n : ℕ) : Quiet [] n := by
  intro k _
  rw [drop_nil]
  decide

lemma CompareOp.not_connects (op : CompareOp) : ¬ op.token.Connects := by
  cases op <;> decide

lemma ValueKind.not_connects (kind : ValueKind) (value : Text) :
    ¬ (⟨kind.type,value⟩ : Token).Connects := by
  cases kind <;> rintro (h | h) <;> cases h

namespace Expr
variable {ctx : EvalContext} {l : Level} (e : Expr l) (after : List Token)

lemma quiet_tokens : Quiet (e.tokens ++ after) 2 := by
  induction e generalizing after with
  | one c p ih => exact ih after
  | more c p rest ihp ihr =>
    simp only [tokens,append_assoc]
    exact ihp _
  | not p ih => exact ((ih after).mono (by omega)).cons (by decide)
  | paren e ih =>
    simp only [tokens,cons_append,append_assoc]
    exact ((ih _).mono (by omega)).cons (by decide)
  | atom a =>
    exact .cons (ValueKind.ident.not_connects a.field) (.cons a.op.not_connects (quiet_zero _))

lemma quiet_unread (h : e.unread ctx ≠ []) :
    Quiet (e.unread ctx ++ after) 2 := by
  induction e generalizing after with
  | one c p ih => exact ih after h
  | more c p rest ihp ihr =>
    simp only [unread] at h ⊢
    split_ifs at h ⊢ with hp hdecided
    · exact rest.quiet_tokens after
    · exact ihr after h
    · rw [append_assoc]
      exact ihp _ hp
  | not p ih => exact ih after h
  | paren e ih =>
    simp only [unread] at h ⊢
    split_ifs at h ⊢ with he
    · exact absurd rfl h
    · rw [append_assoc]
      exact ih _ he
  | atom a =>
    simp only [unread,Atom.unread] at h ⊢
    split_ifs at h ⊢ with htags
    · exact .cons a.op.not_connects (.cons (a.kind.not_connects a.value) (quiet_zero _))
    · exact absurd rfl h

/-- An operator can only come to the front under two open parentheses. -/
theorem inStep_of_pending_le_one {e : Expr l} (h : e.pending ctx ≤ 1) : e.InStep ctx := by
  unfold InStep
  by_cases hwhole : e.unread ctx = []
  · rw [hwhole]
    exact quiet_nil _
  · rw [← append_nil (e.unread ctx)]
    exact (e.quiet_unread [] hwhole).mono (by omega)

end Expr

section Expression
variable {ctx : EvalContext} {e : Expr (.chain .or)} {text : Text} {fuel : ℕ}

/-- The evaluator returns the value of the expression up to the place where it stops reading. -/
theorem evaluateExpression_eq (hscan : Scans text e.tokens) (hfuel : 3*text.length+2 ≤ fuel)
    (hstep : e.InStep ctx) : evaluateExpression ctx fuel text = some ((e.read ctx).value ctx) := by
  obtain ⟨fuel,rfl⟩ : ∃ n, fuel = n+1 := Nat.exists_eq_add_of_le' (by omega)
  have hlen := hscan.length_le
  have hquiet : Quiet (e.unread ctx ++ []) (e.pending ctx+1) := by
    rw [append_nil]
    exact hstep
  have hparse := e.evaluates ctx fuel fuel [] (by change _ + 1 ≤ fuel; omega) (by omega)
    (hquiet.mono (Nat.le_succ _)) (hquiet _ (Nat.lt_succ_self _))
  rw [append_nil] at hparse
  exact hparse.answer (Lexer.holds_start hscan)

/-- A comparison alone is evaluated as `Atom.evaluate` says. -/
theorem evaluateExpression_atom {a : Atom} (hscan : Scans text a.tokens)
    (hfuel : 3*text.length+2 ≤ fuel) : evaluateExpression ctx fuel text = some (a.evaluate ctx) :=
  evaluateExpression_eq (e := .one .or (.one .and (.atom a))) hscan hfuel
    (Expr.inStep_of_pending_le_one (Nat.zero_le 1))

/-- The evaluator returns the standard value just if the part of the expression that it does not read
makes no difference to it. -/
theorem evaluateExpression_standard_iff (hscan : Scans text e.tokens)
    (hfuel : 3*text.length+2 ≤ fuel) (hstep : e.InStep ctx) :
    evaluateExpression ctx fuel text = some (e.value ctx) ↔
      (e.read ctx).value ctx = e.value ctx := by
  rw [evaluateExpression_eq hscan hfuel hstep,Option.some.injEq]

/-- The text of an expression with a space behind every token. -/
theorem evaluateExpression_spaced (hlex : ∀ t ∈ e.tokens, t.Lexeme) (hpending : e.pending ctx ≤ 1)
    (hfuel : 3*(spaced e.tokens).length+2 ≤ fuel) :
    evaluateExpression ctx fuel (spaced e.tokens) = some ((e.read ctx).value ctx) :=
  evaluateExpression_eq (scans_spaced hlex) hfuel (Expr.inStep_of_pending_le_one hpending)

end Expression

theorem evaluateExpression_spaced_os : let ctx : EvalContext := { record := {} }
    let e : Expr (.chain .or) := .one .or (.one .and (.atom ⟨['o','s'],.eq,.str,['x']⟩))
    evaluateExpression ctx 99 (spaced e.tokens) = some ((e.read ctx).value ctx) :=
  evaluateExpression_spaced
    (forall_mem_cons.mpr ⟨⟨'o',['s'],rfl,.inl rfl,by simp [isIdentChar]⟩,
      forall_mem_cons.mpr ⟨rfl,forall_mem_cons.mpr ⟨(by decide : '"' ∉ ['x']),by simp⟩⟩⟩)
    (by decide) (by decide)

/-- `(os == "linux" || role == "Root") && arch == "x86_64"` on a node for which the first comparison
holds. -/
theorem evaluateExpression_after_skip : let ctx : EvalContext :=
      { record := { platform := "linux".toList,arch := "x86_64".toList } }
    evaluateExpression ctx 200
      "(os == \"linux\" || role == \"Root\") && arch == \"x86_64\"".toList = some true :=
  (evaluateExpression_standard_iff
    (e := .one .or (.more .and
      (.paren (.more .or (.one .and (.atom ⟨"os".toList,.eq,.str,"linux".toList⟩))
        (.one .or (.one .and (.atom ⟨"role".toList,.eq,.str,"Root".toList⟩)))))
      (.one .and (.atom ⟨"arch".toList,.eq,.str,"x86_64".toList⟩))))
    (by decide) (by decide) (by decide)).mpr (by decide)

/-- Three parentheses take `role`, `==` and `"Root"`, and the `&&` behind them is taken for one that
follows the whole. -/
example :
    let ctx : EvalContext := { record := { platform := "linux".toList } }
    let e : Expr (.chain .or) := .more .or
      (.one .and (.atom ⟨"os".toList,.eq,.str,"linux".toList⟩))
      (.one .or (.more .and (.atom ⟨"role".toList,.eq,.str,"Root".toList⟩)
        (.one .and (.atom ⟨"arch".toList,.eq,.str,"arm64".toList⟩))))
    let whole : Expr (.chain .or) := .one .or (.one .and (.paren (.one .or (.one .and (.paren
      (.one .or (.one .and (.paren e))))))))
    ¬ whole.InStep ctx ∧ (whole.read ctx).value ctx = true ∧ evaluateExpression ctx 300
      "(((os == \"linux\" || role == \"Root\" && arch == \"arm64\")))".toList = some false := by
  decide

/-- The false first comparison hides the two others. -/
theorem evaluateExpression_misses_alternative :
    let ctx : EvalContext := { record := { role := .reader,arch := "x86_64".toList } }
    let text := "role == \"Root\" && os == \"linux\" || arch == \"x86_64\"".toList
    let e : Expr (.chain .or) := .more .or
      (.more .and (.atom ⟨"role".toList,.eq,.str,"Root".toList⟩)
        (.one .and (.atom ⟨"os".toList,.eq,.str,"linux".toList⟩)))
      (.one .or (.one .and (.atom ⟨"arch".toList,.eq,.str,"x86_64".toList⟩)))
    Scans text e.tokens ∧ e.value ctx = true ∧
      ∀ fuel, 3*text.length+2 ≤ fuel → evaluateExpression ctx fuel text = some false := by
  intro ctx text e
  have hscan : Scans text e.tokens := by decide
  have hstep : e.InStep ctx := by decide
  have hread : (e.read ctx).value ctx = false := by decide
  refine ⟨hscan,by decide,fun fuel hfuel => ?_⟩
  rw [evaluateExpression_eq hscan hfuel hstep,hread]

end SmoFramework.Select

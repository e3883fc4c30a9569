import SmoFramework.Certificate.Codec
import SmoFramework.Library.Double

/-! The expression language of node selection (`core/select/selector.cpp`): a lexer with one token
of lookahead and a recursive-descent parser that evaluates as it goes. A position in a text is the
text from there on. Floating-point numbers belong to the C library and are parameters. The parser
runs with fuel. -/
namespace SmoFramework.Select
open Library

abbrev Text := List Char

/-! Tokens. -/

inductive TokenType
  | ident | str | number | eq | neq | lt | gt | le | ge | and | or | not | lParen | rParen | eof
  deriving DecidableEq, Repr

structure Token where
  type : TokenType
  value : Text
  deriving DecidableEq, Repr

namespace Token

def eof : Token := ⟨.eof,[]⟩
def and : Token := ⟨.and,['&','&']⟩
def or : Token := ⟨.or,['|','|']⟩
def not : Token := ⟨.not,['!']⟩
def lParen : Token := ⟨.lParen,['(']⟩
def rParen : Token := ⟨.rParen,[')']⟩

end Token

def skipWhitespace (src : Text) : Text := src.dropWhile (fun c => c = ' ' ∨ c = '\t' ∨ c = '\n')

def isIdentChar (c : Char) : Bool := c.isAlphanum ∨ c = '_' ∨ c = '.'

def isNumberChar (c : Char) : Bool := c.isDigit ∨ c = '.'

def scanString (src : Text) : Token × Text :=
  (⟨.str,src.takeWhile (· ≠ '"')⟩,(src.dropWhile (· ≠ '"')).tail)

/-- A character that starts no token is passed over and reads as the end. -/
def scanToken (c : Char) (rest : Text) : Token × Text :=
  if c = '"' then scanString rest
  else if c = '(' then (.lParen,rest)
  else if c = ')' then (.rParen,rest)
  else if c = '=' ∧ rest.head? = some '=' then (⟨.eq,['=','=']⟩,rest.tail)
  else if c = '!' ∧ rest.head? = some '=' then (⟨.neq,['!','=']⟩,rest.tail)
  else if c = '>' then
    if rest.head? = some '=' then (⟨.ge,['>','=']⟩,rest.tail) else (⟨.gt,['>']⟩,rest)
  else if c = '<' then
    if rest.head? = some '=' then (⟨.le,['<','=']⟩,rest.tail) else (⟨.lt,['<']⟩,rest)
  else if c = '&' ∧ rest.head? = some '&' then (.and,rest.tail)
  else if c = '|' ∧ rest.head? = some '|' then (.or,rest.tail)
  else if c = '!' then (.not,rest)
  else if c.isAlpha ∨ c = '_' then
    (⟨.ident,(c::rest).takeWhile isIdentChar⟩,(c::rest).dropWhile isIdentChar)
  else if c.isDigit ∨ c = '.' then
    (⟨.number,(c::rest).takeWhile isNumberChar⟩,(c::rest).dropWhile isNumberChar)
  else (.eof,rest)

def advance (src : Text) : Token × Text :=
  match skipWhitespace src with
  | [] => (.eof,[])
  | c::rest => scanToken c rest

/-- The text from the current position on, and the lookahead; an end token there means that there is
none. -/
structure Lexer where
  src : Text
  lookahead : Token := .eof

abbrev Parser := StateT Lexer Option

def peek : Parser Token := fun lex =>
  if lex.lookahead.type ≠ .eof then some (lex.lookahead,lex)
  else some ((advance lex.src).1,⟨(advance lex.src).2,(advance lex.src).1⟩)

def consume : Parser Token := fun lex =>
  if lex.lookahead.type ≠ .eof then some (lex.lookahead,⟨lex.src,.eof⟩)
  else some ((advance lex.src).1,⟨(advance lex.src).2,.eof⟩)

/-! Evaluation. -/

/-- Any other byte prints like `unknown`. -/
inductive PeerState
  | unknown | online | suspect | offline
  deriving DecidableEq, Repr

def PeerState.toString : PeerState → String
  | unknown => "Unknown"
  | online => "Online"
  | suspect => "Suspect"
  | offline => "Offline"

/-- The fields of a peer record that an expression can name. -/
structure PeerRecord where
  displayName : Text := []
  hostname : Text := []
  meshName : Text := []
  role : Role := .reader
  tags : List Text := []
  platform : Text := []
  arch : Text := []
  version : Text := []
  location : Text := []
  state : PeerState := .unknown

/-- `EvalContext`, with `snprintf` for the format `%.4f` and `strtod`. -/
structure EvalContext where
  record : PeerRecord := {}
  trust : Double := .ofInt 0
  formatTrust : Double → Text := fun _ => []
  strtod : Text → Double := fun _ => .ofInt 0

namespace EvalContext
variable (ctx : EvalContext)

def getField (name : Text) : Text :=
  if name = "role".toList then ctx.record.role.toString.toList
  else if name = "trust".toList then ctx.formatTrust ctx.trust
  else if name = "arch".toList then ctx.record.arch
  else if name = "os".toList ∨ name = "platform".toList then ctx.record.platform
  else if name = "version".toList then ctx.record.version
  else if name = "mesh".toList then ctx.record.meshName
  else if name = "name".toList then ctx.record.displayName
  else if name = "state".toList then ctx.record.state.toString.toList
  else if name = "location".toList then ctx.record.location
  else if name = "hostname".toList then ctx.record.hostname
  else []

def tagsContain (tag : Text) : Bool := tag ∈ ctx.record.tags

/-- `operator<` of strings: the first byte that differs decides. -/
def textLess : Text → Text → Bool
  | _,[] => false
  | [],_::_ => true
  | c::cs,d::ds => c.toNat < d.toNat || (c = d && textLess cs ds)

/-- The comparison of a field that is not the tags. -/
def compare (field : Text) (op : TokenType) (value : Text) : Bool :=
  let fval := ctx.getField field
  let fnum := ctx.strtod fval
  let vnum := ctx.strtod value
  match op with
  | .eq => fval = value
  | .neq => fval ≠ value
  | .gt => if field = "trust".toList then vnum.lt fnum else textLess value fval
  | .lt => if field = "trust".toList then fnum.lt vnum else textLess fval value
  | .ge => if field = "trust".toList then vnum.le fnum else !textLess fval value
  | .le => if field = "trust".toList then fnum.le vnum else !textLess value fval
  | _ => false

/-- `peek is "==" || peek is "!="`: the second look is a new one. -/
def tagOperator : Parser Bool := do
  if (← peek).type = .eq then return true else return (← peek).type = .neq

/-- With an ordering operator, the tags answer before operator and value are consumed. -/
def comparison : Parser Bool := do
  let field ← consume
  if field.value = "tag".toList ∨ field.value = "tags".toList then
    if ← tagOperator then
      let op ← consume
      let val ← consume
      let has := ctx.tagsContain val.value
      return if op.type = .eq then has else !has
    else return false
  else
    let op ← consume
    let val ← consume
    return ctx.compare field.value op.type val.value

/-- The loop of `or_expr` and `and_expr`: an operand behind the operator `conn` is only read if
`left` is not `decided`. -/
def chainLoop (conn : TokenType) (decided : Bool) (operand : Parser Bool) : ℕ → Bool → Parser Bool
  | 0,_ => failure
  | turns+1,left => do
    if (← peek).type = conn then
      let _ ← consume
      if left = decided then chainLoop conn decided operand turns left
      else chainLoop conn decided operand turns (← operand)
    else return left

def chain (conn : TokenType) (decided : Bool) (operand : Parser Bool) (turns : ℕ) : Parser Bool := do
  chainLoop conn decided operand turns (← operand)

mutual

/-- `left = left || and_expr(ctx)` -/
def orExpr : ℕ → Parser Bool
  | 0 => failure
  | fuel+1 => chain .or true (andExpr fuel) fuel

/-- `left = left && primary(ctx)` -/
def andExpr : ℕ → Parser Bool
  | 0 => failure
  | fuel+1 => chain .and false (primary fuel) fuel

/-- A second branch for identifiers in the source cannot be reached. -/
def primary : ℕ → Parser Bool
  | 0 => failure
  | fuel+1 => do
    let tok ← peek
    if tok.type = .not then
      let _ ← consume
      return !(← primary fuel)
    else if tok.type = .lParen then
      let _ ← consume
      let val ← orExpr fuel
      let _ ← consume
      return val
    else if tok.type = .ident then ctx.comparison
    else return false

end

end EvalContext

def evaluateExpression (ctx : EvalContext) (fuel : ℕ) (expr : Text) : Option Bool :=
  (ctx.orExpr fuel ⟨expr,.eof⟩).map Prod.fst

end SmoFramework.Select

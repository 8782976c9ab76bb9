import DiceCalculator.Expr.Operator
import DiceCalculator.Token
/-!
# Reading expressions

The reader takes one token at a time. It either wants an operand or holds one, and it keeps a stack
of frames: what has been read so far and still lacks its last operand. An operator first completes
the frames that bind at least as tightly as its left side requires, and then becomes a frame itself.

After `d` only a number, a parenthesis, a sign or another `d` may follow as the number of faces, and
signs in that place bind tighter than everything else; so `2d-3d4` is `(2d(-3))d4`. A `d` without a
left operand rolls one die.
-/
namespace DiceCalculator

/-- Why a text is no expression. -/
inductive ParseError where
  /-- The text stops where more has to follow. -/
  | unexpectedEnd
  /-- At this place, counted from 0, stands something of this length that cannot stand there. -/
  | unexpectedToken (start length : Nat)
  deriving DecidableEq, Repr

/-- The part of an expression before an operand that is still to be read. -/
inductive Frame where
  /-- An open parenthesis. -/
  | paren
  /-- Dice whose number of faces follows. -/
  | dice (count : Expr)
  /-- A sign within a number of faces. -/
  | sidesSign (sign : Sign)
  /-- A sign anywhere else. -/
  | sign (sign : Sign)
  /-- An operation whose right operand follows. -/
  | arith (op : ArithOp) (lhs : Expr)
  deriving DecidableEq, Repr

namespace Frame

/-- How loosely a frame binds its operand. Only a closing parenthesis completes a parenthesis, so
that one lies beyond all operators. -/
def precedence : Frame → Nat
  | paren => Operator.loosest + 1
  | dice _ => Operator.dice.precedence
  | sidesSign _ => Operator.dice.precedence
  | sign s => (Operator.sign s).precedence
  | arith op _ => (Operator.arith op).precedence

def complete : Frame → Expr → Expr
  | paren, e => e
  | dice count, e => .dice count e
  | sidesSign s, e => .signed s e
  | sign s, e => .signed s e
  | arith op lhs, e => .arith op lhs e

/-- The operand that follows is a number of faces. -/
def wantsSides : List Frame → Bool
  | dice _ :: _ => true
  | sidesSign _ :: _ => true
  | _ => false

def ofSign (frames : List Frame) (s : Sign) : Frame :=
  if wantsSides frames then sidesSign s else sign s

/-- Completes the innermost frames as long as they bind at least as tightly as the limit. -/
def reduce (limit : Nat) : List Frame → Expr → List Frame × Expr
  | [], e => ([], e)
  | frame :: frames, e =>
    if frame.precedence ≤ limit then reduce limit frames (frame.complete e)
    else (frame :: frames, e)

end Frame

namespace Operator

/-- Frames up to this precedence are completed before the operator takes its left operand: with
equal precedence the left one goes first, unless the operator groups from the right. -/
def leftLimit (op : Operator) : Nat :=
  match op.associativity with
  | .left => op.precedence
  | .right => op.precedence - 1

end Operator

/-- What the reader expects next. -/
inductive Reader where
  /-- An operand has to follow. -/
  | wanting (frames : List Frame)
  /-- An operand has been read. -/
  | holding (frames : List Frame) (operand : Expr)
  deriving DecidableEq, Repr

namespace Reader

def start : Reader := .wanting []

def arithOp? : Token → Option ArithOp
  | .plus => some .sum
  | .minus => some .difference
  | .times => some .product
  | .divide => some .quotient
  | .power => some .power
  | _ => none

def stepWanting (frames : List Frame) : Token → Option Reader
  | .number value => some (.holding frames (.literal value))
  | .plus => some (.wanting (Frame.ofSign frames .plus :: frames))
  | .minus => some (.wanting (Frame.ofSign frames .minus :: frames))
  | .die => some (.wanting (.dice (.literal 1) :: frames))
  | .openParen => some (.wanting (.paren :: frames))
  | _ => none

def stepHolding (frames : List Frame) (operand : Expr) (token : Token) : Option Reader :=
  match token with
  | .die =>
    let (frames, count) := Frame.reduce Operator.dice.leftLimit frames operand
    some (.wanting (.dice count :: frames))
  | .closeParen =>
    match Frame.reduce Operator.loosest frames operand with
    | (.paren :: frames, e) => some (.holding frames e)
    | _ => none
  | _ =>
    match arithOp? token with
    | none => none
    | some op =>
      let (frames, lhs) := Frame.reduce (Operator.arith op).leftLimit frames operand
      some (.wanting (.arith op lhs :: frames))

def step : Reader → Token → Option Reader
  | .wanting frames, token => stepWanting frames token
  | .holding frames operand, token => stepHolding frames operand token

def finish? : Reader → Option Expr
  | .wanting _ => none
  | .holding frames operand =>
    match Frame.reduce Operator.loosest frames operand with
    | ([], e) => some e
    | _ => none

/-- Reads the tokens in turn. The first one that cannot stand in its place is reported, even if a
character that begins no token comes later. -/
def read (illegal : Option Nat) : Reader → List Lexeme → Except ParseError Expr
  | reader, [] =>
    match illegal with
    | some place => .error (.unexpectedToken place 1)
    | none =>
      match reader.finish? with
      | some e => .ok e
      | none => .error .unexpectedEnd
  | reader, lexeme :: lexemes =>
    match reader.step lexeme.token with
    | some next => read illegal next lexemes
    | none => .error (.unexpectedToken lexeme.start lexeme.length)

end Reader

/-- The expression that a text denotes. -/
def Expr.parse (text : String) : Except ParseError Expr :=
  let scan := Token.scan text
  Reader.start.read scan.illegal scan.lexemes

/-- The message of a parse error; places are counted from 1 here. -/
def ParseError.message : ParseError → String
  | unexpectedEnd => "Unexpected end of input."
  | unexpectedToken start _ => "Unexpected token at position " ++ toString (start + 1) ++ "."

end DiceCalculator

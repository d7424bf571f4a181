/-! # Query errors

A query that cannot be compiled names the offending token as written and its byte offset.
-/

namespace TestScheduler

namespace QueryError

inductive Problem where
  | unbalancedParenthesis
  | unknownOperator
  | missingOperator
  | danglingOperator
  | unterminatedLiteral
  | unexpectedToken
  | invalidPattern
  deriving DecidableEq, Repr

end QueryError

structure QueryError where
  problem : QueryError.Problem
  token : String
  position : Nat
  deriving DecidableEq, Repr

def QueryError.message (e : QueryError) : String :=
  let place := " at position " ++ toString e.position
  match e.problem with
  | .unbalancedParenthesis => "unbalanced parenthesis '" ++ e.token ++ "'" ++ place
  | .unknownOperator => "unknown operator '" ++ e.token ++ "'" ++ place
  | .missingOperator => "expected a comparison operator after '" ++ e.token ++ "'" ++ place
  | .danglingOperator => "operator '" ++ e.token ++ "'" ++ place ++ " is missing an operand"
  | .unterminatedLiteral => "unterminated quoted literal " ++ e.token ++ place
  | .unexpectedToken => "unexpected '" ++ e.token ++ "'" ++ place
  | .invalidPattern =>
    "invalid regular expression " ++ e.token ++ place ++ ": regex parse error:"

end TestScheduler

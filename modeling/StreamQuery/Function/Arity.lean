import StreamQuery.Error
import StreamQuery.Syntax.Text
namespace StreamQuery

/-! The numbers of operands that a function accepts. -/

inductive Arity where
  | exactly (count : Nat)
  | between (least most : Nat)
  | atLeast (least : Nat)
deriving DecidableEq, Repr

namespace Arity

def accepts : Arity → Nat → Bool
  | .exactly count, given => given == count
  | .between least most, given => least ≤ given && given ≤ most
  | .atLeast least, given => least ≤ given

def text : Arity → String
  | .exactly count => s!"{count}"
  | .between least most => s!"{least}..={most}"
  | .atLeast least => s!"at least {least}"

def error (arity : Arity) (expr : Expr) (given : Nat) : QueryError :=
  .arity expr.text arity.text given

def check (arity : Arity) (expr : Expr) (given : Nat) : Except QueryError Unit :=
  if arity.accepts given then .ok () else .error (arity.error expr given)

end Arity

end StreamQuery

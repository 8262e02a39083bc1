/-! The tokens of a written pattern: characters, and characters after a backslash. -/

namespace Stencil.Pattern

inductive Token
  | plain (c : Char)
  | escaped (c : Char)
  /-- A backslash at the end of the pattern. -/
  | loneEscape
  deriving DecidableEq

def Token.chars : Token → List Char
  | .plain c => [c]
  | .escaped c => ['\\', c]
  | .loneEscape => ['\\']

def tokens : List Char → List Token
  | [] => []
  | ['\\'] => [.loneEscape]
  | '\\' :: c :: rest => .escaped c :: tokens rest
  | c :: rest => .plain c :: tokens rest

def sizeOfTokens : List Token → Nat
  | [] => 0
  | t :: rest => t.chars.length + sizeOfTokens rest

end Stencil.Pattern

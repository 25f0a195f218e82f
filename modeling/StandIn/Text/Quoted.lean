import StandIn.Text.Visible

/-!
Text in double quotes for messages: what a reader cannot see or tell apart is spelled out.
-/

namespace StandIn.Text

namespace Quoted

-- Named escapes first; other characters stand for themselves when visible and are given by their
-- code point otherwise.
def encodeChar (c : Char) : List Char :=
  match c with
  | '\x00' => ['\\', '0']
  | '\t'   => ['\\', 't']
  | '\n'   => ['\\', 'n']
  | '\r'   => ['\\', 'r']
  | '\x22' => ['\\', '\x22']
  | '\\'   => ['\\', '\\']
  | c      => if isVisible c then [c]
              else '\\' :: 'u' :: '\x7b' :: (Nat.toDigits 16 c.toNat ++ ['\x7d'])

end Quoted

def quoted (text : String) : String :=
  String.ofList (['\x22'] ++ text.toList.flatMap Quoted.encodeChar ++ ['\x22'])

end StandIn.Text

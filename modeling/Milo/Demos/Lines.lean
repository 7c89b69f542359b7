import Milo.Demos.Drivers
import Milo.Entry.HexKey
import Mathlib.Tactic.IntervalCases

-- The lines that the drivers log, and what the control station reads in them.
namespace Milo.Demos

open Milo.Lib Milo.Rust

section Write

def LineBuffer.text (line : LineBuffer) : Bytes := line.buf.toList.take line.n

-- A line as it is logged.
def kvLine (key : String) (val : ℕ) : String := key ++ "=" ++ toString val

end Write

section Read

-- What int raises on more digits than it takes.
inductive PyError where
  | valueError
deriving DecidableEq, Repr

-- The table of decimal digits that \d and int go by.
variable (digit : Char → Option ℕ)

def int (digits : List ℕ) : Except PyError ℕ :=
  if 4300 < digits.length then .error .valueError else .ok (digits.foldl (10 * · + ·) 0)

variable {digit}

end Read

end Milo.Demos

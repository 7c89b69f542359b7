import Milo.Host.Str
import Milo.Lib.Regex

-- How the code is found in what a language model answers.
namespace Milo.Host

open Milo.Lib.Regex

-- The grave accent. Three in a row make a fence.
def tick : Char := '\x60'

def ticks : List Char := List.replicate 3 tick

def rust : List Char := ['r', 'u', 's', 't']

-- The pattern of a fence with a tag, \s*\n, a group (.*?) and a fence, under re.DOTALL.
def fenced (tag : List Char) : List Char → Option (List Char) :=
  literal (ticks ++ tag) (greedy isspace (literal ['\n']
    (lazyGroup (fun group => literal ticks fun _ => some group) [])))

def extractRust (text : String) : String :=
  match search (fenced rust) text.toList with
  | some group => .ofList (strip group)
  | none =>
      match search (fenced []) text.toList with
      | some group => .ofList (strip group)
      | none => .ofList (strip text.toList)

def Quiet (text : List Char) : Prop := ¬ticks <:+: text

-- A fenced block, and the prose between it and the next.
structure Block where
  tag : List Char
  blanks : List Char
  body : List Char
  prose : List Char
  tag_plain : ∀ c ∈ tag, isspace c = false ∧ c ≠ tick
  blanks_space : ∀ c ∈ blanks, isspace c = true ∧ c ≠ '\n'
  body_quiet : Quiet body
  prose_quiet : Quiet prose

namespace Block

variable (b : Block)

-- What stands between its fences.
def inside : List Char := b.tag ++ (b.blanks ++ '\n' :: b.body)

def text : List Char := ticks ++ (b.inside ++ (ticks ++ b.prose))

end Block

structure Reply where
  prose : List Char
  blocks : List Block
  prose_quiet : Quiet prose

namespace Reply

variable (reply : Reply)

def text : List Char := reply.prose ++ reply.blocks.flatMap Block.text

-- The first block tagged rust, else the first without a tag, else all of the reply.
def wanted : List Char :=
  match reply.blocks.find? fun b => b.tag = rust with
  | some b => strip b.body
  | none =>
      match reply.blocks.find? fun b => b.tag = [] with
      | some b => strip b.body
      | none => strip reply.text

end Reply

end Milo.Host

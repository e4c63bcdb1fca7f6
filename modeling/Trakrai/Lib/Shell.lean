import Trakrai.Lib.Split

namespace Trakrai.Lib
open List

section
variable {rest text word : List Char} {words : List (List Char)}

end

inductive Nesting where
  | single
  | double
  | escape
  | dollar
  | command
  | parameter
  | backquote
  | comment
deriving DecidableEq

/-- What a script is in, from the inside, and whether a word can begin here. -/
abbrev ScriptPlace := List Nesting × Bool

def nestBare (stack : List Nesting) (fresh : Bool) (c : Char) : List Nesting :=
  if c = '\'' then .single :: stack
  else if c = '"' then .double :: stack
  else if c = '\\' then .escape :: stack
  else if c = '$' then .dollar :: stack
  else if c = '\u0060' then .backquote :: stack
  else if c = '(' then .command :: stack
  else if c = ')' then stack.tail
  else if c = '#' ∧ fresh then .comment :: stack
  else stack

def nest (fresh : Bool) : List Nesting → Char → List Nesting
  | [], c => nestBare [] fresh c
  | .command :: stack, c => nestBare (.command :: stack) fresh c
  | .escape :: stack, _ => stack
  | .single :: stack, c => if c = '\'' then stack else .single :: stack
  | .backquote :: stack, c =>
    if c = '\u0060' then stack else if c = '\\' then .escape :: .backquote :: stack else .backquote :: stack
  | .comment :: stack, c => if c = '\n' then stack else .comment :: stack
  | .double :: stack, c =>
    if c = '"' then stack
    else if c = '\\' then .escape :: .double :: stack
    else if c = '$' then .dollar :: .double :: stack
    else if c = '\u0060' then .backquote :: .double :: stack
    else .double :: stack
  | .parameter :: stack, c =>
    if c = '\x7d' then stack
    else if c = '\\' then .escape :: .parameter :: stack
    else if c = '"' then .double :: .parameter :: stack
    else if c = '$' then .dollar :: .parameter :: stack
    else .parameter :: stack
  | .dollar :: stack, c =>
    if c = '(' then .command :: stack
    else if c = '\x7b' then .parameter :: stack
    else nest fresh stack c

def isBare : List Nesting → Bool
  | [] | .command :: _ | .dollar :: _ | .comment :: _ => true
  | _ => false

def separatesWords (c : Char) : Bool := [' ', '\t', '\n', ';', '&', '|', '(', ')'].contains c

def stepPlace (place : ScriptPlace) (c : Char) : ScriptPlace :=
  (nest place.2 place.1 c, isBare place.1 && separatesWords c)

/-- The command that is being read and the complete ones before it, last character and last command
first. -/
structure ScriptState where
  place : ScriptPlace := ([], true)
  line : List Char := []
  lines : List (List Char) := []

/-- A newline that nothing quotes or encloses ends a command. -/
def ScriptState.step (s : ScriptState) (c : Char) : ScriptState :=
  if c = '\n' ∧ stepPlace s.place c = ([], true) then { lines := s.line.reverse :: s.lines }
  else { s with place := stepPlace s.place c, line := c :: s.line }

section
variable {stack : List Nesting} {fresh : Bool} {line : List Char} {lines : List (List Char)} {s : ScriptState}

end

end Trakrai.Lib

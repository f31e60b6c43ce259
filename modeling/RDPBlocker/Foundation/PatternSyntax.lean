import RDPBlocker.Foundation.Pattern

/-! The part of the Perl syntax that consists of characters, `.`, `[a-z]`, `^`, `$`, `(..)`, `|`
and `*`. -/
namespace Foundation.Pattern

/-- The characters that are written with a backslash when they stand for themselves. -/
def escapable : List Char := ['.', '[', '{', '}', '(', ')', '\\', '*', '+', '?', '|', '^', '$']

/-- What has been read since the last open bracket, latest first. -/
structure Group where
  alternatives : List Pattern
  items : List Pattern

namespace Group

def start : Group := ⟨[], []⟩

def push (g : Group) (r : Pattern) : Group := ⟨g.alternatives, r :: g.items⟩

/-- The current alternative is complete; it may not be empty. -/
def endAlternative (g : Group) : Option Group :=
  if g.items = [] then none else some ⟨sequence g.items.reverse :: g.alternatives, []⟩

def close (g : Group) : Option Pattern :=
  if g.items = [] then none
  else some (g.alternatives.foldl (fun s r => alt r s) (sequence g.items.reverse))

/-- Only what reads characters can be repeated, and only once. -/
def repeatLast (g : Group) : Option Group :=
  match g.items with
  | [] | star _ :: _ | startOfText :: _ | endOfText :: _ => none
  | r :: items => some ⟨g.alternatives, star r :: items⟩

end Group

/-- Where the next character stands. -/
inductive Context
  | plain
  | escaped
  | set (ranges : List (Char × Char))
  | setChar (ranges : List (Char × Char)) (low : Char)
  | setRange (ranges : List (Char × Char)) (low : Char)

/-- `none` for an expression that is not well formed, or uses more of the syntax. -/
def parseFrom : Context → Group → List Group → List Char → Option Pattern
  | .plain, g, [], [] => g.close
  | _, _, _, [] => none
  | .plain, g, outer, x :: rest =>
    match x with
    | '.' => parseFrom .plain (g.push any) outer rest
    | '^' => parseFrom .plain (g.push startOfText) outer rest
    | '$' => parseFrom .plain (g.push endOfText) outer rest
    | '*' => g.repeatLast.bind fun g => parseFrom .plain g outer rest
    | '|' => g.endAlternative.bind fun g => parseFrom .plain g outer rest
    | '(' => parseFrom .plain .start (g :: outer) rest
    | ')' =>
      match outer with
      | [] => none
      | h :: outer => g.close.bind fun r => parseFrom .plain (h.push r) outer rest
    | '[' => parseFrom (.set []) g outer rest
    | '\\' => parseFrom .escaped g outer rest
    | _ => if x ∈ escapable then none else parseFrom .plain (g.push (char x)) outer rest
  | .escaped, g, outer, x :: rest =>
    if x ∈ escapable then parseFrom .plain (g.push (char x)) outer rest else none
  | .set ranges, g, outer, x :: rest =>
    if x ∈ escapable ∨ x = '-' then none
    else if x = ']' then
      if ranges = [] then none else parseFrom .plain (g.push (oneOf ranges.reverse)) outer rest
    else parseFrom (.setChar ranges x) g outer rest
  | .setChar ranges low, g, outer, x :: rest =>
    if x ∈ escapable then none
    else if x = ']' then
      parseFrom .plain (g.push (oneOf ((low, low) :: ranges).reverse)) outer rest
    else if x = '-' then parseFrom (.setRange ranges low) g outer rest
    else parseFrom (.setChar ((low, low) :: ranges) x) g outer rest
  | .setRange ranges low, g, outer, x :: rest =>
    if x ∈ escapable ∨ x = ']' then none
    else if low ≤ x then parseFrom (.set ((low, x) :: ranges)) g outer rest
    else none

def parse (expression : String) : Option Pattern :=
  parseFrom .plain .start [] expression.toList

example : parse "^a([0-9]|b*)$" = some (sequence [startOfText, char 'a',
    alt (sequence [oneOf [('0', '9')]]) (sequence [star (char 'b')]), endOfText]) := by decide

end Foundation.Pattern

/-!
# Name patterns

In a pattern a star stands for any run of characters, a question mark for one, and brackets for one
out of some ranges or, behind a caret, outside them.  A backslash takes the next character as it is.
No star and no question mark stands for a slash.
-/

namespace WordMachine

inductive Glob.Item where
  | exactly (c : Char)
  | anyOne
  | oneOf (negated : Bool) (ranges : List (Char × Char))
  | anyRun
  deriving DecidableEq, Repr

abbrev Glob := List Glob.Item

namespace Glob

/-- A character of a pattern, and whether a backslash stands before it. -/
structure Mark where
  char : Char
  quoted : Bool
  deriving DecidableEq, Repr

def Mark.isPlain (c : Char) (m : Mark) : Bool :=
  !m.quoted && m.char == c

def marks? : List Char → Option (List Mark)
  | [] => some []
  | ['\\'] => none
  | '\\' :: c :: rest => (marks? rest).map (⟨c, true⟩ :: ·)
  | c :: rest => (marks? rest).map (⟨c, false⟩ :: ·)

/-- What the reading of a pattern is in the middle of: nothing, or brackets with the ranges so far,
last first. -/
inductive Context where
  | outside
  | brackets (negated : Bool) (ranges : List (Char × Char))

/-- Read the items of a pattern.  Brackets hold at least one range, and neither end of a range is a
plain dash or a plain closing bracket. -/
def itemsFrom? : Context → List Mark → Option Glob
  | .outside, [] => some []
  | .outside, m :: rest =>
      if m.isPlain '*' then (itemsFrom? .outside rest).map (.anyRun :: ·)
      else if m.isPlain '?' then (itemsFrom? .outside rest).map (.anyOne :: ·)
      else if m.isPlain '[' then
        match rest with
        | caret :: inner =>
            if caret.isPlain '^' then itemsFrom? (.brackets true []) inner
            else itemsFrom? (.brackets false []) (caret :: inner)
        | [] => none
      else (itemsFrom? .outside rest).map (.exactly m.char :: ·)
  | .brackets _ _, [] => none
  | .brackets negated ranges, m :: rest =>
      if m.isPlain ']' then
        if ranges.isEmpty then none
        else (itemsFrom? .outside rest).map (.oneOf negated ranges.reverse :: ·)
      else if m.isPlain '-' then none
      else
        match rest with
        | dash :: high :: rest =>
            if dash.isPlain '-' then
              if high.isPlain '-' || high.isPlain ']' then none
              else itemsFrom? (.brackets negated ((m.char, high.char) :: ranges)) rest
            else itemsFrom? (.brackets negated ((m.char, m.char) :: ranges)) (dash :: high :: rest)
        | rest => itemsFrom? (.brackets negated ((m.char, m.char) :: ranges)) rest
termination_by _ rest => rest.length

def ofString? (pattern : String) : Option Glob :=
  (marks? pattern.toList).bind (itemsFrom? .outside)

def Item.admits (c : Char) : Item → Bool
  | .exactly d => c == d
  | .anyOne => c != '/'
  | .oneOf negated ranges => (ranges.any fun (low, high) => low ≤ c && c ≤ high) != negated
  | .anyRun => false

/-- What can be left of a name behind a run without a slash. -/
def remainders : List Char → List (List Char)
  | [] => [[]]
  | c :: rest => (c :: rest) :: if c = '/' then [] else remainders rest

def accepts : Glob → List Char → Bool
  | [], name => name.isEmpty
  | .anyRun :: rest, name => (remainders name).any (accepts rest)
  | _ :: _, [] => false
  | item :: rest, c :: name => item.admits c && accepts rest name

end Glob

end WordMachine

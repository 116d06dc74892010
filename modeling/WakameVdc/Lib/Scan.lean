import WakameVdc.Lib.Text

/-!
# Searching and counting texts

`scan label p` is the group of a pattern that has `label` and then at least one
character of the class `p`. `succ` is the next text, as names are counted.
-/

namespace Lib

namespace Text

def scan (label : Text) (p : Char → Bool) : Text → Option Text
  | [] => none
  | c :: t =>
    if label.isPrefixOf (c :: t) then
      match ((c :: t).drop label.length).takeWhile p with
      | [] => scan label p t
      | w => some w
    else scan label p t

/-! ## The successor of a text -/

def bump (c : Char) : Option (Char × Bool) :=
  if c = '9' then some ('0', true)
  else if c = 'z' then some ('a', true)
  else if c = 'Z' then some ('A', true)
  else if c.isAlphanum then some (Char.ofNat (c.toNat + 1), false)
  else none

def carried (c : Char) : Char := if c = '0' then '1' else c

/-- The carry, from the last character to the first; `none` if nothing takes it.
It does not pass from letters to digits, or back, over other characters. -/
def carry (last : Option Char) (gap : Bool) : Text → Option Text
  | [] => none
  | c :: t =>
    if gap && last.any fun l => (l.isAlpha && c.isDigit) || (l.isDigit && c.isAlpha) then none
    else match bump c with
      | none => (carry last true t).map (c :: ·)
      | some (d, false) => some (d :: t)
      | some (d, true) =>
        match carry (some d) false t with
        | some t => some (d :: t)
        | none => some (d :: carried d :: t)

/-- `String#succ` of a text in ASCII. -/
def succ (t : Text) : Text :=
  match carry none false t.reverse with
  | some r => r.reverse
  | none =>
    match t.reverse with
    | [] => []
    | c :: r => (Char.ofNat (c.toNat + 1) :: r).reverse

example : ["sda", "vdz", "xvdzz", "Zz", "a-9", "1.9"].map (fun s => succ s.toList) =
    ["sdb", "vea", "xveaa", "AAa", "a-10", "2.0"].map String.toList := by decide

end Text

end Lib

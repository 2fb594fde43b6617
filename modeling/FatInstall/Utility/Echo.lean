import FatInstall.Utility.Basic

/-!
# Printing words

Words with their escapes, or as they are.

This serves runs of real processes only (`World.Processes`).
-/

namespace FatInstall.Utility

/-- The value of an octal digit. -/
def octal? (c : Char) : Option Nat :=
  if '0' ≤ c ∧ c ≤ '7' then some (c.toNat - '0'.toNat) else none

/-- The number of at most so many octal digits, and what follows them. -/
def octalNumber (most : Nat) (cs : List Char) : Nat × List Char :=
  let digits := (cs.take most).takeWhile fun c => (octal? c).isSome
  (digits.foldl (fun n c => n * 8 + (octal? c).getD 0) 0, cs.drop digits.length)

/-- What the letter of an escape stands for. -/
def escapeLetter? : Char → Option UInt8
  | '\\' => some 92
  | 'a' => some 7
  | 'b' => some 8
  | 'f' => some 12
  | 'n' => some 10
  | 'r' => some 13
  | 't' => some 9
  | 'v' => some 11
  | _ => none

/-- A text with its escapes. Octal digits after a zero are a byte; `\c` ends all output, which the
second part says. -/
def escaped : Nat → List Char → List UInt8 × Bool
  | 0, _ | _, [] => ([], false)
  | fuel + 1, '\\' :: cs =>
    match cs with
    | [] => ([92], false)
    | c :: r =>
      if c = 'c' then ([], true)
      else
        let (bytes, r) : List UInt8 × List Char :=
          if c = '0' then
            let (n, r) := octalNumber 3 r
            ([UInt8.ofNat n], r)
          else if (octal? c).isSome then
            let (n, r) := octalNumber 3 cs
            ([UInt8.ofNat n], r)
          else match escapeLetter? c with
            | some b => ([b], r)
            | none => ([92], cs)
        let (more, ends) := escaped fuel r
        (bytes ++ more, ends)
  | fuel + 1, c :: r =>
    let (more, ends) := escaped fuel r
    (bytesOf c.toString ++ more, ends)

/-- Prints its words, with their escapes. -/
def echoEscaped (c : Call) : Ended :=
  let (ends, words) := match c.args with
    | "-n" :: ws => ("", ws)
    | ws => ("\n", ws)
  let cs := (String.intercalate " " words).toList
  let (bytes, stopped) := escaped (cs.length + 1) cs
  { c.ended 0 with out := bytes ++ if stopped then [] else bytesOf ends }

/-- Prints its words. -/
def echoPlain (c : Call) : Ended :=
  let isOption (w : String) : Bool :=
    match w.toList with
    | '-' :: cs => cs != [] && cs.all fun d => d == 'n' || d == 'e' || d == 'E'
    | _ => false
  let options := c.args.takeWhile isOption
  let words := c.args.dropWhile isOption
  let has (d : Char) : Bool := options.any fun w => w.toList.contains d
  let ending := if has 'n' then "" else "\n"
  if has 'e' then
    let cs := (String.intercalate " " words).toList
    let (bytes, stopped) := escaped (cs.length + 1) cs
    { c.ended 0 with out := bytes ++ if stopped then [] else bytesOf ending }
  else c.prints (String.intercalate " " words ++ ending)

end FatInstall.Utility

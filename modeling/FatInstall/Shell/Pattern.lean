/-!
# Patterns

A pattern fits texts: a star fits any text, a question mark any character, a class in brackets one
of its characters. A character that is quoted fits itself only.

This serves runs of real processes only (`World.Processes`).
-/

namespace FatInstall.Shell

/-- A character of a word, and whether it is quoted. -/
abbrev Mark := Char × Bool

namespace Pattern

/-- Is the character special in patterns? -/
def isSpecial (m : Mark) : Bool := !m.2 && (m.1 == '*' || m.1 == '?' || m.1 == '[')

/-- The ranges of a class up to its closing bracket, and what follows it. -/
def ranges : List Mark → Bool → Option (List (Char × Char) × List Mark)
  | [], _ => none
  | (']', false) :: r, false => some ([], r)
  | (a, _) :: ('-', false) :: (']', false) :: r, _ => some ([(a, a), ('-', '-')], r)
  | (a, _) :: ('-', false) :: (b, _) :: r, _ =>
    (ranges r false).map fun (rs, r) => ((a, b) :: rs, r)
  | (a, _) :: r, _ => (ranges r false).map fun (rs, r) => ((a, a) :: rs, r)

/-- A class after its opening bracket: the test on a character, and what follows the class. -/
def charClass (ms : List Mark) : Option ((Char → Bool) × List Mark) :=
  let inClass (rs : List (Char × Char)) (c : Char) : Bool := rs.any fun r => r.1 ≤ c && c ≤ r.2
  match ms with
  | ('!', false) :: r => (ranges r true).map fun (rs, r) => (fun c => !inClass rs c, r)
  | _ => (ranges ms true).map fun (rs, r) => (inClass rs, r)

/-- What the next place of a pattern fits. -/
inductive Place
  | anyText
  | one (test : Char → Bool)

/-- The places of a pattern. -/
def places : Nat → List Mark → List Place
  | 0, _ | _, [] => []
  | fuel + 1, (c, isQuoted) :: r =>
    if isQuoted then .one (· == c) :: places fuel r
    else if c = '*' then .anyText :: places fuel r
    else if c = '?' then .one (fun _ => true) :: places fuel r
    else if c = '[' then
      match charClass r with
      | some (test, r) => .one test :: places fuel r
      | none => .one (· == '[') :: places fuel r
    else .one (· == c) :: places fuel r

/-- Has the text an end of the kind? -/
def hasEnd (test : List Char → Bool) : List Char → Bool
  | [] => test []
  | c :: r => test (c :: r) || hasEnd test r

/-- Do the places fit the text? -/
def fitsPlaces : List Place → List Char → Bool
  | [], s => s.isEmpty
  | .one test :: ps, s =>
    match s with
    | [] => false
    | c :: r => test c && fitsPlaces ps r
  | .anyText :: ps, s => hasEnd (fitsPlaces ps) s

/-- Does the pattern fit the text? -/
def fits (pattern : List Mark) (s : List Char) : Bool :=
  fitsPlaces (places pattern.length pattern) s

end Pattern

end FatInstall.Shell

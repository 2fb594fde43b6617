import FatInstall.Utility.Echo

/-!
# Filters

Programs that copy, count, sort or change what they read, or take a part of it.

This serves runs of real processes only (`World.Processes`).
-/

namespace FatInstall.Utility

/-- What a file holds that a program is to read; a dash is its own input. -/
def contentOf (h : Host) (input : List UInt8) (name : String) : Except String (List UInt8) :=
  if name = "-" then .ok input
  else match h.read (Path.ofString name) with
    | .ok bytes => .ok bytes
    | .error (.system cause _) => .error cause.text
    | .error _ => .error Host.Cause.missing.text

/-- Runs a filter on each of the named files, or on the input. -/
def filterFiles (label : String → String) (act : String → List UInt8 → List UInt8) (c : Call)
    (names : List String) : Ended :=
  let usesInput := names.isEmpty || names.contains "-"
  let names := if names.isEmpty then ["-"] else names
  let e := forAll 1 (fun h name =>
    match contentOf h c.input name with
    | .ok bytes => (h, act name bytes, [], true)
    | .error text => (h, [], c.complaint s!"{label name}: {text}", false)) c names
  if usesInput then { e with input := [] } else e

/-- Copies files. -/
def cat (c : Call) : Ended := filterFiles id (fun _ bytes => bytes) c (letters c.args).2

/-- The lines of bytes, each with its end. -/
def lines : List UInt8 → List (List UInt8)
  | [] => []
  | b :: r =>
    if b = 10 then [10] :: lines r
    else match lines r with
      | [] => [[b]]
      | l :: ls => (b :: l) :: ls

/-- The unit, the count and the files of a program that takes a part of its input. -/
def partWords : List String → Bool × String × List String
  | "-c" :: n :: r => (true, n, r)
  | "-n" :: n :: r => (false, n, r)
  | w :: r =>
    match w.toList with
    | '-' :: 'c' :: n => (true, String.ofList n, r)
    | '-' :: 'n' :: n => (false, String.ofList n, r)
    | '-' :: d :: n =>
      if d.isDigit then (false, String.ofList (d :: n), r) else (false, "10", w :: r)
    | _ => (false, "10", w :: r)
  | [] => (false, "10", [])

/-- The header between the parts of several files. -/
def partHeader (names : List String) (name : String) : List UInt8 :=
  if names.length ≤ 1 then []
  else
    let header := bytesOf s!"==> {name} <==\n"
    if names.head? = some name then header else 10 :: header

/-- The start of files. -/
def head (c : Call) : Ended :=
  let (isBytes, count, names) := partWords c.args
  let label (name : String) : String := s!"cannot open '{name}' for reading"
  match count.toNat? with
  | none =>
    let unit := if isBytes then "bytes" else "lines"
    c.fails 1 s!"invalid number of {unit}: {c.inQuotes count}"
  | some n =>
    filterFiles label (fun name bytes =>
      partHeader names name ++ if isBytes then bytes.take n else ((lines bytes).take n).flatten)
      c names

/-- The end of files. -/
def tail (c : Call) : Ended :=
  let (isBytes, count, names) := partWords c.args
  let label (name : String) : String := s!"cannot open '{name}' for reading"
  let fromStart := count.startsWith "+"
  match (String.ofList (count.toList.filter fun d => d != '+' && d != '-')).toNat? with
  | none =>
    let unit := if isBytes then "bytes" else "lines"
    c.fails 1 s!"invalid number of {unit}: {c.inQuotes count}"
  | some n =>
    let last {α : Type} (xs : List α) : List α :=
      if fromStart then xs.drop (n - 1) else xs.drop (xs.length - n)
    filterFiles label (fun name bytes =>
      partHeader names name ++ if isBytes then last bytes else (last (lines bytes)).flatten)
      c names

/-- The number of words in bytes. -/
def wordCount (bytes : List UInt8) : Nat :=
  let isGap (b : UInt8) : Bool := b == 32 || (9 ≤ b && b ≤ 13)
  (bytes.foldl (fun (n, before) b => (if before && !isGap b then n + 1 else n, isGap b))
    ((0 : Nat), true)).1

/-- Counts lines, words and bytes. -/
def wc (c : Call) : Ended :=
  let (options, names) := letters c.args
  let options := if options = [] then ['l', 'w', 'c'] else options
  let counts (bytes : List UInt8) : List Nat :=
    (if options.contains 'l' then [bytes.count 10] else []) ++
    (if options.contains 'w' then [wordCount bytes] else []) ++
    (if options.contains 'm' then [(textOf bytes).length] else []) ++
    (if options.contains 'c' then [bytes.length] else [])
  let sizes := names.map fun name => ((contentOf c.host c.input name).toOption.getD []).length
  let columns := (counts []).length
  let width :=
    if columns ≤ 1 ∧ names.length ≤ 1 then 1
    else if names = [] ∨ names.contains "-" then 7
    else (toString (sizes.foldl (· + ·) 0)).length
  let row (ns : List Nat) (label : String) : List UInt8 :=
    let cells := ns.map fun n =>
      let s := toString n
      String.ofList (List.replicate (width - s.length) ' ') ++ s
    bytesOf (String.intercalate " " cells ++ (if label = "" then "" else " " ++ label) ++ "\n")
  let e := filterFiles id (fun name bytes => row (counts bytes) (if names = [] then "" else name))
    c names
  if names.length ≤ 1 then e
  else
    let all := names.map fun name => (contentOf c.host c.input name).toOption.getD []
    let total := (all.map counts).foldl (List.zipWith (· + ·)) (List.replicate columns 0)
    { e with out := e.out ++ row total "total" }

/-- Prints numbers one after the other. -/
def seq (c : Call) : Ended :=
  let numbers := c.args.map String.toInt?
  let row (first step last : Int) : Ended :=
    let count := if step = 0 then 0 else ((last - first) / step + 1).toNat
    let count := if 0 < step ∧ last < first ∨ step < 0 ∧ first < last then 0 else count
    let line (i : Nat) : String := s!"{first + step * (i : Int)}\n"
    c.prints (String.join ((List.range count).map line))
  match numbers with
  | [some last] => row 1 1 last
  | [some first, some last] => row first 1 last
  | [some first, some step, some last] => row first step last
  | _ => c.fails 1 "missing operand"

/-- The characters of a set, with its ranges. -/
def charSet : List Char → List Char
  | a :: '-' :: b :: r =>
    ((List.range (b.toNat + 1 - a.toNat)).map fun i => Char.ofNat (a.toNat + i)) ++ charSet r
  | '\\' :: c :: r =>
    (match escapeLetter? c with
      | some b => Char.ofNat b.toNat
      | none => if c = '0' then '\x00' else c) :: charSet r
  | c :: r => c :: charSet r
  | [] => []

/-- Replaces or deletes characters. -/
def tr (c : Call) : Ended :=
  let byteOf (d : Char) : UInt8 := UInt8.ofNat d.toNat
  match letters c.args with
  | (['d'], [s]) =>
    let gone := (charSet s.toList).map byteOf
    { c.ended 0 with out := c.input.filter fun b => !gone.contains b, input := [] }
  | ([], [s, t]) =>
    let old := (charSet s.toList).map byteOf
    let new := (charSet t.toList).map byteOf
    let replaced (b : UInt8) : UInt8 :=
      match old.findIdx? (· == b) with
      | some i => new.getD i (new.getLast?.getD b)
      | none => b
    { c.ended 0 with out := c.input.map replaced, input := [] }
  | _ => c.fails 1 "missing operand"

/-- Does one line come before another? -/
def lineLe : List UInt8 → List UInt8 → Bool
  | [], _ => true
  | _ :: _, [] => false
  | a :: r, b :: s => a < b || (a == b && lineLe r s)

/-- Sorts lines. -/
def sort (c : Call) : Ended :=
  let (options, names) := letters c.args
  let e := filterFiles (fun name => s!"cannot read: {name}") (fun _ bytes => bytes) c names
  let whole := (lines e.out).map fun l => if l.getLast? = some 10 then l.dropLast else l
  let sorted := whole.mergeSort lineLe
  let sorted := if options.contains 'u' then sorted.eraseReps else sorted
  let sorted := if options.contains 'r' then sorted.reverse else sorted
  { e with out := sorted.flatMap (· ++ [10]) }

/-- Writes what it reads to its output and to files. -/
def tee (c : Call) : Ended :=
  let (options, names) := letters c.args
  let host := names.foldl (fun h name =>
    let p := Path.ofString name
    let before := if options.contains 'a' then (h.read p).toOption.getD [] else []
    h.edit (.write p (before ++ c.input))) c.host
  { c.ended 0 with host, out := c.input, input := [] }

end FatInstall.Utility

import ShellCompletion.Kernel.Program

/-!
# The program that sleeps

Its arguments are times, which it adds up: decimal numbers with a unit of seconds, minutes, hours or days.
-/

namespace ShellCompletion.Kernel.Sleep

open Text (Octets)

/-- The digits of a number and how many of them stand after the point. -/
def mantissa? (text : Octets) : Option (Nat × Nat × Octets) :=
  let (whole, rest) := text.span Char.isDigit
  let (fraction, rest) := match rest with
    | '.' :: rest => rest.span Char.isDigit
    | rest => ([], rest)
  if whole.isEmpty && fraction.isEmpty then none
  else
    let digits := (whole ++ fraction).foldl (fun n c => n * 10 + (c.toNat - '0'.toNat)) 0
    some (digits, fraction.length, rest)

/-- The power of ten after a number, if there is one. -/
def exponent (text : Octets) : Int × Octets :=
  let read (text : Octets) : Option (Nat × Octets) :=
    let (digits, rest) := text.span Char.isDigit
    if digits.isEmpty then none
    else some (min 10000 (digits.foldl (fun n c => n * 10 + (c.toNat - '0'.toNat)) 0), rest)
  match text with
  | e :: rest =>
    if e == 'e' || e == 'E' then
      let (negative, after) := match rest with
        | '-' :: after => (true, after)
        | '+' :: after => (false, after)
        | after => (false, after)
      match read after with
      | some (power, after) => (if negative then -(power : Int) else power, after)
      | none => (0, text)
    else (0, text)
  | [] => (0, [])

def unit? : Octets → Option Nat
  | [] | ['s'] => some 1
  | ['m'] => some 60
  | ['h'] => some 3600
  | ['d'] => some 86400
  | _ => none

/-- The longest time that is told apart, in microseconds. -/
def longest : Nat := 1000000000000000000

/-- The microseconds of an argument. -/
def time? (argument : Octets) : Option Nat :=
  let (negative, text) := match argument.dropWhile fun c => c == ' ' || ('\t' ≤ c && c ≤ '\r') with
    | '-' :: text => (true, text)
    | '+' :: text => (false, text)
    | text => (false, text)
  let lower := text.map Char.toLower
  if "infinity".toList.isPrefixOf lower || "inf".toList.isPrefixOf lower then
    let rest := text.drop (if "infinity".toList.isPrefixOf lower then 8 else 3)
    if negative then none else (unit? rest).map fun _ => longest
  else do
    let (digits, places, rest) ← mantissa? text
    let (power, rest) := exponent rest
    let seconds ← unit? rest
    if negative && digits ≠ 0 then none
    let power := power - places + 6
    let scaled := if 0 ≤ power then digits * seconds * Nat.pow 10 power.toNat
      else digits * seconds / Nat.pow 10 (-power).toNat
    return min longest scaled

def quote (text : Octets) : Octets :=
  ['\''] ++ text.flatMap (fun c => if c == '\'' || c == '\\' then ['\\', c] else [c]) ++ ['\'']

/-- Ends with complaints, and with a word on how to get help. -/
def complain (name : Octets) (messages : List Octets) : Program :=
  let lines := messages.map (name ++ Text.encode ": " ++ ·)
  let help := Text.encode "Try '" ++ name ++ Text.encode " --help' for more information."
  .call (.write 2 ((lines ++ [help]).flatMap (· ++ ['\n']))) fun _ => .exit 1

/-- The arguments that are no options, or what is wrong with the first option. There are no options; after
two dashes nothing is taken for one. -/
def operands : List Octets → Except Octets (List Octets)
  | [] => .ok []
  | ['-', '-'] :: rest => .ok rest
  | ('-' :: c :: letters) :: _ =>
    .error (if c == '-' then Text.encode "unrecognized option " ++ quote ('-' :: c :: letters)
      else Text.encode "invalid option -- " ++ quote [c])
  | argument :: rest => (operands rest).map (argument :: ·)

/-- Sleeps as long as all the arguments say. -/
def program (arguments : List Octets) : Program :=
  let name := arguments.headD "sleep".toList
  match operands (arguments.drop 1) with
  | .error message => complain name [message]
  | .ok [] => complain name [Text.encode "missing operand"]
  | .ok times =>
    let wrong := times.filter fun time => (time? time).isNone
    if wrong.isEmpty then
      .call (.sleep (times.foldl (fun sum time => sum + (time? time).getD 0) 0)) fun _ => .exit 0
    else complain name (wrong.map (Text.encode "invalid time interval " ++ quote ·))

end ShellCompletion.Kernel.Sleep

import ShellCompletion.Kernel.Program

/-!
# What a file starts

A file that is executed is a program of the system, or it names on its first line the interpreter that it
is for. `image` gives the program in the end and the arguments that it is started with.
-/

namespace ShellCompletion.Kernel

open Text (Octets)

namespace Interpreter

/-- The system looks at this much of a file. -/
def window : Nat := 256

/-- So many interpreters may be interpreted themselves. -/
def maxDepth : Nat := 5

def isBlank (c : Char) : Bool := c == ' ' || c == '\t'

def isEnd (c : Char) : Bool := isBlank c || c == '\x00'

def trimEnd (text : Octets) : Octets := (text.reverse.dropWhile isBlank).reverse

/-- The line that names an interpreter, from after its mark on. Where it goes on beyond the window, it
must be certain that the name is not cut off. -/
def line? (start : Octets) : Option Octets :=
  let (line, rest) := start.span fun c => c != '\n' && c != '\x00'
  if rest.head? = some '\n' then some (trimEnd line)
  else if start.length + 2 < window || !rest.isEmpty then some line
  else
    let line := line.take (window - 3)
    if (line.dropWhile isBlank).any isEnd then some (trimEnd line) else none

/-- The path of an interpreter and the argument that it is given, if any. -/
def ofLine? (line : Octets) : Option (Octets × Option Octets) :=
  let (name, rest) := (line.dropWhile isBlank).span (!isEnd ·)
  let argument := rest.dropWhile isBlank
  if name.isEmpty then none
  else some (name, if argument.isEmpty then none else some argument)

/-- The interpreter that a file names. -/
def ofFile? (content : ByteArray) : Option (Octets × Option Octets) :=
  match Text.ofBytes (content.extract 0 window) with
  | '#' :: '!' :: start => (line? start).bind ofLine?
  | _ => none

end Interpreter

/-- What a path starts: a program of the system, or an interpreter and its argument. -/
inductive Start where
  | program (program : SystemProgram)
  | interpreter (path : Octets) (argument : Option Octets)

def start (tree : FileTree) (directory : Place) (path : Octets) : Except Errno Start :=
  match tree.find directory (Text.decode path) with
  | .error error => .error (.ofPath error)
  | .ok (.program program) => .ok (.program program)
  | .ok (.file content true) =>
    match Interpreter.ofFile? content with
    | none => .error .notExecutable
    | some (interpreter, argument) =>
      match tree.find directory (Text.decode interpreter) with
      | .error error => .error (.ofPath error)
      | .ok node =>
        if node.isExecutable then .ok (.interpreter interpreter argument) else .error .denied
  | .ok _ => .error .denied

/-- The program that is started for a path, and its arguments. -/
def image (tree : FileTree) (directory : Place) (path : Octets) (arguments : List Octets)
    (depth : Nat) : Except Errno (SystemProgram × List Octets) :=
  match start tree directory path with
  | .error errno => .error errno
  | .ok (.program program) => .ok (program, arguments)
  | .ok (.interpreter interpreter argument) =>
    match depth with
    | 0 => .error .tooManyLinks
    | depth + 1 =>
      image tree directory interpreter (interpreter :: argument.toList ++ path :: arguments.drop 1)
        depth

end ShellCompletion.Kernel

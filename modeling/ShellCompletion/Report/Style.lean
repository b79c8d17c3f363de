/-!
# Terminal styles

A painted text stands between the sequence that switches a style on and the one that switches all styles
off.
-/

namespace ShellCompletion.Report

structure Style where
  codes : List Nat
deriving DecidableEq, Repr

namespace Style

def label : Style := ⟨[1, 36]⟩

def cursorWord : Style := ⟨[1, 4]⟩

def newWord : Style := ⟨[1]⟩

def action : Style := ⟨[33]⟩

def excluded : Style := ⟨[90]⟩

def suggestion : Style := ⟨[32]⟩

def on (style : Style) : String := "\x1b[" ++ ";".intercalate (style.codes.map toString) ++ "m"

def off : String := "\x1b[0m"

def paint (style : Style) (color : Bool) (text : String) : String :=
  if color then style.on ++ text ++ off else text

@[simp] theorem paint_false (style : Style) (text : String) : style.paint false text = text := rfl

end Style

end ShellCompletion.Report

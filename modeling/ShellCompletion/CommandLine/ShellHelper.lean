/-!
# Shell helpers

A helper is a piece of shell script that registers commands and asks this program for their suggestions.
-/

namespace ShellCompletion.CommandLine

inductive ShellName where
  | bash
  | zsh
  | fish
deriving DecidableEq, Repr

namespace ShellName

def bashLines : List String := [
  "",
  "# compline dispatch for registered commands",
  "declare -gA _COMPLINE_SPECS",
  "",
  "_compline_dispatch() \x7b",
  "    local cmd=\"$\x7b1##*/\x7d\"",
  "    local spec=\"$\x7b_COMPLINE_SPECS[$cmd]:-$cmd\x7d\"",
  "    local IFS=$'\\n'",
  "    COMPREPLY=($(compline complete --spec \"$spec\" --cursor \"$COMP_CWORD\" -- \"$\x7bCOMP_WORDS[@]\x7d\" 2>/dev/null))",
  "    if [[ $\x7b#COMPREPLY[@]\x7d -eq 1 && $\x7bCOMPREPLY[0]\x7d == */ ]]; then",
  "        compopt -o nospace",
  "    fi",
  "\x7d",
  "",
  "# Usage: compline_register <command> [spec]",
  "compline_register() \x7b",
  "    _COMPLINE_SPECS[$1]=\"$\x7b2:-$1\x7d\"",
  "    complete -F _compline_dispatch \"$1\"",
  "\x7d"]

def zshLines : List String := [
  "",
  "# compline dispatch for registered commands",
  "typeset -gA _compline_specs",
  "",
  "_compline_dispatch() \x7b",
  "    local cmd=$\x7bwords[1]:t\x7d",
  "    local spec=$\x7b_compline_specs[$cmd]:-$cmd\x7d",
  "    local -a suggestions",
  "    suggestions=(\"$\x7b(@f)$(compline complete --spec \"$spec\" --cursor $((CURRENT - 1)) -- \"$\x7bwords[@]\x7d\" 2>/dev/null)\x7d\")",
  "    suggestions=($\x7bsuggestions:#\x7d)",
  "    compadd -Q -a suggestions",
  "\x7d",
  "",
  "# Usage: compline_register <command> [spec]",
  "compline_register() \x7b",
  "    _compline_specs[$1]=$\x7b2:-$1\x7d",
  "    compdef _compline_dispatch $1",
  "\x7d"]

def fishLines : List String := [
  "",
  "# compline dispatch for registered commands",
  "function __compline_dispatch",
  "    set -l tokens (commandline -opc) (commandline -ct)",
  "    compline complete --spec $argv[1] --cursor (math (count $tokens) - 1) -- $tokens 2>/dev/null",
  "end",
  "",
  "# Usage: compline_register <command> [spec]",
  "function compline_register",
  "    set -l spec $argv[1]",
  "    set -q argv[2]; and set spec $argv[2]",
  "    complete -c $argv[1] -f -a \"(__compline_dispatch $spec)\"",
  "end"]

def helper (shell : ShellName) : String :=
  let lines := match shell with
    | .bash => bashLines
    | .zsh => zshLines
    | .fish => fishLines
  String.join (lines.map (· ++ "\n"))

/-- The shell with a name in letters of either case. Only the letters of ASCII have the letters of these
names as their lower case. -/
def ofName? (name : String) : Option ShellName :=
  match String.ofList (name.toList.map Char.toLower) with
  | "bash" => some .bash
  | "zsh" => some .zsh
  | "fish" => some .fish
  | _ => none

end ShellName

end ShellCompletion.CommandLine

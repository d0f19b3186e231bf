import ArchDiagram.Path

/-!
The commands of the program: writing the settings file of a new project, checking sources, and
showing the object model of a source.
-/

namespace ArchDiagram

inductive Command
  | init (directory : Path)
  | check (paths : List Path) (settings? : Option Path)
  | dump (file : Path) (indent : Int)
deriving DecidableEq, Repr

namespace Command

structure Invocation where
  verbose : Bool
  command? : Option Command
deriving DecidableEq, Repr

/-- What words are read for: the program, or one of its commands. -/
inductive Scope
  | program
  | init
  | check
  | dump
deriving DecidableEq, Repr

namespace Scope

/-- The commands, in the order in which they are named to a user. -/
def commands : List Scope := [init, check, dump]

def word : Scope → String
  | program => "isomorph"
  | init => "init"
  | check => "check"
  | dump => "dump"

def title : Scope → String
  | program => program.word
  | command => program.word ++ " " ++ command.word

def usage : Scope → String
  | program => "usage: isomorph [-h] [-v] COMMAND ..."
  | init => "usage: isomorph init [-h] [directory]"
  | check => "usage: isomorph check [-h] [--config CONFIG] [paths ...]"
  | dump => "usage: isomorph dump [-h] [--indent INDENT] file"

def help : Scope → List String
  | program => [
    program.usage,
    "",
    "Isomorph: a textual DSL for architecture diagrams",
    "",
    "positional arguments:",
    "  COMMAND",
    "    init         Create a default project configuration",
    "    check        Check .isx files for syntax and semantic errors",
    "    dump         Print the object model of a file as JSON",
    "",
    "options:",
    "  -h, --help     show this help message and exit",
    "  -v, --verbose  Enable debug logging"]
  | init => [
    init.usage,
    "",
    "Write a default .isomorph.yaml into a directory.",
    "",
    "positional arguments:",
    "  directory   Directory to initialize (default: current directory)",
    "",
    "options:",
    "  -h, --help  show this help message and exit"]
  | check => [
    check.usage,
    "",
    "Parse and analyze .isx files and report every diagnostic.",
    "",
    "positional arguments:",
    "  paths            Files or directories to check (default: current directory)",
    "",
    "options:",
    "  -h, --help       show this help message and exit",
    "  --config CONFIG  Configuration file (default: nearest .isomorph.yaml)"]
  | dump => [
    dump.usage,
    "",
    "Analyze one .isx file and print its object model as JSON.",
    "",
    "positional arguments:",
    "  file             The .isx file to dump",
    "",
    "options:",
    "  -h, --help       show this help message and exit",
    "  --indent INDENT  JSON indentation (default: 2)"]

end Scope

end Command

end ArchDiagram

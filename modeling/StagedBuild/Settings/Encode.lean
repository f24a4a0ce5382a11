import StagedBuild.Document.Quoting
import StagedBuild.Settings

/-! Settings written as a document: every section under its header, every field on its line. -/
namespace StagedBuild
open Document (quote)

def writeText (s : String) : List Char := quote s.toList

def writeFlag (b : Bool) : List Char := if b then "true".toList else "false".toList

def writeElements : List String → List Char
  | [] => []
  | [s] => writeText s
  | s :: rest => writeText s ++ [',', ' '] ++ writeElements rest

def writeTexts (ss : List String) : List Char := '[' :: writeElements ss ++ [']']

def writeField (name : String) (value : List Char) : List Char :=
  name.toList ++ [' ', '=', ' '] ++ value ++ ['\n']

def writeHeader (name : String) : List Char := '[' :: name.toList ++ [']', '\n']

def Toolchain.write (t : Toolchain) : List Char :=
  writeHeader "toolchain" ++ writeField "cc" (writeText t.cc) ++ writeField "opt" (writeText t.opt)
    ++ writeField "llc" (writeText t.llc)

def Compile.write (c : Compile) : List Char :=
  writeHeader "compile" ++ writeField "ir_flags" (writeTexts c.irFlags)

def Optimizer.write (o : Optimizer) : List Char :=
  writeHeader "optimizer" ++ writeField "plugin" (writeText o.plugin)
    ++ writeField "passes" (writeTexts o.passes) ++ writeField "stats" (writeFlag o.stats)

def Codegen.write (c : Codegen) : List Char :=
  writeHeader "codegen" ++ writeField "filetype" (writeText c.filetype)

def Settings.toDocument (s : Settings) : String :=
  String.ofList (s.toolchain.write ++ ['\n'] ++ s.compile.write ++ ['\n'] ++ s.optimizer.write
    ++ ['\n'] ++ s.codegen.write)

end StagedBuild

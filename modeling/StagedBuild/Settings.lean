/-! The settings of a build, in four sections, with their defaults. -/
namespace StagedBuild

structure Toolchain where
  cc : String := "clang"
  opt : String := "opt"
  llc : String := "llc"
  deriving DecidableEq, Repr

structure Compile where
  irFlags : List String := ["-c", "-O0", "-emit-llvm"]
  deriving DecidableEq, Repr

structure Optimizer where
  plugin : String := "PREviaLCM.so"
  passes : List String := ["reassociate", "newgvn"]
  stats : Bool := true
  deriving DecidableEq, Repr

structure Codegen where
  filetype : String := "obj"
  deriving DecidableEq, Repr

structure Settings where
  toolchain : Toolchain := {}
  compile : Compile := {}
  optimizer : Optimizer := {}
  codegen : Codegen := {}
  deriving DecidableEq, Repr

end StagedBuild

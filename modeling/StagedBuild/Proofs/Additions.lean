import StagedBuild.Plan.Make

/-! An assembly only grows. An addition puts words of its own behind those that are there, whatever these are,
so that a command is read off its additions one by one, and it does not matter which of them it begins with. -/
namespace StagedBuild

def Addition.words : Addition → List String
  | .irFlags settings => settings.compile.irFlags
  | .optimizer settings => (if settings.optimizer.stats then ["-stats"] else []) ++
      "-load" :: settings.optimizer.plugin :: settings.optimizer.passes.map ("-" ++ ·)
  | .codegen settings => ["-filetype=" ++ settings.codegen.filetype]
  | .input word => word.toList
  | .output path => ["-o", path]
  | .standardOutput => ["-o", "-"]
  | .extra words => words

namespace Assembly

def addAll (a : Assembly) (additions : List Addition) : Assembly := additions.foldl add a

theorem addWords (a : Assembly) (addition : Addition) :
    (a.add addition).words = a.words ++ addition.words := by
  cases addition with
  | irFlags settings => rfl
  | optimizer settings =>
    cases stats : settings.optimizer.stats <;> simp [add, optimizer, Addition.words, stats]
  | codegen settings => rfl
  | input word => cases word <;> simp [add, input, Addition.words]
  | output path => rfl
  | standardOutput => rfl
  | extra words => rfl

theorem addAllWords (a : Assembly) (additions : List Addition) :
    (a.addAll additions).words = a.words ++ additions.flatMap Addition.words := by
  induction additions generalizing a with
  | nil => simp [addAll]
  | cons addition rest ih =>
    calc ((a.add addition).addAll rest).words
      _ = (a.add addition).words ++ rest.flatMap Addition.words := ih (a.add addition)
      _ = a.words ++ (addition.words ++ rest.flatMap Addition.words) := by rw [addWords, List.append_assoc]

theorem addAllExtends (a : Assembly) (additions : List Addition) :
    a.words <+: (a.addAll additions).words :=
  ⟨additions.flatMap Addition.words, (addAllWords a additions).symm⟩

theorem statesByCount (a : Assembly) (additions : List Addition) :
    a.states additions =
      (List.range (additions.length + 1)).map fun n => (a.addAll (additions.take n)).words := by
  induction additions generalizing a with
  | nil => rfl
  | cons addition rest ih =>
    have counts : List.range (rest.length + 1 + 1) = 0 :: (List.range (rest.length + 1)).map Nat.succ :=
      List.range_succ_eq_map
    rw [states, ih, List.length_cons, counts, List.map_cons, List.map_map]
    rfl

theorem statesGrow (a : Assembly) (additions : List Addition) :
    (a.states additions).Pairwise fun earlier later => earlier <+: later := by
  rw [statesByCount, List.pairwise_map]
  refine List.pairwise_lt_range.imp fun {n m} before => ?_
  have split : additions.take m = additions.take n ++ (additions.take m).drop n := by
    have first : (additions.take m).take n = additions.take n := by
      rw [List.take_take, Nat.min_eq_left (Nat.le_of_lt before)]
    rw [← first, List.take_append_drop]
  have later : (a.addAll (additions.take n)).addAll ((additions.take m).drop n) =
      a.addAll (additions.take m) := by
    simp only [addAll, ← List.foldl_append, ← split]
  rw [← later]
  exact addAllExtends ..

theorem passthroughExtra (r : Request) : ofPassthrough r = empty.extra r.passthrough := rfl

end Assembly

structure OnlyAppend (additions : List Addition) : Prop where
  built : ∀ a : Assembly, (a.addAll additions).words = a.words ++ additions.flatMap Addition.words
  states : ∀ a : Assembly, a.states additions =
    (List.range (additions.length + 1)).map fun n => (a.addAll (additions.take n)).words
  grow : ∀ a : Assembly, (a.states additions).Pairwise fun earlier later => earlier <+: later
  sameSuffix : ∀ a b : Assembly, (a.addAll additions).words.drop a.words.length =
    (b.addAll additions).words.drop b.words.length
  passedFlags : ∀ r : Request, (Assembly.ofPassthrough r).addAll additions =
    (Assembly.empty.extra r.passthrough).addAll additions

theorem onlyAppend (additions : List Addition) : OnlyAppend additions where
  built a := a.addAllWords additions
  states a := a.statesByCount additions
  grow a := a.statesGrow additions
  sameSuffix a b := by rw [a.addAllWords, b.addAllWords, List.drop_left, List.drop_left]
  passedFlags r := by rw [Assembly.passthroughExtra]

structure SeesOneSection (s : Settings) : Prop where
  irFlags : (Addition.irFlags s).words = (Addition.irFlags { compile := s.compile }).words
  optimizer : (Addition.optimizer s).words = (Addition.optimizer { optimizer := s.optimizer }).words
  codegen : (Addition.codegen s).words = (Addition.codegen { codegen := s.codegen }).words

structure SplicesFlags (settings : Settings) (r : Request) : Prop where
  compiled : (objectPipe settings r).invocation? .compile = some ⟨settings.toolchain.cc,
    settings.compile.irFlags ++
      ((Assembly.ofPassthrough r).addAll [.input r.input, .standardOutput]).words⟩
  linked : ∀ input output, (linkStep settings r input output).invocation? .link =
    some ⟨settings.toolchain.cc,
      (Assembly.empty.addAll [.extra r.passthrough, .input input, .output output]).words⟩

theorem splicesFlags (settings : Settings) (r : Request) : SplicesFlags settings r where
  compiled := by
    let additions : List Addition :=
      [.irFlags settings, .extra r.passthrough, .input r.input, .standardOutput]
    have given : (objectPipe settings r).invocation? .compile =
        some ⟨settings.toolchain.cc, (Assembly.empty.addAll additions).words⟩ := rfl
    rw [given, Assembly.addAllWords, Assembly.addAllWords]
    rfl
  linked input output := rfl

theorem assemblyOnlyAppends :
    (∀ additions, OnlyAppend additions) ∧
    (∀ r, Assembly.empty.words = [] ∧ (Assembly.ofPassthrough r).words = r.passthrough) ∧
    (∀ settings, SeesOneSection settings) ∧
    ∀ settings r, SplicesFlags settings r :=
  ⟨onlyAppend, fun _ => ⟨rfl, rfl⟩, fun _ => ⟨rfl, rfl, rfl⟩, splicesFlags⟩

end StagedBuild

import StagedBuild.Proofs.Cleanup
import StagedBuild.Proofs.LastName
import StagedBuild.Proofs.Reentry

/-! The object file of a build from source. The code generator writes it, the pipe removes it when it
fails and the linker reads it; all three are given the same name, and it is never that of the source. -/
namespace StagedBuild

theorem lastOutputAppend (words : List String) (value : String) :
    lastOutput? (words ++ ["-o", value]) = some value := by
  induction words with
  | nil => rfl
  | cons first rest ih =>
    cases rest with
    | nil => simp only [List.singleton_append, lastOutput?, if_true]
    | cons second rest =>
      rw [List.cons_append] at ih
      simp only [List.cons_append, lastOutput?, ih]

theorem Reading.lastPairCounts (r : Reading) (words : List String) {word : String} (value : String)
    (ordinary : word ≠ "-o") :
    (r.addWords (words ++ [word, "-o", value])).request.output = some value := by
  have pair (r : Reading) : (r.addWords ["-o", value]).request.output = some value := by
    rw [addOutput]
    rfl
  -- An `-o` at the end of `words` may take `word` as its value, but never the `-o` behind it.
  fun_induction addWords r words with
  | case1 r =>
    rw [List.nil_append, addOrdinary r _ ordinary]
    exact pair _
  | case2 r =>
    rw [List.singleton_append, addOutput]
    exact pair _
  | case3 r taken rest ih =>
    simp only [List.cons_append, addOutput]
    exact ih
  | case4 r first rest notFlag ih =>
    rw [List.cons_append, addOrdinary r _ notFlag]
    exact ih

/- Two ways to find out where a command writes, which agree here: behind its last `-o`, and by pairing
each `-o` with the word after it. -/
structure WritesTo (i : Invocation) (path : String) : Prop where
  last : lastOutput? i.arguments = some path
  paired : (readWords i.arguments).request.output = some path

theorem writesToLast {i : Invocation} (words : List String) {word path : String}
    (arguments : i.arguments = words ++ [word, "-o", path]) (ordinary : word ≠ "-o") :
    WritesTo i path := by
  constructor
  · have split : i.arguments = (words ++ [word]) ++ ["-o", path] := by simp [arguments]
    rw [split]
    exact lastOutputAppend _ path
  · rw [arguments]
    exact Reading.lastPairCounts {} words path ordinary

theorem filetypeOrdinary (filetype : String) : "-filetype=" ++ filetype ≠ "-o" := by
  intro same
  have letters := congrArg String.toList same
  simp at letters

namespace Request

theorem sourceOfShape {r : Request} (shape : r.shape = .compileFromSource) :
    ∃ source, r.input = some source ∧ isSource source = true := by
  unfold Request.shape at shape
  split at shape
  · rename_i source
    exact (Option.any_eq_true _ _).mp source
  · split at shape <;> contradiction

theorem toObjectExact (r : Request) : r.toObject = true ↔ r.output = some r.object := by
  constructor
  · intro asked
    obtain ⟨path, given, isObj⟩ := (Option.any_eq_true _ _).mp asked
    simp [object, given, isObj]
  · intro same
    have isObj := r.objectIsObject
    rw [toObject, same]
    simpa using isObj

def linked (r : Request) : List String := r.passthrough ++ [r.object]

theorem linkedFlags {r : Request} (sorted : r.Sorted) : (r.linked ++ ["-o"]).count "-o" = 1 := by
  have none : "-o" ∉ r.linked := by
    intro member
    rcases List.mem_append.mp member with passed | last
    · exact (sorted.plain _ passed).1 rfl
    · have same : "-o" = r.object := by simpa using last
      exact inputNotFlag (objectIsInput r.objectIsObject) same.symm
  simp [List.count_append, List.count_eq_zero.mpr none]

theorem linkedInputs {r : Request} (sorted : r.Sorted) : r.linked.filter isInput = [r.object] := by
  have none : r.passthrough.filter isInput = [] := by
    rw [List.filter_eq_nil_iff]
    intro word member
    simp [(sorted.plain word member).2]
  simp [linked, List.filter_append, none, objectIsInput r.objectIsObject]

theorem linkedWithoutSource {r : Request} (sorted : r.Sorted) {source : String}
    (isSrc : isSource source = true) : source ∉ r.linked := by
  intro member
  have inside : source ∈ r.linked.filter isInput :=
    List.mem_filter.mpr ⟨member, by simp [isInput, isSrc]⟩
  rw [linkedInputs sorted, List.mem_singleton] at inside
  have notSource := objectNotSource r.objectIsObject
  simp [← inside, isSrc] at notSource

end Request

theorem cleanupSparesSource {steps : List Step} {object source : String}
    (outputs : ∀ tasks output, .pipe tasks output ∈ steps → output = object)
    (isObj : isObject object = true) (isSrc : isSource source = true) {s : Session} {step : Step}
    {l : Location} (member : step ∈ steps) (deleted : s.Deletes step l) (store : Store) :
    store.locate source ≠ .ok l := by
  obtain ⟨tasks, output, failure, rfl, _, reached⟩ := Session.deletesOutput deleted
  rw [outputs tasks output member] at reached
  intro same
  exact endsInApart (Store.locateEndIn (by decide) isObj reached)
    (Store.locateEndIn (by decide) isSrc same)

structure SharesObject (r : Request) (source : String) (compile optimize codegen : Invocation)
    (links : List Invocation) (steps : List Step) : Prop where
  input : r.input = some source ∧ isSource source = true
  order : steps = .pipe [⟨.compile, compile⟩, ⟨.optimize, optimize⟩, ⟨.codegen, codegen⟩] r.object ::
    links.map fun link => .run ⟨.link, link⟩
  compiled : WritesTo compile "-"
  generated : WritesTo codegen r.object
  linkedOnce : links.length ≤ 1
  asked : r.toObject = true ↔ r.output = some r.object
  linkedUnlessAsked : links = [] ↔ r.output = some r.object
  linkWords : ∀ link ∈ links,
    link.arguments = r.passthrough ++ [r.object, "-o", r.output.getD ""] ∧
    link.arguments.dropLast.count "-o" = 1 ∧
    link.arguments.dropLast.filter isInput = [r.object] ∧ source ∉ link.arguments.dropLast
  apart : Path.same r.object source = false
  spared : ∀ (s : Session) (step : Step) (l : Location), step ∈ steps → s.Deletes step l →
    ∀ store : Store, store.locate source ≠ .ok l

def compileCommand (settings : Settings) (r : Request) (source : String) : Invocation :=
  ⟨settings.toolchain.cc, settings.compile.irFlags ++ r.passthrough ++ [source, "-o", "-"]⟩

def codegenCommand (settings : Settings) (r : Request) : Invocation :=
  ⟨settings.toolchain.llc, ["-filetype=" ++ settings.codegen.filetype, "-o", r.object]⟩

def linkCommand (settings : Settings) (r : Request) : Invocation :=
  ⟨settings.toolchain.cc, r.passthrough ++ [r.object, "-o", r.output.getD ""]⟩

def linkCommands (settings : Settings) (r : Request) : List Invocation :=
  if r.toObject then [] else [linkCommand settings r]

theorem compileStepsCommands (settings : Settings) {r : Request} {source : String}
    (input : r.input = some source) :
    compileSteps settings r = .pipe [⟨.compile, compileCommand settings r source⟩,
      ⟨.optimize, settings.toolchain.opt, (Assembly.empty.optimizer settings).words⟩,
      ⟨.codegen, codegenCommand settings r⟩] r.object ::
        (linkCommands settings r).map fun link => .run ⟨.link, link⟩ := by
  have pipe : objectPipe settings r = .pipe [⟨.compile, compileCommand settings r source⟩,
      ⟨.optimize, settings.toolchain.opt, (Assembly.empty.optimizer settings).words⟩,
      ⟨.codegen, codegenCommand settings r⟩] r.object := by
    simp [objectPipe, input, compileCommand, codegenCommand, Assembly.empty, Assembly.irFlags,
      Assembly.extra, Assembly.input, Assembly.standardOutput, Assembly.output, Assembly.codegen]
  have link : linkStep settings r (some r.object) (r.output.getD "") =
      .run ⟨.link, linkCommand settings r⟩ := by
    simp [linkStep, linkCommand, Assembly.ofPassthrough, Assembly.input, Assembly.output]
  unfold compileSteps linkCommands
  rw [pipe, link]
  split <;> rfl

theorem linkCommandsOnly {settings : Settings} {r : Request} {link : Invocation}
    (member : link ∈ linkCommands settings r) : link = linkCommand settings r := by
  unfold linkCommands at member
  split at member
  · simp at member
  · simpa using member

theorem linkCommandsNone (settings : Settings) (r : Request) :
    linkCommands settings r = [] ↔ r.output = some r.object := by
  rw [← r.toObjectExact]
  unfold linkCommands
  split
  · rename_i asked
    simp [asked]
  · rename_i other
    simp [other]

theorem linkCommandFront (settings : Settings) (r : Request) :
    (linkCommand settings r).arguments.dropLast = r.linked ++ ["-o"] := by
  have split : (linkCommand settings r).arguments = (r.linked ++ ["-o"]) ++ [r.output.getD ""] := by
    simp [linkCommand, Request.linked]
  rw [split, List.dropLast_concat]

theorem compileStepsShareObject (settings : Settings) {r : Request} {source : String}
    (sorted : r.Sorted) (input : r.input = some source) (isSrc : isSource source = true) :
    ∃ compile optimize codegen links,
      SharesObject r source compile optimize codegen links (compileSteps settings r) := by
  have order := compileStepsCommands settings input
  have notFlag : source ≠ "-o" := inputNotFlag (by simp [isInput, isSrc])
  refine ⟨compileCommand settings r source, _, codegenCommand settings r, linkCommands settings r,
    ⟨input, isSrc⟩, order, ?_, ?_, ?_, r.toObjectExact, linkCommandsNone settings r, ?_,
    Path.objectNotSame r.objectIsObject isSrc, ?_⟩
  · exact writesToLast (settings.compile.irFlags ++ r.passthrough) rfl notFlag
  · exact writesToLast [] rfl (filetypeOrdinary settings.codegen.filetype)
  · unfold linkCommands
    split <;> simp
  · intro link member
    rw [linkCommandsOnly member, linkCommandFront]
    refine ⟨rfl, Request.linkedFlags sorted, ?_, ?_⟩
    · rw [List.filter_append, Request.linkedInputs sorted]
      rfl
    · intro inside
      rcases List.mem_append.mp inside with front | flag
      · exact Request.linkedWithoutSource sorted isSrc front
      · exact notFlag (by simpa using flag)
  · intro s step l member deleted
    refine cleanupSparesSource ?_ r.objectIsObject isSrc member deleted
    intro tasks output pipe
    rw [order] at pipe
    rcases List.mem_cons.mp pipe with first | later
    · exact (Step.pipe.inj first).2
    · simp at later

theorem objectPathShared (settings : Settings) (words : List String)
    (shape : (makePlan settings words).plan.shape = .compileFromSource) :
    ∃ source compile optimize codegen links,
      SharesObject (readWords words).request source compile optimize codegen links
        (makePlan settings words).plan.steps := by
  have request : (readWords words).request.shape = .compileFromSource := shape
  obtain ⟨source, input, isSrc⟩ := Request.sourceOfShape request
  have steps : (makePlan settings words).plan.steps =
      compileSteps settings (readWords words).request := by
    simp only [makePlan, stepsFor, request]
  rw [steps]
  exact ⟨source, compileStepsShareObject settings (readSorted words) input isSrc⟩

theorem objectPathSharedBesideFlags :
    let settings : Settings := { compile := ⟨["-emit-llvm", "-o"]⟩ }
    let words := ["-Wall", "-o", "-o", "main.c"]
    (makePlan settings words).plan.shape = .compileFromSource ∧
      (readWords words).request.object = "-o.o" ∧
      ∃ source compile optimize codegen links,
        SharesObject (readWords words).request source compile optimize codegen links
          (makePlan settings words).plan.steps :=
  ⟨by decide, by decide, objectPathShared _ _ (by decide)⟩

end StagedBuild

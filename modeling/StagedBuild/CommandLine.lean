import StagedBuild.Event.Filter
import StagedBuild.Session.Build
import StagedBuild.World.SettingsFile

/-! The program: it finds the settings, builds what its words ask for, and says what went wrong. -/
namespace StagedBuild

def Session.settingsFor (s : Session) (e : Environment) : Except SettingsError Settings :=
  s.store.settingsFor e s.machine.home

namespace CommandLine

def identification : String := "our clang wrapper\n"

def chooseSettings (loaded : Except SettingsError Settings) (words : List String) :
    Except Failure (Settings × List Event) :=
  match loaded with
  | .ok settings => .ok (settings, [])
  | .error error =>
    -- A request that is only passed on does not need usable settings.
    if (readWords words).request.shape = .passThrough then .ok ({}, [.settingsIgnored error])
    else .error (.settings error)

def exitByte (f : Failure) : UInt8 :=
  if 0 ≤ f.exitCode ∧ f.exitCode ≤ 255 then UInt8.ofNat f.exitCode.toNat else 1

def complaint (f : Failure) : String := "precc: error: " ++ f.message

structure Finish where
  result : Except Failure Unit
  session : Session

namespace Finish

def code (f : Finish) : UInt8 :=
  match f.result with
  | .ok _ => 0
  | .error failure => exitByte failure

def report (f : Finish) (filter : EventFilter) : List String :=
  (filter.passed f.session.events).map Event.terminalLine ++
    match f.result with
    | .ok _ => []
    | .error failure => [complaint failure]

end Finish

def build (s : Session) (e : Environment) (words : List String) : Finish :=
  match chooseSettings (s.settingsFor e) words with
  | .error failure => ⟨.error failure, s⟩
  | .ok (settings, events) =>
    let (result, s) := (s.log events).build settings words
    ⟨result, s⟩

def run (s : Session) (e : Environment) (words : List String) : Finish :=
  if words.isEmpty then ⟨.ok (), { s with output := s.output ++ identification.toUTF8 }⟩
  else build s e words

def filterFor (e : Environment) : EventFilter := .ofOption (e.get? "PRECC_LOG")

def searchPathFor (e : Environment) : List String := pieces ':' ((e.get? "PATH").getD "")

end CommandLine

end StagedBuild

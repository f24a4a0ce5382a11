/-! Bytes shown as text. Where they are not well-formed, each longest start of a character that goes no
further, and each byte that starts none, is shown as one replacement character. -/
namespace StagedBuild.Lossy

def replacement : Char := '\ufffd'

structure Begun where
  bits : Nat
  missing : Nat
  low : UInt8 := 0x80
  high : UInt8 := 0xbf

inductive First where
  | whole (c : Char)
  | begun (b : Begun)
  | none

/-- Overlong forms, surrogates and values past the last character are kept out by the range of the
second byte. -/
def first (b : UInt8) : First :=
  let n := b.toNat
  if n < 0x80 then .whole (Char.ofNat n)
  else if n < 0xc2 then .none
  else if n < 0xe0 then .begun ⟨n - 0xc0, 1, 0x80, 0xbf⟩
  else if n = 0xe0 then .begun ⟨0, 2, 0xa0, 0xbf⟩
  else if n = 0xed then .begun ⟨0xd, 2, 0x80, 0x9f⟩
  else if n < 0xf0 then .begun ⟨n - 0xe0, 2, 0x80, 0xbf⟩
  else if n = 0xf0 then .begun ⟨0, 3, 0x90, 0xbf⟩
  else if n < 0xf4 then .begun ⟨n - 0xf0, 3, 0x80, 0xbf⟩
  else if n = 0xf4 then .begun ⟨4, 3, 0x80, 0x8f⟩
  else .none

def Begun.accepts (p : Begun) (b : UInt8) : Bool := p.low ≤ b && b ≤ p.high

def Begun.push (p : Begun) (b : UInt8) : Nat := p.bits * 64 + (b.toNat - 0x80)

structure Progress where
  shown : List Char := []
  begun : Option Begun := .none

namespace Progress

def start (p : Progress) (b : UInt8) : Progress :=
  match first b with
  | .whole c => ⟨c :: p.shown, .none⟩
  | .begun b => ⟨p.shown, some b⟩
  | .none => ⟨replacement :: p.shown, .none⟩

def close (p : Progress) : Progress :=
  match p.begun with
  | some _ => ⟨replacement :: p.shown, .none⟩
  | none => p

def step (p : Progress) (b : UInt8) : Progress :=
  match p.begun with
  | none => p.start b
  | some begun =>
    if begun.accepts b then
      if begun.missing ≤ 1 then ⟨Char.ofNat (begun.push b) :: p.shown, .none⟩
      else ⟨p.shown, some { bits := begun.push b, missing := begun.missing - 1 }⟩
    else p.close.start b

end Progress

def text (bytes : ByteArray) : String :=
  match String.fromUTF8? bytes with
  | some text => text
  | none => String.ofList (bytes.toList.foldl Progress.step {}).close.shown.reverse

end StagedBuild.Lossy

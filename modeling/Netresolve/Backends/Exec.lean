/-
The output of a subprocess: `received_line` and `dispatch_output` of `backends/exec.c`.

What the subprocess writes is read into a buffer of 1024 bytes.  After each read the lines in it
are taken off one by one: a line end becomes a zero byte, the string at the start of the buffer is
the line, and the bytes behind it are moved to the front.
-/
import Netresolve.Core.Parse
import Netresolve.Core.Types

namespace Netresolve.Exec

open CString ParsePath

def addrprefix : Text := "address ".toList
def pathprefix : Text := "path ".toList

/-- `received_line`: whether the line ends the response, and the calls it leads to. -/
def receivedLine (lits : Literals) (line : Text) : Bool × List Call :=
  if line = [] then (true, [])
  else if addrprefix <+: line then
    match parseAddress lits (some (line.drop addrprefix.length)) with
    | some a =>
        (false, [.addPath { family := a.family, address := a.address, ifindex := a.ifindex }])
    | none => (false, [])
  else if pathprefix <+: line then
    match parsePath lits (line.drop pathprefix.length) with
    | some p =>
        (false, [.addPath { family := p.family, address := p.address, ifindex := p.ifindex
                            socktype := p.socktype, protocol := p.protocol, port := p.port }])
    | none => (false, [])
  else (false, [])

/-- `priv->outbuf`: the 1024 bytes, of which the first `start` were read. -/
structure Outbuf where
  memory : Text
  start : Nat
  deriving DecidableEq, Repr

def capacity : Nat := 1024

/-- The bytes between `buffer` and `start`. -/
def Outbuf.kept (b : Outbuf) : Text := b.memory.take b.start

/-- What `read` does to the buffer. -/
def Outbuf.read (b : Outbuf) (chunk : Text) : Outbuf :=
  ⟨b.memory.take b.start ++ chunk ++ b.memory.drop (b.start + chunk.length),
    b.start + chunk.length⟩

/-- `memmove` to the front of memory. -/
def moveFront (memory : Text) (src size : Nat) : Text :=
  (memory.drop src).take size ++ memory.drop size

/--
The loop of `dispatch_output`: the lines `received_line` is called with, whether the last of them
ended the response, and the buffer.  Each turn costs one unit of fuel.
-/
def lineLoop : Nat → Outbuf → Option (List Text × Bool × Outbuf)
  | 0, _ => none
  | fuel + 1, b =>
      match b.kept.findIdx? (· = '\n') with
      | none => some ([], false, b)
      | some nl =>
          let memory := b.memory.set nl nul
          let line := cstring memory
          if line = [] then some ([line], true, ⟨memory, b.start⟩)
          else
            (lineLoop fuel ⟨moveFront memory (nl + 1) (capacity - b.start), b.start - (nl + 1)⟩).map
              fun r => (line :: r.1, r.2)

/-- `dispatch_output`, for a read that delivers a chunk. -/
def dispatchOutput (b : Outbuf) (chunk : Text) : Option (List Text × Bool × Outbuf) :=
  lineLoop ((b.read chunk).start + 1) (b.read chunk)

end Netresolve.Exec

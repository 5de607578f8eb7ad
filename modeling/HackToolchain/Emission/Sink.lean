import HackToolchain.Assembly.Line

/-! # Sinks

A sink keeps the bytes that are written to it, up to its capacity if it has one. A write that does
not fit keeps what does, and fails.
-/

namespace HackToolchain

/-- Why a sink refuses. -/
inductive SinkFailure where
  /-- There is no room for all of a write. -/
  | full
  /-- What was written cannot be made permanent. -/
  | flush
deriving DecidableEq, Repr

/-- The message for a failure. -/
def SinkFailure.message : SinkFailure → String
  | full => "disk full"
  | flush => "flush failed"

/-- A place to write to. -/
structure Sink where
  contents : ByteArray := ByteArray.empty
  /-- The number of bytes that the sink can hold in all. -/
  capacity : Option Nat := none
  flushFails : Bool := false

namespace Sink

/-- Writes a text, as far as it fits. -/
def write (text : String) : Sink → Sink × Option SinkFailure
  | ⟨contents, capacity, flushFails⟩ =>
    let bytes := text.toUTF8
    match capacity with
    | none => (⟨contents ++ bytes, capacity, flushFails⟩, none)
    | some limit =>
      let room := limit - contents.size
      if bytes.size ≤ room then (⟨contents ++ bytes, capacity, flushFails⟩, none)
      else (⟨contents ++ bytes.extract 0 room, capacity, flushFails⟩, some .full)

/-- Writes lines one after another, up to the first that does not fit. -/
def writeLines : List AssemblyLine → Sink → Sink × Option SinkFailure
  | [], sink => (sink, none)
  | line :: rest, sink =>
    match sink.write line.renderLine with
    | (sink, none) => writeLines rest sink
    | (sink, some failure) => (sink, some failure)

/-- Makes permanent what was written. -/
def flush (sink : Sink) : Option SinkFailure :=
  if sink.flushFails then some .flush else none

/-- The text in a sink, if its bytes are one. -/
def text? (sink : Sink) : Option String :=
  String.fromUTF8? sink.contents

end Sink

end HackToolchain

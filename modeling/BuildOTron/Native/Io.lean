import BuildOTron.Lib.Conduit

/-! `io.rs`: the buffer that `forward_data` reads into, and the sink that collects a
command's output. A forwarded stream is a `Conduit`. -/
namespace BuildOTron.Native

def bufferSize : Nat := 1024 * 1024

/-- One read of `forward_data`. -/
def forwardRead (source : Conduit UInt8) (n : Nat) : Option (Conduit UInt8) :=
  source.read bufferSize n

structure VecSink where
  body : List UInt8
  deriving DecidableEq, Repr

namespace VecSink

def new : VecSink := ⟨[]⟩

/-- `poll_write`, which takes all it is given. -/
def pollWrite (sink : VecSink) (buf : List UInt8) : VecSink := ⟨sink.body ++ buf⟩

def takeBuf (sink : VecSink) : List UInt8 × VecSink := (sink.body, new)

end VecSink
end BuildOTron.Native

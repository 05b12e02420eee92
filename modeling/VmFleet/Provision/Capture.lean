/-
The output of a running tool. Two pipes are read side by side, and what is read
arrives as messages in one order: pieces of either pipe, and one message when a
pipe has ended. The output is complete once both have ended.
-/

namespace VmFleet

inductive Pipe where
  | stdout | stderr
  deriving DecidableEq, Repr

inductive PipeMessage where
  | data (pipe : Pipe) (bytes : List UInt8)
  /-- One of the pipes has ended. -/
  | closed
  deriving DecidableEq, Repr

/-- What one read of a pipe comes back with. -/
inductive PipeRead where
  /-- Some bytes, or none once the pipe has ended. -/
  | bytes (read : List UInt8)
  | interrupted
  | failed
  deriving DecidableEq, Repr

/-- The messages of a reader whose reads of the pipe come back so. It goes on when it is interrupted,
and takes a pipe that cannot be read for ended. -/
def Pipe.drain (pipe : Pipe) : List PipeRead → List PipeMessage
  | [] => []
  | .bytes [] :: _ | .failed :: _ => [.closed]
  | .bytes (b :: more) :: rest => .data pipe (b :: more) :: pipe.drain rest
  | .interrupted :: rest => pipe.drain rest

/-- What has been read so far. -/
structure Captured where
  stdout : List UInt8 := []
  stderr : List UInt8 := []
  /-- How many pipes have ended. -/
  closed : Nat := 0
  deriving DecidableEq, Repr

namespace Captured

def take (c : Captured) : PipeMessage → Captured
  | .data .stdout bytes => { c with stdout := c.stdout ++ bytes }
  | .data .stderr bytes => { c with stderr := c.stderr ++ bytes }
  | .closed => { c with closed := c.closed + 1 }

/-- Reads the messages that arrive in time until both pipes have ended; says whether they have.
If no message is left before that, time is up, unless nobody is left to send one. -/
def collect (sendersGone : Bool) : List PipeMessage → Captured → Bool × Captured
  | arrived, c =>
    if 2 ≤ c.closed then (true, c)
    else match arrived with
      | [] => (sendersGone, c)
      | m :: rest => collect sendersGone rest (c.take m)

end Captured

end VmFleet

import Dusty.Act
import Dusty.Bytes

/-! # The connection's writer

What was written to a connection, piece by piece, each piece labelled with the part of the
exchange it belongs to.  The labels are for statements only: no modelled function reads them.
Transport failures come from a schedule: the next operation may fail after accepting any
number of bytes, and then it leaves the real cause behind for `getWriteError`.  The empty
schedule is a transport that never fails. -/

namespace Dusty

/-- What a piece of output is: an interim response, the header block of a response, the bytes
of its body, or what a WebSocket sends after an upgrade. -/
inductive Part where
  | interim | head | body | frame
deriving DecidableEq, Repr

structure Conn where
  log : List (Part × Bytes) := []
  flushed : ℕ := 0
  faults : List (Option (ℕ × Error)) := []
  writeErr : Option Error := none
deriving DecidableEq, Repr

namespace Conn

/-- Everything written so far. -/
def out (c : Conn) : Bytes := (c.log.map Prod.snd).flatten

/-- The connection with one more piece accepted. -/
def wrote (c : Conn) (part : Part) (bytes : Bytes) : Conn :=
  { c with log := c.log ++ [(part, bytes)] }

/-- The connection with everything handed over. -/
def flushedAll (c : Conn) : Conn := { c with flushed := c.out.length }

/-- `writer.writeAll`. -/
def writeAll (part : Part) (bytes : Bytes) : Act Conn Unit := fun c =>
  match c.faults with
  | [] => .ok () (c.wrote part bytes)
  | none :: faults => .ok () { c.wrote part bytes with faults := faults }
  | some (accepted, cause) :: faults =>
      .error (.err .writeFailed)
        { c.wrote part (bytes.take accepted) with faults := faults, writeErr := some cause }

/-- `writer.flush`. -/
def flush : Act Conn Unit := fun c =>
  match c.faults with
  | [] => .ok () c.flushedAll
  | none :: faults => .ok () { c.flushedAll with faults := faults }
  | some (_, cause) :: faults =>
      .error (.err .writeFailed) { c with faults := faults, writeErr := some cause }

/-- `Connection.getWriteError`. -/
def getWriteError (c : Conn) : Option Error := c.writeErr

/-! ### A transport that never fails -/

@[simp] theorem out_wrote (c : Conn) (part : Part) (bytes : Bytes) :
    (c.wrote part bytes).out = c.out ++ bytes := by
  simp [wrote, out]

@[simp] theorem faults_wrote (c : Conn) (part : Part) (bytes : Bytes) :
    (c.wrote part bytes).faults = c.faults := rfl

@[simp] theorem out_flushedAll (c : Conn) : c.flushedAll.out = c.out := rfl

@[simp] theorem faults_flushedAll (c : Conn) : c.flushedAll.faults = c.faults := rfl

theorem writeAll_run {c : Conn} (h : c.faults = []) (part : Part) (bytes : Bytes) :
    writeAll part bytes c = .ok () (c.wrote part bytes) := by
  simp [writeAll, h]

theorem flush_run {c : Conn} (h : c.faults = []) : flush c = .ok () c.flushedAll := by
  simp [flush, h]

end Conn
end Dusty

import ForeignBridge.Bridge.Error
import ForeignBridge.Store.Call

/-! # Crossings

The foreign runtime signals failure by a pending fault and not by its results. So each crossing is followed by a check:
a pending fault becomes an error and is forgotten, and only without one is the result handed on. The check describes
the exception, so it comes to an end only if that description does. -/

namespace ForeignBridge

namespace Store

/-- Turns a pending fault into an error and forgets it. The exception is described first, as it may not outlive the
fault. -/
def takeFault (s : Store) : Except BridgeError Unit × Store :=
  let (pending, s) := s.pendingFault
  match pending with
  | none => (.ok (), s)
  | some exception =>
    let (text, s) := s.describe exception
    let description := text.getD s!"unprintable foreign exception {exception.render}"
    (.error (.foreignFault description), s.clearFault)

/-- Runs a crossing and hands on its result unless a fault is pending. -/
def crossing {α : Type} (f : Store → α × Store) (s : Store) : Except BridgeError α × Store :=
  let (result, s) := f s
  match s.takeFault with
  | (.ok (), s) => (.ok result, s)
  | (.error e, s) => (.error e, s)

end Store

end ForeignBridge

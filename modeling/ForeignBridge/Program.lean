import ForeignBridge.Datum
import ForeignBridge.Version

/-! # Programs of foreign functions

A foreign function is a program over the requests it may make to the foreign runtime. A program is a tree: it ends
with a handle or with an error message, or it makes a request and goes on by the reply. So a statement about every
program is one about every foreign function that comes to an end and keeps nothing to itself: from one call to the next,
a function can remember only what it leaves in the foreign runtime. Functions with a state of their own, or that hold
cells between their calls other than those they captured, are left out.

A program holds the cells that were captured when the function was defined, the cells inside the data it has
inspected and the cells it has made. It names them by their position, in that order, and so can pass on no cell that it
does not hold. With cells of its own a program can do what the host does: convert values, hold results and call on. -/

namespace ForeignBridge

/-- A request to the foreign runtime. References in data are positions among the cells that the program holds. -/
inductive Request where
  /-- A new slot for data. -/
  | construct (data : Datum Nat)
  /-- A new object of a type, with a new slot for each field. -/
  | create (type : Handle) (fields : List (String × Datum Nat))
  /-- The data in a slot. -/
  | inspect (h : Handle)
  /-- The readable form of a slot. -/
  | describe (h : Handle)
  | rootCount (h : Handle)
  | isLive (h : Handle)
  | isCallable (h : Handle)
  | typeOf (h : Handle)
  | submodule (parent : Handle) (name : String)
  | member (parent : Handle) (name : String)
  | family (name : String)
  | version
  | readField (h : Handle) (name : String)
  | call (function : Handle) (args : List Handle)
  | applyFamily (family : Handle) (params : List Handle)
  | provideFamily (name : String)
  | defineModule (path : String)
  | defineGlobal (path : String) (name : String) (data : Datum Nat)
  | root (h : Handle)
  | unroot (h : Handle)
  | raise (data : Datum Nat)
  | pendingFault
  | clearFault
  | recordCalls
  | callLog
  /-- A collection. -/
  | collect
  /-- A new cell that is bound to a handle; its position is the next one. -/
  | hold (h : Handle)
  /-- A new cell that is not bound yet; its position is the next one. -/
  | newCell
  /-- Binds a cell; the reply is what it is bound to already. -/
  | bind (cell : Nat) (h : Handle)
  | read (cell : Nat)
  /-- Gives up a cell; those after it move up by one position. -/
  | release (cell : Nat)
deriving Repr

/-- What comes back for a request. -/
abbrev Request.Reply : Request → Type
  | .construct _ => Handle
  | .create _ _ => Handle
  | .inspect _ => Datum Nat
  | .describe _ => Option String
  | .rootCount _ => Nat
  | .isLive _ => Bool
  | .isCallable _ => Bool
  | .typeOf _ => Handle
  | .submodule _ _ => Option Handle
  | .member _ _ => Option Handle
  | .family _ => Option Handle
  | .version => Version
  | .readField _ _ => Handle
  | .call _ _ => Handle
  | .applyFamily _ _ => Handle
  | .provideFamily _ => Handle
  | .defineModule _ => Handle
  | .defineGlobal _ _ _ => Handle
  | .root _ => Unit
  | .unroot _ => Unit
  | .raise _ => Unit
  | .pendingFault => Option Handle
  | .clearFault => Unit
  | .recordCalls => Unit
  | .callLog => List String
  | .collect => Nat
  | .hold _ => Unit
  | .newCell => Unit
  | .bind _ _ => Option Handle
  | .read _ => Handle
  | .release _ => Unit

/-- The behaviour of a foreign function once its arguments are known. -/
inductive Program where
  /-- Returns a handle. -/
  | done (result : Handle)
  /-- Raises a fault with this message. -/
  | fail (message : String)
  /-- Makes a request and goes on by the reply. -/
  | ask (request : Request) (next : request.Reply → Program)
  /-- Defines a function that captures the cells at these positions, and goes on with its handle. -/
  | define (path : String) (name : String) (captured : List Nat) (body : List Handle → Program)
      (next : Handle → Program)

end ForeignBridge

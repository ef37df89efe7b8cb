/-
# Buffered writing

Pieces of a file are gathered in a buffer and handed on when the next piece would not fit.  A piece
that would fill the buffer by itself is handed on at once.  What is left at the end is handed on
too, but nobody asks any more whether that succeeds.
-/

import Untested.Host.Basic

namespace Untested.Host

variable {m : Type → Type} [Monad m]

/-- The number of bytes that a buffer holds. -/
def bufferCapacity : Nat := 8192

/-- Writes pieces to a file by way of a buffer, which holds the given pieces in reverse, `size`
bytes in all.  A refusal is noticed only where further pieces follow. -/
def writePieces (append : List UInt8 → m (Except AccessError Unit)) (held : List (List UInt8))
    (size : Nat) : List (List UInt8) → m (Except AccessError Unit)
  | [] => do
    let _ ← append held.reverse.flatten
    return .ok ()
  | piece :: pieces => do
    if size + piece.length ≤ bufferCapacity ∧ piece.length < bufferCapacity then
      writePieces append (piece :: held) (size + piece.length) pieces
    else
      match ← append held.reverse.flatten with
      | .error cause => return .error cause
      | .ok () =>
        if piece.length < bufferCapacity then writePieces append [piece] piece.length pieces
        else
          match ← append piece with
          | .error cause => return .error cause
          | .ok () => writePieces append [] 0 pieces

/-- Replaces what a file contains by the given pieces, by way of a buffer.  The outer refusal is
that of opening the file, the inner one that of writing to it. -/
def writeBuffered (host : Host m) (path : String) (pieces : List (List UInt8)) :
    m (Except AccessError (Except AccessError Unit)) := do
  match ← host.create path with
  | .error cause => return .error cause
  | .ok () => return .ok (← writePieces (host.append path) [] 0 pieces)

end Untested.Host

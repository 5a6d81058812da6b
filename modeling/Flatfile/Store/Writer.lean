import Flatfile.Store.Basic

/-!
# Buffered writing

A writer keeps bytes back until there are enough of them, or until it is flushed. Bytes that the
target refuses stay with the writer.
-/

namespace Flatfile

structure Writer where
  target : Target
  pending : List UInt8 := []
  deriving DecidableEq

namespace Writer

def capacity : Nat := 8192

def flush (w : Writer) (store : Store) : Except IoFault Unit × Writer × Store :=
  if w.pending.isEmpty then (.ok (), w, store)
  else
    match store.deliver w.target w.pending with
    | .ok (target, store) => (.ok (), { target }, store)
    | .error fault => (.error fault, w, store)

/-- Add bytes behind the pending ones, or hand them on if they fill the buffer by themselves. -/
def add (w : Writer) (store : Store) (bytes : List UInt8) : Except IoFault Unit × Writer × Store :=
  if bytes.length < capacity then (.ok (), { w with pending := w.pending ++ bytes }, store)
  else
    match store.deliver w.target bytes with
    | .ok (target, store) => (.ok (), { w with target }, store)
    | .error fault => (.error fault, w, store)

def write (w : Writer) (store : Store) (bytes : List UInt8) :
    Except IoFault Unit × Writer × Store :=
  if capacity - w.pending.length < bytes.length then
    match w.flush store with
    | (.ok (), w, store) => w.add store bytes
    | failed => failed
  else w.add store bytes

end Writer
end Flatfile

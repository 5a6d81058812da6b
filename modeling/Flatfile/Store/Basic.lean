import Flatfile.Store.Files

/-!
# Where output goes

Output goes to a file, from an offset on, or to a sink, which keeps all that it receives in order.
A sink with a fault refuses everything.
-/

namespace Flatfile

structure Sink where
  received : List UInt8 := []
  fault : Option IoFault := none
  deriving DecidableEq

structure Store where
  files : Files := {}
  sinks : List Sink := []

inductive Target where
  | file (place : Place) (offset : Nat)
  | sink (number : Nat)
  deriving DecidableEq, Repr

namespace Store

def addSink (store : Store) (sink : Sink) : Target × Store :=
  (.sink store.sinks.length, { store with sinks := store.sinks ++ [sink] })

/-- Hand bytes to a target, all of them or none. -/
def deliver (store : Store) (target : Target) (bytes : List UInt8) :
    Except IoFault (Target × Store) :=
  match target with
  | .file place offset =>
    .ok (.file place (offset + bytes.length),
      { store with files := store.files.writeAt place offset bytes })
  | .sink number =>
    match store.sinks[number]? with
    | some sink =>
      match sink.fault with
      | some fault => .error fault
      | none =>
        let sink := { sink with received := sink.received ++ bytes }
        .ok (target, { store with sinks := store.sinks.set number sink })
    | none => .error .notFound

end Store
end Flatfile

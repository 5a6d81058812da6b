import Flatfile.Error.Format

/-!
# Sources of bytes

A source gives its bytes in chunks. A chunk that has been asked for is kept until it is used up, so
that nothing is asked of the source while bytes are at hand. Asking can be interrupted, once each
time, and in place of the end of the data there may be a fault that stays.
-/

namespace Flatfile

/-- What a source does when it is asked for bytes. -/
inductive Delivery where
  | chunk (first : UInt8) (rest : List UInt8)
  | interruption
  deriving DecidableEq, Repr

structure Source where
  ready : List UInt8 := []
  deliveries : List Delivery := []
  fault : Option IoFault := none
  deriving DecidableEq

namespace Delivery

def bytes : Delivery → List UInt8
  | chunk first rest => first :: rest
  | interruption => []

def ofBytes : List UInt8 → List Delivery
  | [] => []
  | first :: rest => [chunk first rest]

def weight : Delivery → Nat
  | chunk _ rest => rest.length + 1
  | interruption => 1

end Delivery

namespace Source

def ofBytes (bytes : List UInt8) : Source :=
  { deliveries := Delivery.ofBytes bytes }

def rest (s : Source) : List UInt8 :=
  s.ready ++ s.deliveries.flatMap Delivery.bytes

def size (s : Source) : Nat :=
  s.ready.length + s.deliveries.foldr (fun d n => d.weight + n) 0

def next (s : Source) : Except IoFault (Option UInt8) × Source :=
  match s.ready, s.deliveries with
  | b :: rest, _ => (.ok (some b), { s with ready := rest })
  | [], .chunk b rest :: more => (.ok (some b), { s with ready := rest, deliveries := more })
  | [], .interruption :: more => (.error .interrupted, { s with deliveries := more })
  | [], [] =>
    match s.fault with
    | some fault => (.error fault, s)
    | none => (.ok none, s)

def hasMore (s : Source) : Except IoFault Bool × Source :=
  match s.ready, s.deliveries with
  | _ :: _, _ => (.ok true, s)
  | [], .chunk b rest :: more => (.ok true, { s with ready := b :: rest, deliveries := more })
  | [], .interruption :: more => (.error .interrupted, { s with deliveries := more })
  | [], [] =>
    match s.fault with
    | some fault => (.error fault, s)
    | none => (.ok false, s)

theorem next_size_le (s : Source) : s.next.2.size ≤ s.size := by
  obtain ⟨ready, deliveries, fault⟩ := s
  cases ready with
  | cons b rest => simp [next, size]
  | nil =>
    cases deliveries with
    | cons d more =>
      cases d with
      | chunk first rest =>
        simp only [next, size, Delivery.weight, List.length_nil, List.foldr_cons]
        omega
      | interruption => simp [next, size, Delivery.weight]
    | nil => cases fault <;> simp [next]

theorem next_size_lt {s s' : Source} {b : UInt8} (h : s.next = (.ok (some b), s')) :
    s'.size < s.size := by
  obtain ⟨ready, deliveries, fault⟩ := s
  cases ready with
  | cons b rest =>
    simp only [next, Prod.mk.injEq] at h
    simp [size, ← h.2]
  | nil =>
    cases deliveries with
    | cons d more =>
      cases d <;> simp only [next, Prod.mk.injEq, reduceCtorEq, false_and] at h
      simp [size, Delivery.weight, ← h.2]
    | nil => cases fault <;> simp [next] at h

/-- Let the interruptions pass that come before the next byte. -/
def calm (s : Source) : Source :=
  if s.ready.isEmpty then { s with deliveries := s.deliveries.dropWhile (· == .interruption) }
  else s

def take : Nat → Source → Except IoFault (List UInt8) × Source
  | 0, s => (.ok [], s)
  | n + 1, s =>
    match s.calm.next with
    | (.ok (some b), s) =>
      let (bytes, s) := take n s
      (bytes.map (b :: ·), s)
    | (.ok none, s) => (.ok [], s)
    | (.error fault, s) => (.error fault, s)

/-- Take `n` bytes, or as many as there are. An interruption is a fault. -/
def takeStrictly : Nat → Source → Except IoFault (List UInt8) × Source
  | 0, s => (.ok [], s)
  | n + 1, s =>
    match s.next with
    | (.ok (some b), s) =>
      let (bytes, s) := takeStrictly n s
      (bytes.map (b :: ·), s)
    | (.ok none, s) => (.ok [], s)
    | (.error fault, s) => (.error fault, s)

theorem takeStrictly_size_le (n : Nat) (s : Source) : (takeStrictly n s).2.size ≤ s.size := by
  induction n generalizing s with
  | zero => simp [takeStrictly]
  | succ n ih =>
    have h := next_size_le s
    simp only [takeStrictly]
    split <;> rename_i heq <;> simp only [heq] at h
    · exact Nat.le_trans (ih _) h
    · exact h
    · exact h

end Source
end Flatfile

import Flatfile.Error.Convert
import Flatfile.Layout.Literal

/-!
# Arguments

The literals that a layout hands to a data type or converter, looked up by their place and checked
for their kind. A place beyond the last argument has none.
-/

namespace Flatfile

structure Args where
  /-- The name under which the layout asks, which messages begin with. -/
  name : String
  items : List Literal

namespace Args

def refuse (args : Args) (reason : String) : Except ConvertError α :=
  .error (.invalid (args.name ++ ": " ++ reason))

def atMost (args : Args) (n : Nat) : Except ConvertError Unit :=
  if n < args.items.length then
    args.refuse s!"takes at most {n} argument(s), got {args.items.length}"
  else .ok ()

def between (args : Args) (min max : Nat) : Except ConvertError Unit :=
  if args.items.length < min then
    args.refuse s!"takes at least {min} argument(s), got {args.items.length}"
  else args.atMost max

def number? (args : Args) (i : Nat) : Except ConvertError (Option Nat) :=
  match args.items[i]? with
  | none => .ok none
  | some (.number d) =>
    match d.toWord? with
    | some n => .ok (some n)
    | none => args.refuse s!"argument {i + 1} must be a non-negative integer"
  | some other => args.refuse s!"argument {i + 1} must be a number, found {other.kind.name}"

def size (args : Args) (i : Nat) : Except ConvertError Nat := do
  match ← args.number? i with
  | none => args.refuse "missing size argument"
  | some n => if 0 < n then .ok n else args.refuse "size must be positive"

def string? (args : Args) (i : Nat) : Except ConvertError (Option String) :=
  match args.items[i]? with
  | none => .ok none
  | some (.string s) => .ok (some s)
  | some other => args.refuse s!"argument {i + 1} must be a string, found {other.kind.name}"

def char? (args : Args) (i : Nat) : Except ConvertError (Option Char) := do
  match ← args.string? i with
  | none => .ok none
  | some s =>
    match s.toList with
    | [c] => .ok (some c)
    | _ => args.refuse s!"argument {i + 1} must be a single character"

def nibble? (args : Args) (i : Nat) : Except ConvertError (Option UInt8) :=
  match args.items[i]? with
  | none => .ok none
  | some literal =>
    match literal.word? with
    | some n =>
      if n ≤ 0xF then .ok (some (UInt8.ofNat n))
      else args.refuse s!"argument {i + 1} must be a nibble (0x0..0xF), found {literal.shown}"
    | none => args.refuse s!"argument {i + 1} must be a nibble (0x0..0xF), found {literal.shown}"

def scale (args : Args) (i : Nat) : Except ConvertError Nat := do
  match ← args.number? i with
  | none => .ok 0
  | some n =>
    if n ≤ 18 then .ok n else .error (.invalid s!"scale {n} exceeds 18 digits")

end Args
end Flatfile

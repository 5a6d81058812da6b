import Flatfile.Error.Format

/-!
# Runtime defaults

What holds for layouts that leave a setting out, together with the settings that no layout can
make: which record separators are allowed, whether output is flushed after every record, and how
sparingly columns are quoted.
-/

namespace Flatfile

structure Defaults where
  positiveZone : Option UInt8 := none
  negativeZone : Option UInt8 := none
  positivePack : Option UInt8 := none
  negativePack : Option UInt8 := none
  allowedSeparators : List String := ["\r", "\n", "\r\n"]
  flushPerRecord : Bool := true
  maxRecordLength : Nat := 65536
  titleTypeName : String := "Title"
  requiredPoint : Bool := false
  fixedSign : Bool := false
  requiredPlus : Bool := false
  minimalQuoting : Bool := false
  deriving DecidableEq

namespace Defaults

def allows (d : Defaults) (separator : String) : Bool :=
  d.allowedSeparators.contains separator

def nibbles (d : Defaults) : List (String × Option UInt8) := [
  ("positive-zone-sign-nibble", d.positiveZone), ("negative-zone-sign-nibble", d.negativeZone),
  ("positive-pack-sign-nibble", d.positivePack), ("negative-pack-sign-nibble", d.negativePack)]

/-- The sign half-bytes have four bits, and records may have a length. -/
def check (d : Defaults) : Except ConfigFault Unit :=
  match d.nibbles.findSome? fun (key, n) => (n.filter (0xF < ·)).map (key, ·) with
  | some (key, n) => .error (.notNibble key n.toNat)
  | none => if d.maxRecordLength = 0 then .error .zeroMaxLength else .ok ()

end Defaults
end Flatfile

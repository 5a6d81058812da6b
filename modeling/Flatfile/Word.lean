/-!
# Machine words

Sizes and places in a record are words of 64 bits, and the numbers of records words of 32. A result
that its word has no room for wraps around, without an error.
-/

namespace Flatfile

def Word64.wrap (n : Nat) : Nat :=
  n % 0x10000000000000000

def Word64.sub (n m : Nat) : Nat :=
  wrap (n + (0x10000000000000000 - m))

def Word32.wrap (n : Nat) : Nat :=
  n % 0x100000000

end Flatfile

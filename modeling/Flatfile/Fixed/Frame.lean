import Flatfile.Stream.Source

/-!
# Cutting bytes into records

Records of fixed length follow one another in the data, each with the record separator behind it if
there is one. The separator may be missing at the end of the data.
-/

namespace Flatfile.Fixed

def checkSeparator (separator found : List UInt8) : Except RawError Unit :=
  if found = [] ∨ found = separator then .ok ()
  else .error (.data (.wrongSeparator separator found))

/-- Read the bytes of the next record and the separator. There is no record at the end of the data,
nor where the stream fails at once; anything else counts as one. -/
def readRaw (length : Nat) (separator : List UInt8) (s : Source) :
    Except IoFault (Option (Except RawError (List UInt8))) × Source :=
  match s.take length with
  | (.error fault, s) => (.error fault, s)
  | (.ok bytes, s) =>
    if bytes.isEmpty then (.ok none, s)
    else if bytes.length < length then
      (.ok (some (.error (.data (.truncated bytes.length length)))), s)
    else
      match s.take separator.length with
      | (.error fault, s) => (.ok (some (.error (.io fault))), s)
      | (.ok found, s) => (.ok (some ((checkSeparator separator found).map fun _ => bytes)), s)

end Flatfile.Fixed
